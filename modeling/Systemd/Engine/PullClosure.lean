import Mathlib.Logic.Relation
import Mathlib.Order.Bounds.Basic
import Systemd.Engine.Pulls
import Systemd.Engine.Run

set_option autoImplicit false

namespace Systemd

open Loop List

variable {U : Type}

/-- The rules by which a job for a unit pulls in a job for one it has a dependency on. -/
inductive DependencyPull (E : Units U) : U × JobType -> U × JobType -> Prop where
  | start (type : JobType) (kind : UnitDependency) (u dep : U) :
      type = .start ∨ type = .reloadOrStart ->
      kind ∈ [UnitDependency.requires, .bindTo, .requiresOverridable, .wants] ->
      dep ∈ E.dependencies kind u -> DependencyPull E (u, type) (dep, .start)
  | verifyActive (type : JobType) (kind : UnitDependency) (u dep : U) :
      type = .start ∨ type = .reloadOrStart ->
      kind ∈ [UnitDependency.requisite, .requisiteOverridable] ->
      dep ∈ E.dependencies kind u -> DependencyPull E (u, type) (dep, .verifyActive)
  | stop (type : JobType) (kind : UnitDependency) (u dep : U) :
      type = .start ∨ type = .reloadOrStart ->
      kind ∈ [UnitDependency.conflicts, .conflictedBy] ->
      dep ∈ E.dependencies kind u -> DependencyPull E (u, type) (dep, .stop)
  | propagate (type : JobType) (kind : UnitDependency) (u dep : U) :
      type = .stop ∨ type = .restart ∨ type = .tryRestart ->
      kind ∈ [UnitDependency.requiredBy, .boundBy] ->
      dep ∈ E.dependencies kind u -> DependencyPull E (u, type) (dep, type)

/-- The dependencies, and the units that are followed or follow: those get the same job. -/
inductive PullsIn (E : Units U) : U × JobType -> U × JobType -> Prop where
  | following (type : JobType) (u dep : U) : dep ∈ E.followingSet u -> PullsIn E (u, type) (dep, type)
  | dependency (pair next : U × JobType) : DependencyPull E pair next -> PullsIn E pair next

def ClosedUnder (rule : U × JobType -> U × JobType -> Prop) (S : Set (U × JobType)) : Prop :=
  ∀ pair ∈ S, ∀ next, rule pair next -> next ∈ S

-- The unit and the type of every job in the transaction, one entry a job.
def transactionPairs (m : Manager U) : List (U × JobType) :=
  m.transactionUnits.flatMap fun u => (m.chain u).map fun j => (u, (m.job j).type)

structure Reordered (E E' : Units U) : Prop where
  dependencies : ∀ kind u dep, dep ∈ E'.dependencies kind u ↔ dep ∈ E.dependencies kind u
  followingSet : ∀ u dep, dep ∈ E'.followingSet u ↔ dep ∈ E.followingSet u
  loadState : E'.loadState = E.loadState
  canStart : E'.canStart = E.canStart
  canReload : E'.canReload = E.canReload

def Unrefused (E : Units U) (call : AddCall U) : Prop :=
  ∀ type u, Pulled E call type u -> refusal E type u = none

def OneEach (m : Manager U) : Prop :=
  ∀ u, ∀ j ∈ m.chain u, ∀ k ∈ m.chain u, (m.job j).type = (m.job k).type -> j = k

variable {m m' : Manager U} {u : U} {type : JobType} {E E' : Units U} {call : AddCall U}

theorem mem_transactionPairs (wf : WellFormed m) (pair : U × JobType) :
    pair ∈ transactionPairs m ↔ ∃ j ∈ m.chain pair.1, (m.job j).type = pair.2 := by
  obtain ⟨u, type⟩ := pair
  simp only [transactionPairs, mem_flatMap, mem_map, Prod.mk.injEq]
  constructor
  · rintro ⟨_, _, j, mem, rfl, typed⟩
    exact ⟨j, mem, typed⟩
  · rintro ⟨j, mem, typed⟩
    exact ⟨u, wf.chainMem mem, j, mem, rfl, typed⟩

theorem transactionPairs_nodup (wf : WellFormed m) (one : OneEach m) : (transactionPairs m).Nodup := by
  rw [transactionPairs, nodup_flatMap]
  constructor
  · intro u _
    refine (wf.chainNodup u).map_on ?_
    intro j memberJ k memberK same
    exact one u j memberJ k memberK (Prod.mk.inj same).2
  · refine wf.unitsNodup.imp ?_
    intro u v differ pair inU inV
    obtain ⟨_, _, rfl⟩ := mem_map.mp inU
    obtain ⟨_, _, same⟩ := mem_map.mp inV
    exact differ (Prod.mk.inj same).1.symm

theorem pullsIn_iff (E : Units U) (type type' : JobType) (u dep : U) (override : Bool) :
    PullsIn E (u, type) (dep, type') ↔
      ∃ pull ∈ pulls type override, dep ∈ pullUnits E u pull.set ∧ type' = pull.type := by
  constructor
  · intro rule
    cases rule with
    | following _ _ _ mem => exact ⟨_, mem_cons_self, mem, rfl⟩
    | dependency _ _ rule =>
      cases rule with
      | start _ kind _ _ starts inKinds mem =>
        simp only [mem_cons, not_mem_nil, or_false] at inKinds
        rcases starts with rfl | rfl <;> rcases inKinds with rfl | rfl | rfl | rfl <;>
          simp [pulls, pullUnits, mem]
      | verifyActive _ kind _ _ starts inKinds mem =>
        simp only [mem_cons, not_mem_nil, or_false] at inKinds
        rcases starts with rfl | rfl <;> rcases inKinds with rfl | rfl <;>
          simp [pulls, pullUnits, mem]
      | stop _ kind _ _ starts inKinds mem =>
        simp only [mem_cons, not_mem_nil, or_false] at inKinds
        rcases starts with rfl | rfl <;> rcases inKinds with rfl | rfl <;>
          simp [pulls, pullUnits, mem]
      | propagate _ kind _ _ stops inKinds mem =>
        simp only [mem_cons, not_mem_nil, or_false] at inKinds
        rcases stops with rfl | rfl | rfl <;> rcases inKinds with rfl | rfl <;>
          simp [pulls, pullUnits, mem]
  · rintro ⟨pull, inPulls, mem, rfl⟩
    rcases mem_cons.mp inPulls with rfl | rest
    · exact .following type u dep mem
    · refine .dependency _ _ ?_
      cases type with
      | start | reloadOrStart =>
        simp only [mem_cons, not_mem_nil, or_false] at rest
        rcases rest with rfl | rfl | rfl | rfl | rfl | rfl | rfl | rfl
        · exact .start _ _ u dep (by simp) (by simp) mem
        · exact .start _ _ u dep (by simp) (by simp) mem
        · exact .start _ _ u dep (by simp) (by simp) mem
        · exact .start _ _ u dep (by simp) (by simp) mem
        · exact .verifyActive _ _ u dep (by simp) (by simp) mem
        · exact .verifyActive _ _ u dep (by simp) (by simp) mem
        · exact .stop _ _ u dep (by simp) (by simp) mem
        · exact .stop _ _ u dep (by simp) (by simp) mem
      | stop | restart | tryRestart =>
        simp only [mem_cons, not_mem_nil, or_false] at rest
        rcases rest with rfl | rfl
        · exact .propagate _ _ u dep (by simp) (by simp) mem
        · exact .propagate _ _ u dep (by simp) (by simp) mem
      | verifyActive | reload => simp at rest

theorem Pulled.within {S : Set (U × JobType)} (root : (call.unit, call.type) ∈ S)
    (closed : call.ignoreRequirements = false -> ClosedUnder (PullsIn E) S)
    (pulled : Pulled E call type u) : (u, type) ∈ S := by
  induction pulled with
  | root => exact root
  | pull type u override pull dep requirements _ inPulls inUnits ih =>
    exact closed requirements _ ih _ ((pullsIn_iff E type pull.type u dep override).mpr
      ⟨pull, inPulls, inUnits, rfl⟩)

section

variable (same : Reordered E E')
include same

theorem Pulled.reorder (pulled : Pulled E' call type u) : Pulled E call type u := by
  induction pulled with
  | root => exact .root
  | pull type u override pull dep requirements _ inPulls inUnits ih =>
    refine .pull type u override pull dep requirements ih inPulls ?_
    cases set : pull.set with
    | following =>
      rw [set] at inUnits
      exact (same.followingSet u dep).mp inUnits
    | dependency kind =>
      rw [set] at inUnits
      exact (same.dependencies kind u dep).mp inUnits

theorem Reordered.refusal (type : JobType) (u : U) : refusal E' type u = refusal E type u := by
  have applicable : unitJobIsApplicable E' u type = unitJobIsApplicable E u type := by
    cases type <;> simp [unitJobIsApplicable, unitCanStart, same.canStart, same.canReload]
  simp only [Systemd.refusal, same.loadState, applicable]

theorem Reordered.pullsIn {pair next : U × JobType} (rule : PullsIn E' pair next) :
    PullsIn E pair next := by
  have mem := same.dependencies
  cases rule with
  | following type u dep inSet => exact .following type u dep ((same.followingSet u dep).mp inSet)
  | dependency _ _ rule =>
    refine .dependency _ _ ?_
    cases rule with
    | start type kind u dep starts inKinds inSet =>
      exact .start type kind u dep starts inKinds ((mem kind u dep).mp inSet)
    | verifyActive type kind u dep starts inKinds inSet =>
      exact .verifyActive type kind u dep starts inKinds ((mem kind u dep).mp inSet)
    | stop type kind u dep starts inKinds inSet =>
      exact .stop type kind u dep starts inKinds ((mem kind u dep).mp inSet)
    | propagate type kind u dep stops inKinds inSet =>
      exact .propagate type kind u dep stops inKinds ((mem kind u dep).mp inSet)

theorem Reordered.closed (S : Set (U × JobType)) (closed : ClosedUnder (PullsIn E) S) :
    ClosedUnder (PullsIn E') S :=
  fun pair mem next rule => closed pair mem next (same.pullsIn rule)

theorem Reordered.unrefused (unrefused : Unrefused E call) : Unrefused E' call :=
  fun type u pulled => (same.refusal type u).trans (unrefused type u (pulled.reorder same))

theorem Reordered.symm : Reordered E' E where
  dependencies := fun kind u dep => (same.dependencies kind u dep).symm
  followingSet := fun u dep => (same.followingSet u dep).symm
  loadState := same.loadState.symm
  canStart := same.canStart.symm
  canReload := same.canReload.symm

end

theorem Unrefused.nested (unrefused : Unrefused E call) (requirements : call.ignoreRequirements = false)
    {ret : JobId} {item : Pull × AddCall U} (mem : item ∈ pullCalls E call ret) : Unrefused E item.2 :=
  fun type u pulled => unrefused type u (pulled.nested requirements mem)

def NewPulled (E : Units U) (m m' : Manager U) : Prop :=
  ∀ u, ∀ j ∈ m'.chain u, j ∉ m.chain u ->
    ∀ next, PullsIn E (u, (m'.job j).type) next ->
      ∃ k ∈ m'.chain next.1, (m'.job k).type = next.2

theorem NewPulled.trans {asked : JobType -> U -> Prop} {m'' : Manager U} (wf : WellFormed m')
    (growth : Growth E asked m' m'') (first : NewPulled E m m') (second : NewPulled E m' m'') :
    NewPulled E m m'' := by
  intro u j mem outside next rule
  by_cases early : j ∈ m'.chain u
  · rw [(growth.kept j (wf.chainFresh u j early)).type] at rule
    obtain ⟨k, inChain, typed⟩ := first u j early outside next rule
    exact ⟨k, growth.mem_chain inChain, (growth.kept k (wf.chainFresh _ k inChain)).type.trans typed⟩
  · exact second u j mem early next rule

theorem OneEach.added {ret : JobId} (wf : WellFormed m) (one : OneEach m)
    (added : Added E m type u m' ret) : OneEach m' := by
  have kept : ∀ v, ∀ j ∈ m.chain v, (m'.job j).type = (m.job j).type :=
    fun v j mem => (added.growth.kept j (wf.chainFresh v j mem)).type
  intro v j memberJ k memberK same
  by_cases here : v = u
  · subst here
    rw [added.chain, mem_cons] at memberJ memberK
    rcases memberJ with rfl | oldJ
    · rcases memberK with rfl | oldK
      · rfl
      · rw [added.typed, kept v k oldK] at same
        exact absurd same.symm (added.absent k oldK)
    · rcases memberK with rfl | oldK
      · rw [added.typed, kept v j oldJ] at same
        exact absurd same (added.absent j oldJ)
      · rw [kept v j oldJ, kept v k oldK] at same
        exact one v j oldJ k oldK same
  · rw [added.others v here] at memberJ memberK
    rw [kept v j memberJ, kept v k memberK] at same
    exact one v j memberJ k memberK same

theorem OneEach.enterJob (one : OneEach m) (call : AddCall U) (ret : JobId) :
    OneEach (enterJob m call ret) := by
  have kept : ∀ j, ((Systemd.enterJob m call ret).job j).type = (m.job j).type := by
    intro j
    by_cases eq : j = ret
    · simp [Systemd.enterJob, jobDependencyNew, Manager.setJob, eq]
    · simp [Systemd.enterJob, jobDependencyNew, Manager.setJob, Function.update_of_ne eq]
  intro u j memberJ k memberK same
  rw [kept, kept] at same
  exact one u j memberJ k memberK same

section

variable [DecidableEq U] [Fintype U]

def PullsAll (E : Units U) (room : Nat) (add : AddFunction U) : Prop :=
  ∀ m call, WellFormed m -> CallFrom E m call -> Unrefused E call -> missing m < room ->
    ∃ m' ret, add m call = (m', .ok ret) ∧ (OneEach m -> OneEach m') ∧
      (call.ignoreRequirements = false -> NewPulled E m m')

omit [DecidableEq U] in
theorem pullIn_all (E : Units U) (add : AddFunction U) (room : Nat) (spec : AddSpec E add)
    (all : PullsAll E room add) (call : AddCall U) (requirements : call.ignoreRequirements = false)
    (unrefused : Unrefused E call) (ret : JobId) (items : List (Pull × AddCall U))
    (known : ∀ item ∈ items, item ∈ pullCalls E call ret) (m : Manager U) (wf : WellFormed m)
    (placed : Placed m call ret) (fewer : missing m < room) :
    ∃ m', forEach (pullIn add) m items = (m', .ok ()) ∧ WellFormed m' ∧
      Growth E (Pulled E call) m m' ∧ (OneEach m -> OneEach m') ∧ NewPulled E m m' ∧
        ∀ item ∈ items, ∃ job, Placed m' item.2 job := by
  induction items generalizing m with
  | nil => exact ⟨m, rfl, wf, .refl m, id, fun u j mem outside => absurd mem outside, by simp⟩
  | cons item rest ih =>
    have here := known item (by simp)
    have valid := pullCalls_valid wf placed here
    obtain ⟨_, _, _, _, _, _, nested⟩ := pullCalls_mem here
    obtain ⟨m1, job, called, one1, new1⟩ := all m item.2 wf valid (unrefused.nested requirements here) fewer
    have wf1 := spec.wf m item.2 wf valid
    have growth1 : Growth E (Pulled E item.2) m (add m item.2).1 :=
      (spec.growth m item.2 wf valid).mono fun _ _ => Brought.pulled
    have placed1 := spec.placed m item.2 wf valid job (by rw [called])
    rw [called] at wf1 growth1 placed1
    obtain ⟨m', ran, wf', growth', one', new', pulled⟩ :=
      ih (fun x mem => known x (mem_cons_of_mem _ mem)) m1 wf1 (placed.grow wf growth1)
        ((missing_mono wf growth1).trans_lt fewer)
    refine ⟨m', ?_, wf', (growth1.mono fun _ _ => Pulled.nested requirements here).trans wf1 growth',
      fun one => one' (one1 one), (new1 nested).trans wf1 growth' new', ?_⟩
    · rw [forEach, pullIn, called]
      exact ran
    · intro x mem
      rcases mem_cons.mp mem with rfl | later
      · exact ⟨job, placed1.grow wf1 growth'⟩
      · exact pulled x later

theorem addJobAndDependencies_all (E : Units U) (add : AddFunction U) (room : Nat)
    (spec : AddSpec E add) (all : PullsAll E room add) :
    PullsAll E (room + 1) (addJobAndDependencies E add) := by
  intro m call wf valid unrefused fewer
  have accepted := unrefused call.type call.unit .root
  cases one : transactionAddOneJob m call.type call.unit call.override with
  | mk m1 rest =>
    obtain ⟨ret, isNew⟩ := rest
    rw [addJobAndDependencies_eq add m1 ret isNew accepted one]
    rcases transactionAddOneJob_spec E wf m1 ret isNew one with
      ⟨rfl, rfl, _, _⟩ | ⟨rfl, added⟩
    · rw [if_neg (by simp)]
      exact ⟨_, ret, rfl, fun each => each.enterJob call ret,
        fun _ u j mem outside => absurd mem outside⟩
    · obtain ⟨wf2, growth2, placed⟩ := enterJob_spec added.wf (added.growth.callFrom wf valid)
        (by simp [added.chain]) added.typed (Pulled E call)
      by_cases requirements : call.ignoreRequirements = false
      · have less := (missing_mono added.wf growth2).trans_lt (missing_lt wf added)
        obtain ⟨m3, ran, wf3, growth3, one3, new3, pulled⟩ := pullIn_all E add room spec all call
          requirements unrefused ret (pullCalls E call ret) (fun _ h => h) _ wf2 placed (by omega)
        rw [if_pos ⟨rfl, requirements⟩, ran]
        refine ⟨m3, ret, rfl, fun each => one3 ((each.added wf added).enterJob call ret), fun _ => ?_⟩
        intro u j mem outside next rule
        by_cases early : j ∈ (enterJob m1 call ret).chain u
        · -- The one job that the call itself has added: the loop has come by each of its pulls.
          obtain ⟨rfl, rfl⟩ : u = call.unit ∧ j = ret := by
            change j ∈ m1.chain u at early
            by_cases same : u = call.unit
            · subst same
              rw [added.chain] at early
              exact ⟨rfl, (mem_cons.mp early).resolve_right outside⟩
            · rw [added.others u same] at early
              exact absurd early outside
          rw [(placed.grow wf2 growth3).type] at rule
          obtain ⟨dep, type⟩ := next
          obtain ⟨pull, inPulls, inUnits, rfl⟩ := (pullsIn_iff E _ _ _ _ call.override).mp rule
          obtain ⟨k, here⟩ := pulled _ (mem_flatMap.mpr ⟨pull, inPulls,
            mem_map.mpr ⟨dep, inUnits, rfl⟩⟩)
          exact ⟨k, here.mem, here.type⟩
        · exact new3 u j mem early next rule
      · rw [if_neg fun both => requirements both.2]
        exact ⟨_, ret, rfl, fun each => (each.added wf added).enterJob call ret,
          fun h => absurd h requirements⟩

theorem addWithDepth_all (E : Units U) (depth : Nat) : PullsAll E (depth + 1) (addWithDepth E depth) := by
  induction depth with
  | zero =>
    exact addJobAndDependencies_all E _ 0 (noMemory_spec E)
      fun _ _ _ _ _ fewer => absurd fewer (Nat.not_lt_zero _)
  | succ depth ih => exact addJobAndDependencies_all E _ _ (addWithDepth_spec E depth) ih

theorem addJob_pairs_least (E : Units U) (m : Manager U) (call : AddCall U) (wf : WellFormed m)
    (empty : ∀ u, m.chain u = []) (root : call.requester = none) (unrefused : Unrefused E call) :
    ∃ m' ret, transactionAddJobAndDependencies E m call = (m', .ok ret) ∧
      (transactionPairs m').Nodup ∧
      IsLeast {S | (call.unit, call.type) ∈ S ∧
        (call.ignoreRequirements = false -> ClosedUnder (PullsIn E) S)} {pair | pair ∈ transactionPairs m'} := by
  have valid : CallFrom E m call := fun r requester => by simp [root] at requester
  have fewer : missing m < Fintype.card (U × JobType) + 1 := Nat.lt_succ_of_le (Finset.card_le_univ _)
  obtain ⟨m', ret, called, one, new⟩ := addWithDepth_all E _ m call wf valid unrefused fewer
  have spec := transactionAddJobAndDependencies_spec E
  have wf' := spec.wf m call wf valid
  have growth := spec.growth m call wf valid
  have placed := spec.placed m call wf valid ret
  rw [transactionAddJobAndDependencies, called] at wf' growth placed
  have placed := placed rfl
  refine ⟨m', ret, called, transactionPairs_nodup wf' (one ?_), ⟨?_, ?_⟩, ?_⟩
  · intro u j mem
    simp [empty u] at mem
  · exact (mem_transactionPairs wf' _).mpr ⟨ret, placed.mem, placed.type⟩
  · rintro requirements ⟨u, type⟩ mem next rule
    obtain ⟨j, inChain, rfl⟩ := (mem_transactionPairs wf' _).mp mem
    exact (mem_transactionPairs wf' next).mpr
      (new requirements u j inChain (by simp [empty u]) next rule)
  · rintro S ⟨inS, closed⟩ ⟨u, type⟩ mem
    obtain ⟨j, inChain, rfl⟩ := (mem_transactionPairs wf' _).mp mem
    obtain ⟨added, chain, all⟩ := growth.chain u
    rw [empty u, append_nil] at chain
    exact (all j (chain ▸ inChain)).1.pulled.within inS closed

theorem transactionAddJobAndDependencies_closure (E : Units U) (m : Manager U) (call : AddCall U)
    (wf : WellFormed m) (empty : ∀ u, m.chain u = []) (root : call.requester = none)
    (unrefused : Unrefused E call) :
    ∃ m' ret,
      (∀ depth, Fintype.card (U × JobType) ≤ depth -> addWithDepth E depth m call = (m', .ok ret)) ∧
      (transactionPairs m').Nodup ∧
      IsLeast {S | (call.unit, call.type) ∈ S ∧
        (call.ignoreRequirements = false -> ClosedUnder (PullsIn E) S)} {pair | pair ∈ transactionPairs m'} ∧
      ∀ E', Reordered E E' -> ∃ m'' ret',
        transactionAddJobAndDependencies E' m call = (m'', .ok ret') ∧
          (transactionPairs m'').Perm (transactionPairs m') := by
  have valid : CallFrom E m call := fun r requester => by simp [root] at requester
  obtain ⟨m', ret, called, nodup, least⟩ := addJob_pairs_least E m call wf empty root unrefused
  refine ⟨m', ret, ?_, nodup, least, ?_⟩
  · intro depth enough
    exact (transactionAddJobAndDependencies_depth E m call wf valid depth enough).trans called
  · intro E' same
    obtain ⟨m'', ret', called', nodup', least'⟩ :=
      addJob_pairs_least E' m call wf empty root (same.unrefused unrefused)
    refine ⟨m'', ret', called', (perm_ext_iff_of_nodup nodup' nodup).mpr fun pair => ?_⟩
    have closed : ∀ S, ClosedUnder (PullsIn E') S ↔ ClosedUnder (PullsIn E) S :=
      fun S => ⟨same.symm.closed S, same.closed S⟩
    simp only [closed] at least'
    exact Set.ext_iff.mp (least'.unique least) pair

end

-- Two units that require each other; the second follows the third, which conflicts with the first.
def followedCycle : Units (Fin 3) :=
  { loadedUnits 3 (fun kind u =>
      if kind = .requires ∧ u = 0 then [1]
      else if kind = .requires ∧ u = 1 then [0]
      else if kind = .conflicts ∧ u = 2 then [0]
      else []) with
    followingSet := fun u => if u = 1 then [2] else [] }

def startFirst (ignoreRequirements : Bool) : AddCall (Fin 3) where
  type := .start
  unit := 0
  requester := none
  matters := true
  override := false
  conflicts := false
  ignoreRequirements := ignoreRequirements
  ignoreOrder := ignoreRequirements

theorem followedCycle_unrefused (call : AddCall (Fin 3)) : Unrefused followedCycle call := by
  intro type u _
  cases type <;> rfl

theorem followedCycle_dependencies {kind : UnitDependency} {u dep : Fin 3}
    (mem : dep ∈ followedCycle.dependencies kind u) :
    kind = .requires ∧ u = 0 ∧ dep = 1 ∨ kind = .requires ∧ u = 1 ∧ dep = 0 ∨
      kind = .conflicts ∧ u = 2 := by
  simp only [followedCycle, loadedUnits] at mem
  split at mem
  · simp_all
  split at mem
  · simp_all
  split at mem
  · simp_all
  · cases mem

theorem transactionAddJobAndDependencies_closure_cycle :
    ∃ m' ret, transactionAddJobAndDependencies followedCycle (startupManager 0) (startFirst false) =
        (m', .ok ret) ∧
      IsLeast {S | ((0 : Fin 3), JobType.start) ∈ S ∧
        (false = false -> ClosedUnder (PullsIn followedCycle) S)} {pair | pair ∈ transactionPairs m'} := by
  have initial := startupManager_initial (0 : Fin 3)
  obtain ⟨m', ret, called, _, least, _⟩ := transactionAddJobAndDependencies_closure followedCycle
    (startupManager 0) (startFirst false) initial.wellFormed (fun _ => rfl) rfl (followedCycle_unrefused _)
  exact ⟨m', ret, called _ (le_refl _), least⟩

-- A unit that is followed pulls in its follower, without a dependency between the two; and a request
-- that ignores the requirements leaves those out that its unit has.
theorem dependencies_alone_closure :
    (∃ m' ret, transactionAddJobAndDependencies followedCycle (startupManager 0) (startFirst false) =
        (m', .ok ret) ∧
      ¬ IsLeast {S | ((0 : Fin 3), JobType.start) ∈ S ∧ ClosedUnder (DependencyPull followedCycle) S}
        {pair | pair ∈ transactionPairs m'}) ∧
    ∃ m' ret, transactionAddJobAndDependencies followedCycle (startupManager 0) (startFirst true) =
        (m', .ok ret) ∧
      ¬ IsLeast {S | ((0 : Fin 3), JobType.start) ∈ S ∧ ClosedUnder (DependencyPull followedCycle) S}
        {pair | pair ∈ transactionPairs m'} := by
  constructor
  · refine ⟨_, _, rfl, fun least => ?_⟩
    have closed : ClosedUnder (DependencyPull followedCycle)
        {pair | pair = (0, JobType.start) ∨ pair = (1, JobType.start)} := by
      rintro _ inSet _ rule
      have notThird : ∀ type : JobType, ((2 : Fin 3), type) ∉
          ({pair | pair = (0, JobType.start) ∨ pair = (1, JobType.start)} : Set (Fin 3 × JobType)) := by
        simp
      cases rule with
      | start type kind u dep _ _ mem =>
        rcases followedCycle_dependencies mem with ⟨_, _, rfl⟩ | ⟨_, _, rfl⟩ | ⟨_, rfl⟩
        · exact .inr rfl
        · exact .inl rfl
        · exact absurd inSet (notThird type)
      | verifyActive type kind u dep _ inKinds mem =>
        rcases followedCycle_dependencies mem with ⟨rfl, _⟩ | ⟨rfl, _⟩ | ⟨rfl, _⟩ <;>
          simp at inKinds
      | stop type kind u dep _ inKinds mem =>
        rcases followedCycle_dependencies mem with ⟨rfl, _⟩ | ⟨rfl, _⟩ | ⟨_, rfl⟩
        · simp at inKinds
        · simp at inKinds
        · exact absurd inSet (notThird type)
      | propagate type kind u dep _ inKinds mem =>
        rcases followedCycle_dependencies mem with ⟨rfl, _⟩ | ⟨rfl, _⟩ | ⟨rfl, _⟩ <;>
          simp at inKinds
    have follower : ((2 : Fin 3), JobType.start) = (0, .start) ∨ ((2 : Fin 3), JobType.start) = (1, .start) :=
      least.2 ⟨.inl rfl, closed⟩ (show _ ∈ transactionPairs _ by decide)
    simp at follower
  · refine ⟨_, _, rfl, fun least => ?_⟩
    have required : ((1 : Fin 3), JobType.start) ∈ transactionPairs
        (transactionAddJobAndDependencies followedCycle (startupManager 0) (startFirst true)).1 :=
      least.1.2 _ least.1.1 _ (.start _ .requires 0 1 (.inl rfl) (by simp) (by decide))
    revert required
    decide

end Systemd
