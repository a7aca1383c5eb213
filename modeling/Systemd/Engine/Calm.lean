import Systemd.Engine.Closure

set_option autoImplicit false

namespace Systemd

open Relation List Option

variable {U : Type}

-- What the request finds of the unit makes a job of the type redundant.
def Superfluous (m : Manager U) (type : JobType) (u : U) : Prop :=
  (jobTypeIsRedundant type (m.activeState u) = true ∨
      ∃ k, m.metaJob u = some k ∧ (m.job k).type = type) ∧
    ∀ k, m.metaJob u = some k -> jobTypeIsConflicting type (m.job k).type = false

/-- The jobs that a job for the unit `top` cannot do without, as far as they are not redundant. -/
inductive Insists (E : Units U) (m : Manager U) (type : JobType) (top : U) : JobType -> U -> Prop where
  | root : Insists E m type top type top
  | strict (type1 type2 : JobType) (u dep : U) : Insists E m type top type1 u -> ¬ Unmeetable E type1 u ->
      Strict E type1 u type2 dep -> refusal E type2 dep = none -> dep = top ∨ ¬ Superfluous m type2 dep ->
      Insists E m type top type2 dep

/-- A job of the type is worth keeping beside the unit's queued one, whatever other job of a start request
joins it. -/
def Prevails (m : Manager U) (u : U) (type : JobType) : Prop :=
  ∀ k, m.metaJob u = some k -> (m.job k).type ≠ type ∧
    ∀ chain, StartOrStop chain -> jobTypeIsSuperset chain type = true ->
      jobTypeIsConflicting chain (m.job k).type = true ∨
        jobTypeIsRedundant ((jobTypeMerge chain (m.job k).type).getD chain) (m.activeState u) = false

-- Isolating stops the unit, by a stop job of its own or by one that such a job insists on.
def Stopped (E : Units U) (m : Manager U) (request : JobRequest U) (u : U) : Prop :=
  IsolateTarget E m u ∧ refusal E .stop u = none ∧ (∀ type, ¬ Brought E request.call type u) ∧
    ∀ v, IsolateTarget E m v -> Brought E (isolateCall v) .stop u ->
      u = v ∨ Insists E m .stop v .stop u ∧ Prevails m u .stop

def Stays (E : Units U) (m : Manager U) (request : JobRequest U) (u : U) : Prop :=
  u = request.unit ∨ Stopped E m request u ∨
    ∃ type, Insists E m request.type request.unit type u ∧ Prevails m u type

def PassesOn (E : Units U) (m : Manager U) (request : JobRequest U) (a b : U) : Prop :=
  ∃ j k, m.metaJob a = some j ∧ m.metaJob b = some k ∧ (m.job k).type.isStartLike = true ∧
    ((m.job j).type.isStartLike = true ∧
        (b ∈ E.dependencies .requiredBy a ∨ b ∈ E.dependencies .boundBy a ∨
          b ∈ E.dependencies .requiredByOverridable a ∧
            ((m.job k).override = false ∨ Asked E m request (m.job k).type b)) ∨
      (m.job j).type = .stop ∧ b ∈ E.dependencies .conflictedBy a)

/-- The units whose queued job goes when those are cancelled that isolating leaves no job. -/
inductive Falls (E : Units U) (m : Manager U) (request : JobRequest U) : U -> Prop where
  | cancelled (u : U) (k : JobId) : m.metaJob u = some k -> ¬ Stays E m request u -> Falls E m request u
  | failed (a b : U) : Falls E m request a -> PassesOn E m request a b -> Falls E m request b

/-- No failure of a cancelled job triggers OnFailure= units, or takes the start job that the requested
unit has queued already. -/
def Calm (E : Units U) (m : Manager U) (request : JobRequest U) : Prop :=
  ∀ a b, Falls E m request a -> PassesOn E m request a b -> E.dependencies .onFailure b = [] ∧
    ∀ k, m.metaJob b = some k -> b = request.unit -> (m.job k).type ≠ .start

variable {u : U} {type : JobType} {E : Units U} {call : AddCall U} {m m0 : Manager U}

theorem Pulled.types (S : JobType -> Prop) (root : S call.type)
    (closed : ∀ type override, S type -> ∀ pull ∈ pulls type override, S pull.type)
    (pulled : Pulled E call type u) : S type := by
  induction pulled with
  | root => exact root
  | pull type u override pull dep _ _ inPulls _ ih => exact closed type override ih pull inPulls

theorem pulls_startOrStop (type : JobType) (override : Bool) (inside : StartOrStop type) :
    ∀ pull ∈ pulls type override, StartOrStop pull.type := by
  rcases inside with rfl | rfl | rfl <;> simp [pulls, StartOrStop]

theorem asked_startOrStop {request : JobRequest U} (start : request.type = .start)
    (asked : Asked E m request type u) : StartOrStop type := by
  rcases asked with pulled | ⟨_, v, _, pulled⟩
  · exact pulled.pulled.types StartOrStop (.inl start) pulls_startOrStop
  · exact pulled.pulled.types StartOrStop (.inr (.inr rfl)) pulls_startOrStop

theorem Brought.stop (stop : call.type = .stop) (brought : Brought E call type u) : type = .stop := by
  refine brought.pulled.types (fun type => type = .stop) stop ?_
  rintro type override rfl pull mem
  simp only [pulls, mem_cons, not_mem_nil, or_false] at mem
  rcases mem with rfl | rfl | rfl <;> rfl

theorem Brought.admitted (brought : Brought E call type u) : refusal E call.type call.unit = none := by
  induction brought with
  | root accepted => exact accepted
  | pull _ _ _ _ _ _ _ _ _ _ ih => exact ih

variable [DecidableEq U] [Fintype U]

-- The stop job of some unit of its own brings in one for this unit.
def StopAnchored (E : Units U) (m0 m : Manager U) (u : U) : Prop :=
  ∃ v k, IsolateTarget E m0 v ∧ Brought E (isolateCall v) .stop u ∧ Placed m (isolateCall v) k

omit [DecidableEq U] [Fintype U] in
theorem StopAnchored.grow {asked : JobType -> U -> Prop} {m' : Manager U} (wf : WellFormed m)
    (growth : Growth E asked m m') (anchored : StopAnchored E m0 m u) : StopAnchored E m0 m' u := by
  obtain ⟨v, k, target, brought, placed⟩ := anchored
  exact ⟨v, k, target, brought, placed.grow wf growth⟩

def NewAnchored (E : Units U) (m0 m : Manager U) : Prop :=
  ∀ v, ∀ j ∈ m.chain v, j ∉ m0.chain v -> StopAnchored E m0 m v

theorem isolateStep_anchored (E : Units U) (isolating : Isolating E m0 m) (u : U) (mem : u ∈ E.units)
    (anchored : NewAnchored E m0 m) :
    (∃ asked, Growth E asked m (isolateStep E m u)) ∧ NewAnchored E m0 (isolateStep E m u) ∧
      (IsolateTarget E m0 u -> refusal E .stop u = none -> (isolateStep E m u).chain u ≠ []) := by
  by_cases stops : isolateStops m E u = true
  · have target : IsolateTarget E m0 u := by
      simp only [isolateStops, Bool.and_eq_true, Bool.not_eq_true', isolating.growth.activeState,
        isolating.growth.metaJob] at stops
      refine ⟨mem, stops.1.1, fun idle => ?_⟩
      simp [idle.1, idle.2] at stops
    simp only [isolateStep, stops, if_true]
    obtain ⟨add, spec, same⟩ := transactionAddJobAndDependencies_unfold E
    have valid := callFrom_none E m (isolateCall u) rfl
    have growth := (addJobAndDependencies_spec E add spec).growth m _ isolating.wf valid
    have entered := addJobAndDependencies_entered E add spec m _ isolating.wf valid
    rw [same]
    refine ⟨⟨_, growth⟩, fun v j inChain outside => ?_, fun _ accepted => ?_⟩
    · by_cases early : j ∈ m.chain v
      · exact (anchored v j early outside).grow isolating.wf growth
      · obtain ⟨added, chain, asked⟩ := growth.chain v
        rw [chain] at inChain
        obtain ⟨brought, _⟩ := asked j ((mem_append.mp inChain).resolve_right early)
        obtain ⟨ret, placed⟩ := entered brought.admitted
        exact ⟨u, ret, target, brought.stop rfl ▸ brought, placed⟩
    · obtain ⟨ret, placed⟩ := entered accepted
      exact ne_nil_of_mem placed.mem
  · simp only [isolateStep, stops, Bool.false_eq_true, if_false]
    refine ⟨⟨fun _ _ => True, .refl m⟩, anchored, fun target _ empty => stops ?_⟩
    obtain ⟨_, kept, awake⟩ := target
    simp only [isolateStops, isolating.growth.activeState, isolating.growth.metaJob, kept,
      Manager.transactionGet, empty, Bool.and_eq_true, Bool.not_eq_true']
    simpa using awake

theorem isolateSteps_anchored (E : Units U) (units : List U) (known : units ⊆ E.units) (m : Manager U)
    (isolating : Isolating E m0 m) (anchored : NewAnchored E m0 m) :
    (∃ asked, Growth E asked m (units.foldl (isolateStep E) m)) ∧
      NewAnchored E m0 (units.foldl (isolateStep E) m) ∧
      ∀ u ∈ units, IsolateTarget E m0 u -> refusal E .stop u = none ->
        (units.foldl (isolateStep E) m).chain u ≠ [] := by
  induction units generalizing m with
  | nil => exact ⟨⟨fun _ _ => True, .refl m⟩, anchored, by simp⟩
  | cons u rest ih =>
    have mem := known (mem_cons_self ..)
    have next := isolateStep_spec E isolating u mem
    obtain ⟨⟨_, growth1⟩, anchored1, here⟩ := isolateStep_anchored E isolating u mem anchored
    obtain ⟨⟨_, growth2⟩, anchored2, later⟩ :=
      ih (fun v inRest => known (mem_cons_of_mem _ inRest)) _ next anchored1
    refine ⟨⟨fun _ _ => True, (growth1.mono fun _ _ _ => trivial).trans next.wf
      (growth2.mono fun _ _ _ => trivial)⟩, anchored2, fun v inUnits target accepted => ?_⟩
    rcases mem_cons.mp inUnits with rfl | inRest
    · obtain ⟨j, inChain⟩ := exists_mem_of_ne_nil _ (here target accepted)
      exact ne_nil_of_mem (growth2.mem_chain inChain)
    · exact later v inRest target accepted

theorem transactionAddIsolateJobs_anchored (E : Units U) (wf : WellFormed m0)
    (target : IsolateTarget E m0 u) (accepted : refusal E .stop u = none)
    (outside : m0.chain u = []) : StopAnchored E m0 (transactionAddIsolateJobs E m0) u := by
  obtain ⟨_, anchored, busy⟩ := isolateSteps_anchored E E.units (fun _ h => h) m0
    ⟨wf, .refl m0, fun _ mem _ => .inl mem⟩ fun v j inside outside => absurd inside outside
  obtain ⟨j, inChain⟩ := exists_mem_of_ne_nil _ (busy u target.1 target accepted)
  exact anchored u j inChain (by simp [outside])

namespace Succeeded

variable {E : Units U} {e : Entry U} {ret : JobId} {m1 m m' final : Manager U}

variable {u : U} {k : JobId}

section

variable (stages : Succeeded E e ret m1 m m' final)
include stages

theorem noop_iff {j : JobId} (mem : j ∈ m1.chain u) :
    jobIsNoop m1 j = true ↔ jobIsAnchor m1 j = false ∧ Superfluous e.manager (m1.job j).type u := by
  have growth := stages.built.1.growth
  have old {k : JobId} (found : e.manager.metaJob u = some k) : (m1.job k).type = (e.manager.job k).type :=
    (growth.kept k (stages.wf.jobFresh k (stages.wf.metaJobs u k found).1)).type
  have reused : (m1.job j).installed = true ↔
      ∃ k, e.manager.metaJob u = some k ∧ (e.manager.job k).type = (m1.job j).type := by
    constructor
    · intro installed
      have found := stages.accepted.wf.chainInstalled u j mem installed
      rw [growth.metaJob] at found
      exact ⟨j, found, (old found).symm⟩
    · rintro ⟨k, found, type⟩
      obtain rfl := growth.reused u j mem (by simp [stages.quiet.chain]) k found
        (by rw [old found, type])
      exact stages.accepted.wf.jobInstalled j (stages.accepted.wf.metaJobs u j (by rw [growth.metaJob, found])).1
  have changes : changesExistingJob m1 j = false ↔ ∀ k, e.manager.metaJob u = some k ->
      jobTypeIsConflicting (m1.job j).type (e.manager.job k).type = false := by
    rw [changesExistingJob, stages.accepted.wf.chainUnit u j mem, growth.metaJob]
    cases found : e.manager.metaJob u with
    | none => simp
    | some k => simp [old found]
  unfold jobIsNoop Superfluous
  rw [stages.accepted.wf.chainUnit u j mem, growth.activeState, ← reused, ← changes]
  simp only [Bool.and_eq_true, Bool.not_eq_true', Bool.or_eq_true]
  tauto

/-- What a job that stays in the transaction insists on stays there as well. -/
theorem insists_kept (requirements : e.request.call.ignoreRequirements = false) {top : U}
    (anchored : k ∈ m.chain top) (typed : (m.job k).type = type) {type' : JobType}
    (insists : Insists E e.manager type top type' u) : ∃ j ∈ m.chain u, (m.job j).type = type' := by
  obtain ⟨gone, dropped, screened⟩ := stages.accepted.screened
  obtain ⟨_, pruned⟩ := stages.accepted.pruned
  induction insists with
  | root => exact ⟨k, anchored, typed⟩
  | strict type1 type2 v dep _ meetable strict accepted worth ih =>
    obtain ⟨j, inChain, rfl⟩ := ih
    have inBuilt := ((pruned.mem_chain v j).mp inChain).1
    rw [(pruned.same j).type] at meetable strict
    obtain ⟨l, inDep, rfl, needs⟩ := stages.linked requirements inBuilt meetable type2 dep
      (by rwa [stages.accepted.wf.chainUnit v j inBuilt]) accepted
    refine ⟨l, ?_, (pruned.same l).type⟩
    by_contra absent
    have inGone := stages.accepted.mem_gone screened inDep absent
    have redundant : l ∈ dropped := by
      by_contra notDropped
      have needed : Needs (transactionFindJobsThatMatterToAnchor m1 1) j l := by
        simpa only [Needs, stages.accepted.wf.marked_links] using needs
      exact ((screened.pruned.mem_chain v j).mp inChain).2 (screened.needs j l needed inGone notDropped)
    obtain ⟨noop, empty⟩ := stages.accepted.redundant_whole screened inDep redundant
    rcases worth with rfl | busy
    · simp [empty] at anchored
    · exact busy ((stages.noop_iff inDep).mp noop).2

theorem prevails_busy (start : e.request.type = .start) {j s : JobId} (mem : j ∈ m.chain u)
    (found : e.manager.metaJob u = some k) (prevails : Prevails e.manager u (m.job j).type)
    (survivor : mergeSurvivor m (m.chain u) = some s) : ¬ DroppedMerged m u s := by
  have wf := stages.accepted.wfMerge
  have here : m.metaJob u = some k := by rw [stages.metaJob, found]
  have old := (stages.oldJob (stages.wf.metaJobs u k found).1).type
  obtain ⟨ne, other⟩ := prevails k found
  have new : (m.job s).installed = false := by
    by_contra installed
    have alone := mergeSurvivor_installed wf survivor (by simpa using installed)
    have same := wf.chainInstalled u s (mergeSurvivor_mem survivor) (by simpa using installed)
    obtain rfl := some.inj (here.symm.trans same)
    rw [alone] at mem
    obtain rfl := mem_singleton.mp mem
    exact ne old.symm
  have chain := chainType_closed StartOrStop (by unfold StartOrStop; decide)
    (fun r inChain => asked_startOrStop start (stages.asked inChain)) (ne_nil_of_mem mem)
  have superset := chainType_superset (stages.accepted.mergeable u) j mem
  have merged : mergedType m u s = (jobTypeMerge (chainType m u) (m.job k).type).getD (chainType m u) := by
    simp [mergedType, new, mergeTypeOf_eq (ne_nil_of_mem mem), here]
  rintro ⟨_, redundant, agrees⟩
  have agrees := agrees k here
  simp only [new, Bool.false_eq_true, false_or] at redundant
  rw [merged, stages.sameState] at redundant
  rw [merged] at agrees
  have kept := other _ chain superset
  rw [← old] at kept
  rcases kept with conflict | worth
  · have none : jobTypeMerge (chainType m u) (m.job k).type = none := by
      rw [← not_isSome_iff_eq_none, jobTypeMerge_isSome_iff, conflict]
      simp
    simp [none, conflict] at agrees
  · simp [worth] at redundant

theorem placed_on (nonempty : m.chain u ≠ [])
    (busy : ∀ s, mergeSurvivor m (m.chain u) = some s -> ¬ DroppedMerged m u s) :
    m'.transactionGet u ≠ none := by
  obtain ⟨s, survivor⟩ := mergeSurvivor_exists m nonempty
  simp [Manager.transactionGet, (stages.accepted.outcome u s survivor).2.2 (busy s survivor)]

theorem isolating (isolate : e.request.mode = .isolate) :
    e.request.type = .start ∧ e.request.call.ignoreRequirements = false := by
  have admitted := stages.admitted
  refine ⟨?_, by simp [JobRequest.call, isolate]⟩
  by_contra other
  simp [requestRefusal, isolate, other] at admitted

theorem stopped_on (isolate : e.request.mode = .isolate) (found : e.manager.metaJob u = some k)
    (stopped : Stopped E e.manager e.request u) : m'.transactionGet u ≠ none := by
  obtain ⟨target, accepted, outside, stops⟩ := stopped
  obtain ⟨start, requirements⟩ := stages.isolating isolate
  have anchored : StopAnchored E e.manager m1 u := by
    have build := stages.build
    unfold buildTransaction at build
    have valid := callFrom_none E e.manager e.request.call rfl
    have spec := transactionAddJobAndDependencies_spec E
    have wf0 := spec.wf e.manager e.request.call stages.wf valid
    have growth0 := spec.growth e.manager e.request.call stages.wf valid
    cases called : transactionAddJobAndDependencies E e.manager e.request.call with
    | mk m0 outcome =>
      rw [called] at build wf0 growth0
      cases outcome with
      | error => cases congrArg Prod.snd build
      | ok job =>
        simp only [isolate, if_true] at build
        replace growth0 : Growth E (Brought E e.request.call) e.manager m0 := growth0
        obtain rfl : transactionAddIsolateJobs E m0 = m1 := congrArg Prod.fst build
        have same (v : U) : IsolateTarget E m0 v ↔ IsolateTarget E e.manager v := by
          simp only [IsolateTarget, growth0.activeState, growth0.metaJob]
        have empty : m0.chain u = [] := by
          obtain ⟨added, chain, asked⟩ := growth0.chain u
          rw [stages.quiet.chain, append_nil] at chain
          refine eq_nil_iff_forall_not_mem.mpr fun j mem => ?_
          exact outside _ (asked j (chain ▸ mem)).1
        obtain ⟨v, l, target', rest⟩ :=
          transactionAddIsolateJobs_anchored E wf0 ((same u).mpr target) accepted empty
        exact ⟨v, l, (same v).mp target', rest⟩
  obtain ⟨v, l, target', brought, placed⟩ := anchored
  obtain ⟨inChain, anchor⟩ := stages.anchor_kept placed rfl rfl
  rcases stops v target' brought with rfl | ⟨insists, prevails⟩
  · exact stages.placed_on (ne_nil_of_mem inChain) fun s _ => anchored_busy inChain anchor
  · obtain ⟨_, pruned⟩ := stages.accepted.pruned
    obtain ⟨j, mem, stop⟩ := stages.insists_kept requirements inChain
      ((pruned.same l).type.trans placed.type) insists
    rw [← stop] at prevails
    exact stages.placed_on (ne_nil_of_mem mem)
      fun s survivor => stages.prevails_busy start mem found prevails survivor

theorem stays_on (isolate : e.request.mode = .isolate) (found : e.manager.metaJob u = some k)
    (stays : Stays E e.manager e.request u) : m'.transactionGet u ≠ none := by
  obtain ⟨start, requirements⟩ := stages.isolating isolate
  rcases stays with rfl | stopped | ⟨type, insists, prevails⟩
  · obtain ⟨mem, _⟩ := stages.requested_busy ret
    exact stages.placed_on (ne_nil_of_mem mem) fun s _ => (stages.requested_busy s).2
  · exact stages.stopped_on isolate found stopped
  · obtain ⟨_, pruned⟩ := stages.accepted.pruned
    obtain ⟨j, mem, rfl⟩ := stages.insists_kept requirements (stages.requested_busy ret).1
      ((pruned.same ret).type.trans stages.built.2.type) insists
    exact stages.placed_on (ne_nil_of_mem mem)
      fun s survivor => stages.prevails_busy start mem found prevails survivor

theorem queued (found : m'.metaJob u = some k) :
    e.manager.metaJob u = some k ∧ SameJob (e.manager.job k) (m'.job k) ∧
      ((m'.job k).override = (e.manager.job k).override ∨
        Asked E e.manager e.request (e.manager.job k).type u) := by
  obtain ⟨_, pruned⟩ := stages.accepted.pruned
  have growth := stages.built.1.growth
  rw [stages.accepted.frame.metaJob, stages.metaJob] at found
  obtain ⟨inJobs, unit⟩ := stages.wf.metaJobs u k found
  have fresh := stages.wf.jobFresh k inJobs
  have installed := stages.accepted.wfMerge.jobInstalled k
    (stages.accepted.wfMerge.metaJobs u k (by rw [stages.metaJob, found])).1
  obtain ⟨kept, override, _⟩ := stages.accepted.frame.kept k installed
  refine ⟨found, (stages.oldJob inJobs).trans kept, ?_⟩
  rw [override, pruned.override]
  rcases growth.override k fresh with same | ⟨v, inside, _⟩
  · exact .inl same
  · have here := stages.accepted.wf.chainUnit v k inside
    rw [(growth.kept k fresh).unit, unit] at here
    subst here
    right
    rw [← (growth.kept k fresh).type]
    exact (stages.built.1.added stages.quiet u k inside).1

theorem passesOn {a b : U} (edge : Propagates E m' a b) : PassesOn E e.manager e.request a b := by
  obtain ⟨j, k, foundA, foundB, startLike, reason⟩ := edge
  obtain ⟨queuedA, sameA, _⟩ := stages.queued foundA
  obtain ⟨queuedB, sameB, override⟩ := stages.queued foundB
  rw [sameA.type] at reason
  rw [sameB.type] at startLike
  refine ⟨j, k, queuedA, queuedB, startLike, reason.imp (And.imp_right ?_) id⟩
  refine Or.imp_right (Or.imp_right (And.imp_right fun plain => ?_))
  exact override.imp (fun same => same.symm.trans plain) id

-- A queued job that is still in the transaction when it is applied was asked for by the request itself.
theorem queued_anchor (found : m'.metaJob u = some k) (inChain : k ∈ m'.chain u)
    (notStop : (m'.job k).type ≠ .stop) : u = e.request.unit ∧ (m'.job k).type = e.request.type := by
  have wf := stages.accepted.wfMerge
  obtain ⟨gone, pruned⟩ := stages.accepted.pruned
  obtain ⟨queued, same, _⟩ := stages.queued found
  have here : m.metaJob u = some k := by rw [stages.metaJob, queued]
  have installed := wf.jobInstalled k (wf.metaJobs u k here).1
  have inMerge := stages.accepted.frame.chain u inChain
  have typeM : (m.job k).type = (m'.job k).type := by
    rw [same.type, (stages.oldJob (stages.wf.metaJobs u k queued).1).type]
  obtain ⟨s, survivor⟩ := mergeSurvivor_exists m (ne_nil_of_mem inMerge)
  obtain ⟨_, dropped, kept⟩ := stages.accepted.outcome u s survivor
  have busy : ¬ DroppedMerged m u s := fun redundant => by simp [dropped redundant] at inChain
  obtain rfl : k = s := by simpa [kept busy] using inChain
  have alone := mergeSurvivor_installed wf survivor installed
  have anchor : ∃ r ∈ m.chain u, jobIsAnchor m r = true := by
    by_contra none
    simp only [not_exists, not_and, Bool.not_eq_true] at none
    refine busy ⟨none, .inl installed, fun l found' => ?_⟩
    obtain rfl := some.inj (here.symm.trans found')
    simp [mergedType, installed, jobTypeIsConflicting]
  by_cases requested : u = e.request.unit
  · subst requested
    have mem := (stages.requested_busy ret).1
    rw [alone] at mem
    obtain rfl := mem_singleton.mp mem
    exact ⟨rfl, by rw [← typeM, (pruned.same ret).type, stages.built.2.type]; rfl⟩
  · obtain ⟨r, mem, anchored⟩ := anchor
    have none := stages.not_anchor requested (fun j inside => by
      rw [alone] at inside
      rw [mem_singleton.mp inside, typeM]
      exact notStop) r mem
    simp [anchored] at none

theorem undisturbed (isolate : e.request.mode = .isolate) (calm : Calm E e.manager e.request) :
    Undisturbed E m' := by
  have spared {a b : U} (falls : Falls E e.manager e.request a) (edge : Propagates E m' a b) {k : JobId}
      (found : m'.metaJob b = some k) : k ∉ m'.chain b := by
    intro inChain
    have startLike : (m'.job k).type.isStartLike = true := by
      obtain ⟨_, l, _, foundB, startLike, _⟩ := edge
      exact some.inj (found.symm.trans foundB) ▸ startLike
    obtain ⟨requested, type⟩ := stages.queued_anchor found inChain fun stop => by
      rw [stop] at startLike
      cases startLike
    obtain ⟨queued, same, _⟩ := stages.queued found
    refine (calm a b falls (stages.passesOn edge)).2 k queued requested ?_
    rw [← same.type, type, (stages.isolating isolate).1]
  have all (u : U) (doomed : Doomed E m' u) : Falls E e.manager e.request u ∧
      ∀ k, m'.metaJob u = some k -> k ∉ m'.chain u := by
    induction doomed with
    | outside u j found outside =>
      have queued := (stages.queued found).1
      refine ⟨.cancelled u j queued fun stays => stages.stays_on isolate queued stays outside, fun k _ => ?_⟩
      simp [head?_eq_none_iff.mp outside]
    | failed a b _ edge ih => exact ⟨.failed a b ih.1 (stages.passesOn edge), fun k found => spared ih.1 edge found⟩
    | evicted a b k d _ found inChain _ _ ih => exact absurd inChain (ih.2 k found)
  exact fun a b doomed edge => ⟨(calm a b (all a doomed).1 (stages.passesOn edge)).1,
    fun k found => spared (all a doomed).1 edge found⟩

end

end Succeeded

end Systemd
