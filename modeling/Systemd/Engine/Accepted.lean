import Systemd.Engine.Apply

set_option autoImplicit false

namespace Systemd

open Relation List

variable {U : Type} [DecidableEq U]

/-- A transaction that passed all checks in a mode: built as `m₁`, merged in the state `m`, handed to
transaction_apply as `m'`. -/
structure Accepted (E : Units U) (mode : JobMode) (m1 m m' : Manager U) : Prop where
  wf : WellFormed m1
  fresh : ∀ j, m1.InTransaction j -> (m1.job j).Unmarked
  round : MergeRound E mode (transactionFindJobsThatMatterToAnchor m1 1) m
  mergeable : ∀ u, chainConflict m u = none
  merged : ∃ m'', transactionMergeJobs m = (m'', .ok ()) ∧ AllMerged m m'' ∧
    m' = transactionDropRedundant m''

variable {m' m1 m : Manager U} {u : U}

variable {E : Units U} {request : JobRequest U}

theorem transactionCheck_accepted {mode : JobMode} (wf : WellFormed m1)
    (fresh : ∀ j, m1.InTransaction j -> (m1.job j).Unmarked)
    (check : transactionCheck E mode m1 = (m', .ok ())) : ∃ m, Accepted E mode m1 m m' := by
  have result := transactionCheck_cases E mode m1
  rw [check] at result
  cases result with
  | done m m'' _ round merged _ =>
    obtain ⟨_, _, screened⟩ := round.screened wf.marked.wf
    have outcome := transactionMergeJobs_cases m screened.pruned.wf
    rw [merged] at outcome
    cases outcome with
    | merged _ mergeable all => exact ⟨m, wf, fresh, round, mergeable, m'', merged, all, rfl⟩

-- What merging makes the type of the job that is left for a unit.
def mergedType (m : Manager U) (u : U) (s : JobId) : JobType :=
  if (m.job s).installed then (m.job s).type else mergeTypeOf m u

def DroppedMerged (m : Manager U) (u : U) (s : JobId) : Prop :=
  (∀ r ∈ m.chain u, jobIsAnchor m r = false) ∧
    ((m.job s).installed = true ∨ jobTypeIsRedundant (mergedType m u s) (m.activeState u) = true) ∧
    ∀ k, m.metaJob u = some k -> jobTypeIsConflicting (mergedType m u s) (m.job k).type = false

omit [DecidableEq U] in
theorem AllMerged.jobIsAnchor_iff (wf : WellFormed m) (all : AllMerged m m') (u : U) (s : JobId)
    (survivor : mergeSurvivor m (m.chain u) = some s) :
    jobIsAnchor m' s = true ↔ ∃ r ∈ m.chain u, jobIsAnchor m r = true := by
  obtain ⟨target, links, _, moved⟩ := all.step.links
  have chain : m'.chain u = [s] := by rw [all.chain u, survivor]; rfl
  have unitS : (m.job s).unit = u := wf.chainUnit u s (mergeSurvivor_mem survivor)
  have lands : ∀ r ∈ m.chain u, target r = s := by
    intro r mem
    obtain ⟨unit, inside⟩ := moved r ⟨u, mem⟩
    have inChain := all.step.wf.inTransaction_chain inside
    rw [all.step.unit, unit, wf.chainUnit u r mem, chain] at inChain
    exact mem_singleton.mp inChain
  rw [Systemd.jobIsAnchor_iff, links]
  constructor
  · rintro ⟨_, inLinks, object, subject⟩
    obtain ⟨old, inOld, rfl⟩ := mem_map.mp inLinks
    have inside := wf.linkObject old inOld
    have unit := (moved old.object inside).1
    have same : target old.object = s := object
    rw [same, unitS] at unit
    refine ⟨old.object, unit ▸ wf.inTransaction_chain inside, ?_⟩
    exact (Systemd.jobIsAnchor_iff m _).mpr ⟨old, inOld, rfl, Option.map_eq_none_iff.mp subject⟩
  · rintro ⟨r, mem, anchor⟩
    obtain ⟨old, inOld, rfl, subject⟩ := (Systemd.jobIsAnchor_iff m r).mp anchor
    exact ⟨_, mem_map.mpr ⟨old, inOld, rfl⟩, lands _ mem, by
      simp [JobDependency.relabelBy, subject]⟩

omit [DecidableEq U] in
theorem AllMerged.jobIsNoop_iff (wf : WellFormed m) (all : AllMerged m m') (u : U) (s : JobId)
    (survivor : mergeSurvivor m (m.chain u) = some s) :
    jobIsNoop m' s = true ↔ DroppedMerged m u s := by
  have unitS : (m'.job s).unit = u :=
    (all.step.unit s).trans (wf.chainUnit u s (mergeSurvivor_mem survivor))
  have type : (m'.job s).type = mergedType m u s := all.typed u s survivor
  have anchors : jobIsAnchor m' s = false ↔ ∀ r ∈ m.chain u, jobIsAnchor m r = false := by
    rw [← Bool.not_eq_true, all.jobIsAnchor_iff wf u s survivor]
    simp
  have changes : changesExistingJob m' s = false ↔ ∀ k, m.metaJob u = some k ->
      jobTypeIsConflicting (mergedType m u s) (m.job k).type = false := by
    unfold changesExistingJob
    rw [unitS, all.step.metaJob, type]
    cases found : m.metaJob u with
    | none => simp
    | some k =>
      have same := all.step.untouched k (wf.jobInstalled k (wf.metaJobs u k found).1)
      simp [same]
  unfold jobIsNoop DroppedMerged
  rw [unitS, type, all.step.installed, all.step.activeState]
  simp only [Bool.and_eq_true, Bool.not_eq_true', Bool.or_eq_true, anchors, changes]
  tauto

namespace Accepted

variable {E : Units U} {mode : JobMode} {m1 m m' : Manager U}

section

variable (accepted : Accepted E mode m1 m m')
include accepted

theorem screened :
    ∃ gone dropped, Screened mode (transactionFindJobsThatMatterToAnchor m1 1) m gone dropped :=
  accepted.round.screened
    accepted.wf.marked.wf

theorem pruned : ∃ gone, Pruned m1 m gone := by
  obtain ⟨gone, _, screened⟩ := accepted.screened
  exact ⟨gone, by simpa using accepted.wf.marked.trans screened.pruned⟩

theorem wfMerge : WellFormed m := by
  obtain ⟨_, pruned⟩ := accepted.pruned
  exact pruned.wf

end

variable {gone dropped : List JobId}

section

variable (accepted : Accepted E mode m1 m m')
include accepted

theorem mem_gone (screened : Screened mode (transactionFindJobsThatMatterToAnchor m1 1) m gone dropped)
    {j : JobId} (mem : j ∈ m1.chain u) (absent : j ∉ m.chain u) : j ∈ gone := by
  by_contra kept
  refine absent ((screened.pruned.mem_chain u j).mpr ⟨?_, kept⟩)
  rw [accepted.wf.marked_chain]
  exact mem

theorem redundant_whole
    (screened : Screened mode (transactionFindJobsThatMatterToAnchor m1 1) m gone dropped) {j : JobId}
    (mem : j ∈ m1.chain u) (redundant : j ∈ dropped) : jobIsNoop m1 j = true ∧ m.chain u = [] := by
  have same := accepted.wf.marked
  obtain ⟨noop, _, whole⟩ := screened.noop j redundant
  have unit : ((transactionFindJobsThatMatterToAnchor m1 1).job j).unit = u := by
    rw [(same.same j).unit, accepted.wf.chainUnit u j mem]
  refine ⟨by rwa [← same.jobIsNoop j (by simp)], eq_nil_iff_forall_not_mem.mpr ?_⟩
  intro k inChain
  obtain ⟨inMarked, kept⟩ := (screened.pruned.mem_chain u k).mp inChain
  rw [unit] at whole
  exact kept (whole k inMarked)

theorem outcome (u : U) (s : JobId) (survivor : mergeSurvivor m (m.chain u) = some s) :
    (m'.job s).type = mergedType m u s ∧
    (DroppedMerged m u s -> m'.chain u = []) ∧
    (¬ DroppedMerged m u s -> m'.chain u = [s]) := by
  have wf := accepted.wfMerge
  obtain ⟨m'', _, all, rfl⟩ := accepted.merged
  have chain : m''.chain u = [s] := by rw [all.chain u, survivor]; rfl
  have type : (m''.job s).type = mergedType m u s := all.typed u s survivor
  obtain ⟨gone, dropped, noops⟩ := transactionDropRedundant_whole m'' all.step.wf
  have chain' : (transactionDropRedundant m'').chain u = [s].filter (· ∉ gone) := by
    rw [dropped, ← chain]
    rfl
  rw [← all.jobIsNoop_iff wf u s survivor]
  refine ⟨by rw [dropped]; exact type, fun noop => ?_, fun busy => ?_⟩
  · by_contra remains
    obtain ⟨k, inChain, kBusy⟩ := transactionDropRedundant_exhausted m'' all.step.wf u remains
    rw [chain'] at inChain
    obtain ⟨inSingle, kept⟩ := mem_filter.mp inChain
    obtain rfl := mem_singleton.mp inSingle
    rw [dropped, jobIsNoop_without m'' gone k (by simpa using kept), noop] at kBusy
    cases kBusy
  · have kept : s ∉ gone := fun inGone => busy (noops s inGone).1
    simp [chain', kept]

theorem empty (u : U) (none : m.chain u = []) : m'.chain u = [] := by
  obtain ⟨m'', _, all, rfl⟩ := accepted.merged
  have subset := (transactionDropRedundant_checked all.step.wf).chain u
  have chain : m''.chain u = [] := by rw [all.chain u, none]; rfl
  rw [chain] at subset
  exact subset_nil.mp subset

theorem frame : Checked m m' := by
  obtain ⟨m'', _, all, rfl⟩ := accepted.merged
  exact all.step.checked.trans (transactionDropRedundant_checked all.step.wf)

end

end Accepted

omit [DecidableEq U] in
theorem chainConflict_types (mergeable : chainConflict m u = none) (j k : JobId) (inJ : j ∈ m.chain u)
    (inK : k ∈ m.chain u) : jobTypeIsMergeable (m.job j).type (m.job k).type = true := by
  have first := mergeTypeOf_superset mergeable inJ
  have second := mergeTypeOf_superset mergeable inK
  revert first second
  generalize mergeTypeOf m u = merged
  generalize (m.job j).type = a
  generalize (m.job k).type = b
  revert merged a b
  decide

-- The merged type of a unit's jobs in the transaction, before that of its installed job is added.
def chainType (m : Manager U) (u : U) : JobType :=
  match m.chain u with
  | [] => .start
  | j :: rest => mergeTypes m rest (m.job j).type

section

omit [DecidableEq U]

theorem mergeTypeOf_eq (nonempty : m.chain u ≠ []) :
    mergeTypeOf m u = match m.metaJob u with
      | none => chainType m u
      | some k => (jobTypeMerge (chainType m u) (m.job k).type).getD (chainType m u) := by
  obtain ⟨j, rest, chain⟩ := exists_cons_of_ne_nil nonempty
  cases found : m.metaJob u <;> simp [mergeTypeOf, chainType, chain, found, mergeTypes]

theorem chainType_superset (mergeable : chainConflict m u = none) (j : JobId)
    (mem : j ∈ m.chain u) : jobTypeIsSuperset (chainType m u) (m.job j).type = true := by
  cases chain : m.chain u with
  | nil => simp [chain] at mem
  | cons k rest =>
    simp only [chainConflict, chain] at mergeable
    simp only [chainType, chain]
    rcases mem_cons.mp (chain ▸ mem) with rfl | later
    · exact mergeTypes_superset m _ _
    · simpa using mergeTypes_superset_mem m rest [] _ mergeable j later

theorem chainType_closed (S : JobType -> Prop)
    (closed : ∀ a b, S a -> S b -> ∀ t, jobTypeMerge a b = some t -> S t)
    (types : ∀ j ∈ m.chain u, S (m.job j).type) (nonempty : m.chain u ≠ []) : S (chainType m u) := by
  obtain ⟨j, rest, chain⟩ := exists_cons_of_ne_nil nonempty
  rw [chain] at types
  simp only [chainType, chain, mergeTypes]
  refine List.foldlRecOn (motive := S) rest _ (types j (by simp)) fun type holds k mem => ?_
  cases merged : jobTypeMerge type (m.job k).type with
  | none => simpa [merged] using holds
  | some t => exact closed _ _ holds (types k (mem_cons_of_mem _ mem)) t merged

end

variable [Fintype U]

def StartSatisfied (m : Manager U) (u : U) : Prop :=
  (m.activeState u).isActiveOrReloading = true ∨
    ∃ k, m.metaJob u = some k ∧ jobTypeIsSuperset (m.job k).type .start = true

/-- The stages of a request that was answered with the job `ret`, entered with no transaction under
way: built as `m₁`, merged in the state `m`, applied in the state `m'`. -/
structure Succeeded (E : Units U) (e : Entry U) (ret : JobId) (m1 m m' final : Manager U) : Prop where
  wf : WellFormed e.manager
  quiet : Quiescent e.manager
  admitted : requestRefusal E e.request = none
  build : buildTransaction E e.manager e.request = (m1, .ok ret)
  check : transactionCheck E e.request.mode m1 = (m', .ok ())
  accepted : Accepted E e.request.mode m1 m m'
  applied : (e.request.mode = .isolate -> Undisturbed E m') -> Applied e.request.mode m' final

omit [DecidableEq U] [Fintype U] in
theorem Built.added (built : Built E m request m1) (quiet : Quiescent m) (u : U) (j : JobId)
    (mem : j ∈ m1.chain u) : Asked E m request (m1.job j).type u ∧ (m1.job j).Unmarked := by
  obtain ⟨added, chain, all⟩ := built.growth.chain u
  rw [quiet.chain, append_nil] at chain
  exact all j (chain ▸ mem)

theorem managerAddJob_succeeded {fuel : Nat} {w : World U} (w' : World U) {ret : JobId}
    (wf : WellFormed w.manager) (quiet : Quiescent w.manager)
    (success : managerAddJob E fuel w request = .ok (w', .ok ret)) :
    ∃ m1 m m', Succeeded E ⟨w.manager, request⟩ ret m1 m m' w'.manager := by
  cases fuel with
  | zero =>
    rw [managerAddJob] at success
    cases success
  | succ fuel =>
    rw [managerAddJob] at success
    cases addJobBody_cases success with
    | applied m1 m' _ _ admitted build check applied =>
      obtain ⟨built, _⟩ := buildTransaction_spec wf build
      obtain ⟨m, accepted⟩ := transactionCheck_accepted built.wf
        (fun j mem => (built.added quiet mem.choose j mem.choose_spec).2) check
      refine ⟨m1, m, m', wf, quiet, admitted, build, check, accepted, fun calm => ?_⟩
      exact transactionApply_applied
        (transactionCheck_settled built.wf check) calm applied

namespace Succeeded

variable {E : Units U} {e : Entry U} {ret : JobId} {m1 m m' final : Manager U}

theorem built (stages : Succeeded E e ret m1 m m' final) :
    Built E e.manager e.request m1 ∧ Placed m1 e.request.call ret := by
  obtain ⟨built, placed⟩ := buildTransaction_spec stages.wf stages.build
  exact ⟨built, placed ret rfl⟩

variable {u : U} {j : JobId} {call : AddCall U}

section

variable (stages : Succeeded E e ret m1 m m' final)
include stages

theorem asked (mem : j ∈ m.chain u) : Asked E e.manager e.request (m.job j).type u := by
  obtain ⟨gone, pruned⟩ := stages.accepted.pruned
  rw [(pruned.same j).type]
  exact (stages.built.1.added stages.quiet u j ((pruned.mem_chain u j).mp mem).1).1

theorem metaJob : m.metaJob = e.manager.metaJob := by
  obtain ⟨gone, pruned⟩ := stages.accepted.pruned
  rw [pruned.metaJob, stages.built.1.growth.metaJob]

theorem sameState : m.activeState = e.manager.activeState := by
  obtain ⟨gone, pruned⟩ := stages.accepted.pruned
  rw [pruned.activeState, stages.built.1.growth.activeState]

theorem oldJob {k : JobId} (mem : k ∈ e.manager.jobs) : SameJob (e.manager.job k) (m.job k) := by
  obtain ⟨gone, pruned⟩ := stages.accepted.pruned
  exact (stages.built.1.growth.kept k (stages.wf.jobFresh k mem)).trans (pruned.same k)

theorem applyCall : ApplyCall E e m' :=
  ⟨m1, ret, stages.admitted, stages.build, stages.check⟩

theorem closed : MattersClosed (transactionFindJobsThatMatterToAnchor m1 1) :=
  findJobsThatMatter_closed m1 1 stages.accepted.wf fun j mem =>
    ⟨by simp [(stages.accepted.fresh j mem).1], (stages.accepted.fresh j mem).2.2⟩

theorem anchor (placed : Placed m1 call j) (root : call.requester = none)
    (matters : call.matters = true) :
    jobIsAnchor (transactionFindJobsThatMatterToAnchor m1 1) j = true ∧
      ((transactionFindJobsThatMatterToAnchor m1 1).job j).mattersToAnchor = true := by
  have link := placed.link
  rw [root, matters, ← stages.accepted.wf.marked_links] at link
  refine ⟨(jobIsAnchor_iff _ j).mpr ⟨_, link, rfl, rfl⟩, ?_⟩
  exact stages.closed _ link rfl fun s subject => by cases subject

/-- Nothing takes a job out of the transaction that was asked for from outside. -/
theorem anchor_kept (placed : Placed m1 call j) (root : call.requester = none)
    (matters : call.matters = true) : j ∈ m.chain call.unit ∧ jobIsAnchor m j = true := by
  obtain ⟨gone, dropped, screened⟩ := stages.accepted.screened
  obtain ⟨anchor, matter⟩ := stages.anchor placed root matters
  have kept : j ∉ gone := by
    intro inGone
    rcases screened.spared stages.closed j inGone matter with inDropped | ⟨_, notAnchor⟩
    · have noop := (screened.noop j inDropped).1
      simp [jobIsNoop, anchor] at noop
    · simp [anchor] at notAnchor
  refine ⟨(screened.pruned.mem_chain _ j).mpr ⟨?_, kept⟩, by rw [screened.pruned.jobIsAnchor j kept, anchor]⟩
  rw [stages.accepted.wf.marked_chain]
  exact placed.mem

section

variable (calm : e.request.mode = .isolate -> Undisturbed E m')
include calm

theorem activeState : final.activeState = m.activeState := by
  rw [(stages.applied calm).activeState, stages.accepted.frame.activeState]

-- What becomes of a unit with jobs in the transaction: the merged job is installed, unless that turns
-- out to be redundant.
theorem installed (u : U) (s : JobId) (survivor : mergeSurvivor m (m.chain u) = some s) :
    (¬ DroppedMerged m u s -> final.metaJob u = some s ∧ (final.job s).type = mergedType m u s) ∧
    (DroppedMerged m u s ->
      final.metaJob u = if e.request.mode = .isolate then none else m.metaJob u) := by
  have applied := stages.applied calm
  obtain ⟨type, dropped, kept⟩ := stages.accepted.outcome u s survivor
  refine ⟨fun busy => ⟨applied.placed u s ?_, ?_⟩, fun idle => ?_⟩
  · simp [Manager.transactionGet, kept busy]
  · rw [applied.job s]
    exact type
  · rw [applied.others u (by simp [Manager.transactionGet, dropped idle]), stages.accepted.frame.metaJob]

theorem uninvolved (u : U) (absent : m.chain u = []) :
    final.metaJob u = if e.request.mode = .isolate then none else m.metaJob u := by
  rw [(stages.applied calm).others u (by simp [Manager.transactionGet, stages.accepted.empty u absent]),
    stages.accepted.frame.metaJob]

end

end

omit [DecidableEq U] [Fintype U] in
theorem anchored_busy {s : JobId} (mem : j ∈ m.chain u)
    (anchor : jobIsAnchor m j = true) : ¬ DroppedMerged m u s := by
  intro idle
  simp [idle.1 j mem] at anchor

section

variable (stages : Succeeded E e ret m1 m m' final)
include stages

theorem requested_busy (s : JobId) :
    ret ∈ m.chain e.request.unit ∧ ¬ DroppedMerged m e.request.unit s := by
  obtain ⟨mem, anchor⟩ := stages.anchor_kept stages.built.2 rfl rfl
  exact ⟨mem, anchored_busy mem anchor⟩

theorem not_anchor (ne : u ≠ e.request.unit) (running : ∀ j ∈ m.chain u, (m.job j).type ≠ .stop) :
    ∀ r ∈ m.chain u, jobIsAnchor m r = false := by
  obtain ⟨gone, pruned⟩ := stages.accepted.pruned
  intro r mem
  rw [← Bool.not_eq_true, jobIsAnchor_iff]
  rintro ⟨link, inLinks, rfl, anchor⟩
  rw [pruned.links] at inLinks
  have notStop := running _ mem
  rw [(pruned.same _).type] at notStop
  rcases stages.built.1.anchors link ((m1.mem_without_links gone link).mp inLinks).1 anchor with
    old | ⟨_, unit⟩ | ⟨_, stop⟩
  · simp [stages.quiet.links] at old
  · rw [← (pruned.same _).unit, stages.accepted.wfMerge.chainUnit u _ mem] at unit
    exact ne unit
  · exact notStop stop

theorem root :
    ∃ added, m1.chain e.request.unit = added ++ [ret] ∧
      ∀ j ∈ added, (m1.job j).type ≠ e.request.type := by
  have wf := stages.wf
  have build := stages.build
  have spec := transactionAddJobAndDependencies_spec E
  have valid := callFrom_none E e.manager e.request.call rfl
  have wf1 := spec.wf e.manager e.request.call wf valid
  have placed := spec.placed e.manager e.request.call wf valid
  unfold buildTransaction at build
  cases called : transactionAddJobAndDependencies E e.manager e.request.call with
  | mk m0 outcome =>
    rw [called] at build wf1 placed
    cases outcome with
    | error => cases congrArg Prod.snd build
    | ok job =>
      obtain ⟨same, result⟩ := Prod.mk.inj build
      obtain rfl : job = ret := Except.ok.inj result
      obtain ⟨added, chain, types⟩ := transactionAddJobAndDependencies_root m0 wf valid (stages.quiet.chain _) called
      change m0.chain e.request.unit = added ++ [job] at chain
      by_cases isolate : e.request.mode = .isolate
      · rw [if_pos isolate] at same
        obtain ⟨wf2, growth, _⟩ := transactionAddIsolateJobs_spec E m0 wf1
        rw [same] at wf2 growth
        obtain ⟨more, chain', _⟩ := growth.chain e.request.unit
        have nodup := wf2.chainNodup e.request.unit
        rw [chain'] at nodup
        refine ⟨more ++ added, by rw [chain', chain, append_assoc], fun j mem => ?_⟩
        rcases mem_append.mp mem with new | old
        · have typed := ((placed job rfl).grow wf1 growth).type
          rw [← show (m1.job job).type = e.request.type from typed]
          refine growth.distinct e.request.unit j (by rw [chain']; simp [new]) ?_ job (by simp [chain])
          exact fun inOld => disjoint_of_nodup_append nodup new inOld
        · have inOld : j ∈ m0.chain e.request.unit := by simp [chain, old]
          rw [(growth.kept j (wf1.chainFresh _ j inOld)).type]
          exact types j old
      · rw [if_neg isolate] at same
        subst same
        exact ⟨added, chain, types⟩

end

end Succeeded

end Systemd
