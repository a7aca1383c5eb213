import Systemd.Engine.Accepted
import Systemd.Engine.Pulls

set_option autoImplicit false

namespace Systemd

open List Option

variable {U : Type}

def NewStart (m m' : Manager U) (u : U) : Prop :=
  ∃ j, m'.metaJob u = some j ∧ (m'.job j).type = .start ∧ j ∉ m.jobs

-- In the state in which the jobs are merged.
def MergedAway (m : Manager U) (requested u : U) : Prop :=
  u ≠ requested ∧ m.activeState u = .activating ∧ mergeTypeOf m u ≠ .start ∧
    ∀ k, m.metaJob u = some k -> (m.job k).type ≠ .stop

def StartHeld (m : Manager U) (requested u : U) : Prop :=
  (m.activeState u).isActiveOrReloading = true ∨
    (∃ k, m.metaJob u = some k ∧ jobTypeIsSuperset (m.job k).type .start = true ∧
      ∀ j ∈ m.chain u, (m.job j).type ≠ .stop) ∨
    (∃ j ∈ m.chain u, jobTypeIsSuperset (m.job j).type .start = true) ∧
      ¬ MergedAway m requested u

theorem merged_start_iff (chain installed : JobType) (state : UnitActiveState) (anchored : Bool)
    (running : chain ≠ .stop) (idle : state.isActiveOrReloading = false) (merged : JobType)
    (result : merged = (jobTypeMerge chain installed).getD chain) (redundant : Prop)
    (redundant_iff : redundant ↔ anchored = false ∧ jobTypeIsRedundant merged state = true ∧
      jobTypeIsConflicting merged installed = false) :
    redundant ∧ jobTypeIsSuperset installed .start = true ∨
        ¬ redundant ∧ jobTypeIsSuperset merged .start = true ↔
      jobTypeIsSuperset installed .start = true ∨
        jobTypeIsSuperset chain .start = true ∧
          ¬ (anchored = false ∧ state = .activating ∧ merged ≠ .start ∧ installed ≠ .stop) := by
  subst result
  rw [redundant_iff]
  clear redundant_iff
  revert chain installed state anchored
  decide

theorem lone_start_iff (chain : JobType) (state : UnitActiveState) (anchored : Bool)
    (idle : state.isActiveOrReloading = false) (redundant : Prop)
    (redundant_iff : redundant ↔ anchored = false ∧ jobTypeIsRedundant chain state = true) :
    ¬ redundant ∧ jobTypeIsSuperset chain .start = true ↔
      jobTypeIsSuperset chain .start = true ∧
        ¬ (anchored = false ∧ state = .activating ∧ chain ≠ .start) := by
  rw [redundant_iff]
  clear redundant_iff
  revert chain state anchored
  decide

variable {u : U} {m : Manager U}

theorem chainType_start_iff (mergeable : chainConflict m u = none) (nonempty : m.chain u ≠ [])
    (running : ∀ j ∈ m.chain u, (m.job j).type ≠ .stop) :
    jobTypeIsSuperset (chainType m u) .start = true ↔
      ∃ j ∈ m.chain u, jobTypeIsSuperset (m.job j).type .start = true := by
  constructor
  · intro start
    by_contra none
    simp only [not_exists, not_and] at none
    have small := chainType_closed
      (fun type => type ≠ .stop ∧ ¬ jobTypeIsSuperset type .start = true) (by decide)
      (fun j mem => ⟨running j mem, none j mem⟩) nonempty
    exact small.2 start
  · rintro ⟨j, mem, start⟩
    exact jobTypeIsSuperset_trans _ _ _ (chainType_superset mergeable j mem) start

variable (type : JobType)

theorem jobTypeMerge_stop : (jobTypeMerge .stop type).getD .stop = .stop := by
  revert type
  decide

theorem jobTypeMerge_verifyActive
    (start : (jobTypeMerge .verifyActive type).getD .verifyActive = .start) : type = .start := by
  revert type
  decide

theorem jobTypeIsSuperset_start (smaller : jobTypeIsSuperset .start type = true) :
    type = .start ∨ type = .verifyActive := by
  revert type
  decide

theorem chain_stops (mergeable : chainConflict m u = none) {r : JobId} (mem : r ∈ m.chain u)
    (stop : (m.job r).type = .stop) : ∀ j ∈ m.chain u, (m.job j).type = .stop := by
  intro j inChain
  have merges := chainConflict_types mergeable j r inChain mem
  rw [stop, jobTypeIsMergeable_iff] at merges
  simpa [jobTypeIsConflicting] using merges

theorem Required.strict {E : Units U} {v : U} (required : Required E v u) :
    Strict E .start v .start u := by
  rcases required with requires | bound
  · exact .pull .start v true ⟨.dependency .requires, .start, true, true, false, false⟩ u (by simp [pulls]) rfl
      requires
  · exact .pull .start v true ⟨.dependency .bindTo, .start, true, true, false, false⟩ u (by simp [pulls]) rfl bound

theorem Required.accepted {E : Units U} {v : U} (required : Required E v u)
    (meetable : ¬ Unmeetable E .start v) : refusal E .start u = none := by
  by_contra refused
  obtain ⟨e, refused⟩ := ne_none_iff_exists'.mp refused
  exact meetable (.strict _ _ _ _ required.strict (.refused _ _ e refused (refusal_errno E u e refused)))

def StartOrStop (type : JobType) : Prop :=
  type = .start ∨ type = .verifyActive ∨ type = .stop

variable [DecidableEq U] [Fintype U]

/-- The unit has a start job queued, and the request has it verified that the unit is up: the two merge to
a start job whose requirements nobody has looked at. -/
def CarriedOver (E : Units U) (m : Manager U) (request : JobRequest U) (v : U) : Prop :=
  (∃ k, m.metaJob v = some k ∧ (m.job k).type = .start) ∧ Asked E m request .verifyActive v

/-- The unit is starting already, and a start job for it merges to a type that is redundant then. -/
def Overtaken (E : Units U) (m : Manager U) (request : JobRequest U) (u : U) : Prop :=
  u ≠ request.unit ∧ m.activeState u = .activating ∧
    (∀ k, m.metaJob u = some k -> (m.job k).type ≠ .stop) ∧
      ∃ type, ¬ StartOrStop type ∧
        (Asked E m request type u ∨ ∃ k, m.metaJob u = some k ∧ (m.job k).type = type)

def Secured (E : Units U) (m : Manager U) (request : JobRequest U) (v u : U) : Prop :=
  StartSatisfied m u ∧ ¬ Asked E m request .stop u ∨
    ¬ Unmeetable E .start v ∧ ¬ CarriedOver E m request v ∧ ¬ Overtaken E m request u

def Forsaken (E : Units U) (m : Manager U) (request : JobRequest U) (u : U) : Prop :=
  ¬ StartSatisfied m u ∧
    ((∀ type, Asked E m request type u -> jobTypeIsSuperset type .start = false) ∨
      u ≠ request.unit ∧ m.activeState u = .activating ∧
        ∃ k, m.metaJob u = some k ∧ ((m.job k).type = .reload ∨ (m.job k).type = .tryRestart))

theorem transactionAddIsolateJobs_linked (E : Units U) {m0 : Manager U} (wf : WellFormed m)
    (new : NewLinked E m0 m) : NewLinked E m0 (transactionAddIsolateJobs E m) := by
  refine (List.foldlRecOn (motive := fun m => WellFormed m ∧ NewLinked E m0 m) E.units (isolateStep E)
    ⟨wf, new⟩ ?_).2
  rintro m ⟨wf, new⟩ u -
  by_cases stops : isolateStops m E u = true
  · simp only [isolateStep, stops, if_true]
    have spec := transactionAddJobAndDependencies_spec E
    have valid := callFrom_none E m (isolateCall u) rfl
    exact ⟨spec.wf m _ wf valid, new.trans wf (spec.growth m _ wf valid)
      (transactionAddJobAndDependencies_meets E m _ wf valid rfl).1⟩
  · simpa [isolateStep, stops] using And.intro wf new

namespace Succeeded

variable {E : Units U} {e : Entry U} {ret : JobId} {m1 m m' final : Manager U}

variable {u v : U} {s : JobId}

section

variable (stages : Succeeded E e ret m1 m m' final)
include stages

section

variable (keeping : e.request.mode ≠ .isolate)
include keeping

section

variable (idle : (m.activeState u).isActiveOrReloading = false)
include idle

theorem keeping_iff (kept : final.metaJob u = m.metaJob u) :
    StartSatisfied final u ↔
      ∃ k, m.metaJob u = some k ∧ jobTypeIsSuperset (m.job k).type .start = true := by
  have calm : e.request.mode = .isolate -> Undisturbed E m' := fun isolate => absurd isolate keeping
  have wf := stages.accepted.wfMerge
  unfold StartSatisfied
  rw [stages.activeState calm, idle, kept]
  simp only [Bool.false_eq_true, false_or]
  refine exists_congr fun k => and_congr_right fun found => ?_
  have installed := wf.jobInstalled k (wf.metaJobs u k found).1
  have type : (final.job k).type = (m.job k).type := by
    rw [(stages.applied calm).job k]
    exact (stages.accepted.frame.kept k installed).1.type
  rw [type]

theorem satisfied_iff (survivor : mergeSurvivor m (m.chain u) = some s) :
    StartSatisfied final u ↔
      DroppedMerged m u s ∧
        (∃ k, m.metaJob u = some k ∧ jobTypeIsSuperset (m.job k).type .start = true) ∨
      ¬ DroppedMerged m u s ∧ jobTypeIsSuperset (mergedType m u s) .start = true := by
  have calm : e.request.mode = .isolate -> Undisturbed E m' := fun isolate => absurd isolate keeping
  obtain ⟨placed, kept⟩ := stages.installed calm u s survivor
  by_cases redundant : DroppedMerged m u s
  · have same := kept redundant
    rw [if_neg keeping] at same
    rw [stages.keeping_iff keeping idle same]
    simp [redundant]
  · obtain ⟨metaJob, type⟩ := placed redundant
    unfold StartSatisfied
    rw [stages.activeState calm, idle, metaJob, ← type]
    simp [redundant]

theorem stopping_iff {r : JobId} (mem : r ∈ m.chain u) (stop : (m.job r).type = .stop) :
    StartSatisfied final u ↔ StartHeld m e.request.unit u := by
  have nonempty := ne_nil_of_mem mem
  have stops := chain_stops (stages.accepted.mergeable u) mem stop
  obtain ⟨s, survivor⟩ := mergeSurvivor_exists m nonempty
  have merged : mergedType m u s = .stop := by
    have chain := chainType_closed (fun type => type = .stop) (by decide) stops nonempty
    unfold mergedType
    split
    · exact stops s (mergeSurvivor_mem survivor)
    · rw [mergeTypeOf_eq nonempty, chain]
      cases found : m.metaJob u with
      | none => rfl
      | some k => exact jobTypeMerge_stop _
  rw [stages.satisfied_iff keeping idle survivor, merged]
  refine iff_of_false ?_ ?_
  · rintro (⟨redundant, k, found, start⟩ | ⟨_, start⟩)
    · have same := redundant.2.2 k found
      rw [merged] at same
      cases type : (m.job k).type <;> simp [type, jobTypeIsConflicting, jobTypeIsSuperset] at same start
    · cases start
  · rintro (active | ⟨k, _, _, running⟩ | ⟨⟨j, inChain, start⟩, _⟩)
    · simp [idle] at active
    · exact running r mem stop
    · rw [stops j inChain] at start
      cases start

theorem reusing_iff (running : ∀ j ∈ m.chain u, (m.job j).type ≠ .stop)
    (survivor : mergeSurvivor m (m.chain u) = some s) (installed : (m.job s).installed = true) :
    StartSatisfied final u ↔ StartHeld m e.request.unit u := by
  have wf := stages.accepted.wfMerge
  have alone := mergeSurvivor_installed wf survivor installed
  have found := wf.chainInstalled u s (mergeSurvivor_mem survivor) installed
  have either : StartSatisfied final u ↔ jobTypeIsSuperset (m.job s).type .start = true := by
    rw [stages.satisfied_iff keeping idle survivor, mergedType, if_pos installed]
    by_cases redundant : DroppedMerged m u s <;> simp [redundant, found]
  rw [either]
  constructor
  · exact fun start => .inr (.inl ⟨s, found, start, running⟩)
  · rintro (active | ⟨k, same, start, _⟩ | ⟨⟨j, inChain, start⟩, _⟩)
    · simp [idle] at active
    · rwa [← some.inj (found.symm.trans same)] at start
    · rw [alone] at inChain
      rwa [mem_singleton.mp inChain] at start

end

end

theorem dropped_iff (running : ∀ j ∈ m.chain u, (m.job j).type ≠ .stop)
    (new : (m.job s).installed = false) :
    DroppedMerged m u s ↔ u ≠ e.request.unit ∧
      jobTypeIsRedundant (mergeTypeOf m u) (m.activeState u) = true ∧
      ∀ k, m.metaJob u = some k -> jobTypeIsConflicting (mergeTypeOf m u) (m.job k).type = false := by
  have merged : mergedType m u s = mergeTypeOf m u := by simp [mergedType, new]
  constructor
  · intro dropped
    refine ⟨?_, ?_, ?_⟩
    · rintro rfl
      exact (stages.requested_busy s).2 dropped
    · simpa [new, merged] using dropped.2.1
    · simpa [merged] using dropped.2.2
  · rintro ⟨ne, redundant, agrees⟩
    exact ⟨stages.not_anchor ne running, .inr (merged ▸ redundant), merged ▸ agrees⟩

section

variable (keeping : e.request.mode ≠ .isolate)
include keeping

theorem merging_iff (idle : (m.activeState u).isActiveOrReloading = false)
    (running : ∀ j ∈ m.chain u, (m.job j).type ≠ .stop)
    (survivor : mergeSurvivor m (m.chain u) = some s) (new : (m.job s).installed = false) :
    StartSatisfied final u ↔ StartHeld m e.request.unit u := by
  have nonempty := ne_nil_of_mem (mergeSurvivor_mem survivor)
  have merged : mergedType m u s = mergeTypeOf m u := by simp [mergedType, new]
  have starts := chainType_start_iff (stages.accepted.mergeable u) nonempty running
  have dropped_iff := stages.dropped_iff running new
  have typeOf := mergeTypeOf_eq nonempty
  unfold StartHeld MergedAway
  rw [stages.satisfied_iff keeping idle survivor, merged, ← starts, idle]
  cases found : m.metaJob u with
  | none =>
    have key := lone_start_iff (chainType m u) (m.activeState u) (decide (u = e.request.unit)) idle
      (DroppedMerged m u s) (by simp [dropped_iff, typeOf, found])
    simpa [typeOf, found] using key
  | some k =>
    have notStop := chainType_closed (fun type => type ≠ .stop) (by decide) running nonempty
    have key := merged_start_iff (chainType m u) (m.job k).type (m.activeState u)
      (decide (u = e.request.unit)) notStop idle (mergeTypeOf m u) (by simp [typeOf, found])
      (DroppedMerged m u s) (by simp [dropped_iff, found])
    simp only [some.injEq, exists_eq_left', key]
    simp +contextual [running]

theorem held_iff (u : U) : StartSatisfied final u ↔ StartHeld m e.request.unit u := by
  have calm : e.request.mode = .isolate -> Undisturbed E m' := fun isolate => absurd isolate keeping
  by_cases active : (m.activeState u).isActiveOrReloading = true
  · exact iff_of_true (.inl (by rwa [stages.activeState calm])) (.inl active)
  have idle : (m.activeState u).isActiveOrReloading = false := by simpa using active
  by_cases empty : m.chain u = []
  · have kept := stages.uninvolved calm u empty
    rw [if_neg keeping] at kept
    rw [stages.keeping_iff keeping idle kept]
    simp [StartHeld, idle, empty]
  obtain ⟨s, survivor⟩ := mergeSurvivor_exists m empty
  by_cases stops : ∃ r ∈ m.chain u, (m.job r).type = .stop
  · obtain ⟨r, mem, stop⟩ := stops
    exact stages.stopping_iff keeping idle mem stop
  simp only [not_exists, not_and] at stops
  by_cases installed : (m.job s).installed = true
  · exact stages.reusing_iff keeping idle stops survivor installed
  · exact stages.merging_iff keeping idle stops survivor (by simpa using installed)

theorem newStart_chain (new : NewStart e.manager final v) :
    (∃ j ∈ m.chain v, (m.job j).type = .start) ∨
      (∃ j ∈ m.chain v, (m.job j).type = .verifyActive) ∧
        ∃ k, m.metaJob v = some k ∧ (m.job k).type = .start := by
  have calm : e.request.mode = .isolate -> Undisturbed E m' := fun isolate => absurd isolate keeping
  obtain ⟨s, found, start, fresh⟩ := new
  obtain ⟨gone, pruned⟩ := stages.accepted.pruned
  have wf := stages.accepted.wfMerge
  have jobs : m.jobs = e.manager.jobs := pruned.jobs.trans stages.built.1.growth.jobs
  have changed : final.metaJob v ≠ m.metaJob v := by
    intro same
    rw [found] at same
    exact fresh (jobs ▸ (wf.metaJobs v s same.symm).1)
  have nonempty : m.chain v ≠ [] := by
    intro empty
    have kept := stages.uninvolved calm v empty
    rw [if_neg keeping] at kept
    exact changed kept
  obtain ⟨t, survivor⟩ := mergeSurvivor_exists m nonempty
  obtain ⟨busy, dropped⟩ := stages.installed calm v t survivor
  rw [if_neg keeping] at dropped
  obtain ⟨placed, type⟩ := busy fun redundant => changed (dropped redundant)
  obtain rfl := some.inj (found.symm.trans placed)
  have notInstalled : (m.job s).installed = false := by
    by_contra installed
    have old := wf.chainInstalled v s (mergeSurvivor_mem survivor) (by simpa using installed)
    exact fresh (jobs ▸ (wf.metaJobs v s old).1)
  rw [start, mergedType, if_neg (by simp [notInstalled])] at type
  by_cases starts : ∃ j ∈ m.chain v, (m.job j).type = .start
  · exact .inl starts
  · simp only [not_exists, not_and] at starts
    have verify : ∀ j ∈ m.chain v, (m.job j).type = .verifyActive := by
      intro j mem
      have smaller := mergeTypeOf_superset (stages.accepted.mergeable v) mem
      have ne := starts j mem
      rw [← type] at smaller
      exact (jobTypeIsSuperset_start _ smaller).resolve_left ne
    obtain ⟨first, inChain⟩ := exists_mem_of_ne_nil _ nonempty
    refine .inr ⟨⟨first, inChain, verify first inChain⟩, ?_⟩
    have chain := chainType_closed (fun type => type = .verifyActive) (by decide) verify nonempty
    rw [mergeTypeOf_eq nonempty, chain] at type
    cases metaJob : m.metaJob v with
    | none => simp [metaJob] at type
    | some k =>
      rw [metaJob] at type
      exact ⟨k, rfl, jobTypeMerge_verifyActive _ type.symm⟩

end

theorem held_of_linked {j : JobId} (mem : j ∈ m.chain v) (start : (m1.job j).type = .start)
    (meetable : ¬ Unmeetable E .start v) (linked : Linked E m1 j) (required : Required E v u)
    (current : (∃ k ∈ m.chain u, (m.job k).type = .start) -> ¬ MergedAway m e.request.unit u) :
    StartHeld m e.request.unit u := by
  obtain ⟨gone, dropped, screened⟩ := stages.accepted.screened
  obtain ⟨_, pruned⟩ := stages.accepted.pruned
  have unit : (m1.job j).unit = v := by
    rw [← (pruned.same j).unit, stages.accepted.wfMerge.chainUnit v j mem]
  obtain ⟨k, inChain, startK, needs⟩ := linked .start u (by rw [start, unit]; exact required.strict)
    (required.accepted meetable)
  by_cases kept : k ∈ m.chain u
  · have startHere : (m.job k).type = .start := by rw [(pruned.same k).type, startK]
    refine .inr (.inr ⟨⟨k, kept, ?_⟩, current ⟨k, kept, startHere⟩⟩)
    rw [startHere]
    rfl
  have inDropped : k ∈ dropped := by
    by_contra notDropped
    have needed : Needs (transactionFindJobsThatMatterToAnchor m1 1) j k := by
      simpa only [Needs, stages.accepted.wf.marked_links] using needs
    have inGone := screened.needs j k needed (stages.accepted.mem_gone screened inChain kept) notDropped
    exact ((screened.pruned.mem_chain v j).mp mem).2 inGone
  obtain ⟨noop, empty⟩ := stages.accepted.redundant_whole screened inChain inDropped
  simp only [jobIsNoop, Bool.and_eq_true, Bool.or_eq_true] at noop
  rcases noop.1.2 with installed | redundant
  · have found := stages.accepted.wf.chainInstalled u k inChain installed
    refine .inr (.inl ⟨k, (congrFun pruned.metaJob u).trans found, ?_, by simp [empty]⟩)
    rw [(pruned.same k).type, startK]
    rfl
  · rw [startK, stages.accepted.wf.chainUnit u k inChain] at redundant
    refine .inl ?_
    rw [pruned.activeState]
    exact redundant

theorem not_mergedAway (current : ¬ Overtaken E e.manager e.request u)
    (starts : ∃ k ∈ m.chain u, (m.job k).type = .start) : ¬ MergedAway m e.request.unit u := by
  rintro ⟨ne, activating, other, notStop⟩
  obtain ⟨k, mem, start⟩ := starts
  rw [stages.sameState] at activating
  rw [stages.metaJob] at notStop
  have plain (type : JobType) (known : Asked E e.manager e.request type u ∨
      ∃ k, e.manager.metaJob u = some k ∧ (e.manager.job k).type = type) : StartOrStop type := by
    by_contra reloads
    refine current ⟨ne, activating, fun k found stop => notStop k found ?_, type, reloads, known⟩
    rw [(stages.oldJob (stages.wf.metaJobs u k found).1).type, stop]
  have chain : ∀ j ∈ m.chain u, (m.job j).type = .start ∨ (m.job j).type = .verifyActive := by
    intro j inChain
    have mergeable := chainConflict_types (stages.accepted.mergeable u) j k inChain mem
    rw [start] at mergeable
    rcases plain _ (.inl (stages.asked inChain)) with same | same | same
    · exact .inl same
    · exact .inr same
    · rw [same] at mergeable
      cases mergeable
  have merged : chainType m u = .start := by
    have superset := chainType_superset (stages.accepted.mergeable u) k mem
    rw [start] at superset
    have inside := chainType_closed (fun type => type = .start ∨ type = .verifyActive) (by decide) chain
      (ne_nil_of_mem mem)
    rcases inside with same | same
    · exact same
    · rw [same] at superset
      cases superset
  refine other ?_
  rw [mergeTypeOf_eq (ne_nil_of_mem mem), merged, stages.metaJob]
  cases found : e.manager.metaJob u with
  | none => rfl
  | some k =>
    have same := (stages.oldJob (stages.wf.metaJobs u k found).1).type
    rcases plain (m.job k).type (.inr ⟨k, found, same.symm⟩) with type | type | type
    · simp [type, jobTypeMerge]
    · simp [type, jobTypeMerge, typesMatch]
    · exact absurd type (notStop k found)

theorem linked (requirements : e.request.call.ignoreRequirements = false) {j : JobId}
    (mem : j ∈ m1.chain v) (meetable : ¬ Unmeetable E (m1.job j).type v) : Linked E m1 j := by
  have build := stages.build
  unfold buildTransaction at build
  have valid := callFrom_none E e.manager e.request.call rfl
  have spec := transactionAddJobAndDependencies_spec E
  have wf0 := spec.wf e.manager e.request.call stages.wf valid
  have new0 := (transactionAddJobAndDependencies_meets E e.manager e.request.call stages.wf valid requirements).1
  cases called : transactionAddJobAndDependencies E e.manager e.request.call with
  | mk m0 outcome =>
    rw [called] at build wf0 new0
    cases outcome with
    | error => cases congrArg Prod.snd build
    | ok job =>
      obtain rfl : (if e.request.mode = .isolate then transactionAddIsolateJobs E m0 else m0) = m1 :=
        congrArg Prod.fst build
      have new : NewLinked E e.manager
          (if e.request.mode = .isolate then transactionAddIsolateJobs E m0 else m0) := by
        split
        · exact transactionAddIsolateJobs_linked E wf0 new0
        · exact new0
      exact new v j mem (by simp [stages.quiet.chain]) meetable

/-- What a start job newly installed requires is up or gets a start job; and it stays down where no
start is asked for it, or where its queued reload swallows that start. -/
theorem secured_held (mode : e.request.mode = .fail ∨ e.request.mode = .replace)
    (new : NewStart e.manager final v) (required : Required E v u)
    (secured : Secured E e.manager e.request v u) : StartHeld m e.request.unit u := by
  have keeping : e.request.mode ≠ .isolate := by
    rcases mode with same | same <;> simp [same]
  have requirements : e.request.call.ignoreRequirements = false := by
    rcases mode with same | same <;> simp [JobRequest.call, same]
  rcases secured with ⟨up | ⟨k, found, start⟩, spared⟩ | ⟨meetable, fresh, current⟩
  · exact .inl (by rwa [stages.sameState])
  · refine .inr (.inl ⟨k, by rw [stages.metaJob, found], ?_, fun j mem stop => spared ?_⟩)
    · rwa [(stages.oldJob (stages.wf.metaJobs u k found).1).type]
    · exact stop ▸ stages.asked mem
  · have started : ∃ j ∈ m.chain v, (m.job j).type = .start := by
      refine (stages.newStart_chain keeping new).resolve_right ?_
      rintro ⟨⟨j, mem, verify⟩, k, found, start⟩
      rw [stages.metaJob] at found
      rw [(stages.oldJob (stages.wf.metaJobs v k found).1).type] at start
      exact fresh ⟨⟨k, found, start⟩, verify ▸ stages.asked mem⟩
    obtain ⟨j, mem, start⟩ := started
    obtain ⟨gone, pruned⟩ := stages.accepted.pruned
    rw [(pruned.same j).type] at start
    have linked := stages.linked requirements ((pruned.mem_chain v j).mp mem).1 (start ▸ meetable)
    exact stages.held_of_linked mem start meetable linked required (stages.not_mergedAway current)

theorem forsaken_unheld (forsaken : Forsaken E e.manager e.request u) :
    ¬ StartHeld m e.request.unit u := by
  obtain ⟨unmet, why⟩ := forsaken
  rintro (up | ⟨k, found, start, _⟩ | ⟨⟨j, mem, start⟩, current⟩)
  · exact unmet (.inl (by rwa [stages.sameState] at up))
  · rw [stages.metaJob] at found
    rw [(stages.oldJob (stages.wf.metaJobs u k found).1).type] at start
    exact unmet (.inr ⟨k, found, start⟩)
  · rcases why with nobody | ⟨ne, activating, k, found, reloads⟩
    · rw [nobody _ (stages.asked mem)] at start
      cases start
    · have type := (stages.oldJob (stages.wf.metaJobs u k found).1).type
      refine current ⟨ne, by rw [stages.sameState, activating], ?_, fun l found' => ?_⟩
      · rw [mergeTypeOf_eq (ne_nil_of_mem mem), stages.metaJob, found]
        change (jobTypeMerge (chainType m u) (m.job k).type).getD (chainType m u) ≠ .start
        rw [type]
        generalize chainType m u = chain
        revert chain
        rcases reloads with same | same <;> rw [same] <;> decide
      · rw [stages.metaJob, found] at found'
        rw [← some.inj found', type]
        rcases reloads with same | same <;> simp [same]

end

end Succeeded

-- The first unit wants the second, which requires the third.
def wantedRequirement (masked : Bool) : Units (Fin 3) :=
  { loadedUnits 3 (fun kind u =>
      match kind with
      | .wants => if u = 0 then [1] else []
      | .wantedBy => if u = 1 then [0] else []
      | .requires => if u = 1 then [2] else []
      | .requiredBy => if u = 2 then [1] else []
      | _ => []) with
    loadState := fun u => if masked && u = 2 then .masked else .loaded }

end Systemd
