import Systemd.Engine.Calm

set_option autoImplicit false

namespace Systemd

open Relation List

variable {U : Type}

def PulledStart (m : Manager U) (ret : JobId) (u : U) : Prop :=
  ∃ j, ReflTransGen (Needs m) ret j ∧ (m.job j).type = .start ∧ (m.job j).unit = u

-- In the state in which the jobs are merged.
def GivesWay (m : Manager U) (u : U) (k : JobId) : Prop :=
  match (m.job k).type with
  | .stop | .verifyActive => True
  | .start => ∃ j ∈ m.chain u, j ≠ k
  | .reload | .reloadOrStart | .restart | .tryRestart => m.activeState u ≠ .activating

def StartPlaced (m : Manager U) (requested u : U) : Prop :=
  u = requested ∨ (m.activeState u).isActiveOrReloading = true ∨
    ∀ k, m.metaJob u = some k -> GivesWay m u k

/-- The unit's queued job makes way for a start job: unless it is one itself that no verify-active job
joins, or the two merge to a type that is redundant for an activating unit. -/
def YieldsToStart (E : Units U) (m : Manager U) (requested u : U) (k : JobId) : Prop :=
  match (m.job k).type with
  | .stop | .verifyActive => True
  | .start => Insists E m .start requested .verifyActive u
  | .reload | .reloadOrStart | .restart | .tryRestart => m.activeState u ≠ .activating

def StartKept (E : Units U) (m : Manager U) (requested u : U) : Prop :=
  u = requested ∨ (m.activeState u).isActiveOrReloading = true ∨
    ∀ k, m.metaJob u = some k -> YieldsToStart E m requested u k

def StartLost (E : Units U) (m : Manager U) (request : JobRequest U) (u : U) : Prop :=
  u ≠ request.unit ∧ (m.activeState u).isActiveOrReloading = false ∧ ∃ k, m.metaJob u = some k ∧
    ((m.job k).type = .start ∧ ¬ Asked E m request .verifyActive u ∨
      ¬ StartOrStop (m.job k).type ∧ m.activeState u = .activating)

theorem mergedType_start {m : Manager U} (wf : WellFormed m) {u : U}
    (mergeable : chainConflict m u = none) {j s : JobId} (mem : j ∈ m.chain u)
    (start : (m.job j).type = .start) (survivor : mergeSurvivor m (m.chain u) = some s) :
    jobTypeIsSuperset (mergedType m u s) .start = true := by
  unfold mergedType
  by_cases installed : (m.job s).installed = true
  · rw [if_pos installed]
    rw [mergeSurvivor_installed wf survivor installed] at mem
    rw [← mem_singleton.mp mem, start]
    rfl
  · rw [if_neg installed, ← start]
    exact mergeTypeOf_superset mergeable mem

structure StartChain (m : Manager U) (u : U) : Prop where
  wf : WellFormed m
  mergeable : chainConflict m u = none
  types : ∀ j ∈ m.chain u, StartOrStop (m.job j).type
  start : ∃ j ∈ m.chain u, (m.job j).type = .start ∧
    ∀ k, m.metaJob u = some k -> (m.job k).type = .start -> j = k

namespace StartChain

variable {m : Manager U} {u : U}

section

variable (chain : StartChain m u)
include chain

theorem starts : ∀ j ∈ m.chain u, (m.job j).type = .start ∨ (m.job j).type = .verifyActive := by
  intro j mem
  obtain ⟨k, inChain, start, _⟩ := chain.start
  have mergeable := chainConflict_types chain.mergeable j k mem inChain
  rw [start] at mergeable
  rcases chain.types j mem with same | same | same
  · exact .inl same
  · exact .inr same
  · rw [same] at mergeable
    cases mergeable

theorem not_stop : ∀ j ∈ m.chain u, (m.job j).type ≠ .stop := by
  intro j mem stop
  have starts := chain.starts j mem
  simp [stop] at starts

theorem chainType_eq : chainType m u = .start := by
  obtain ⟨j, inChain, start, _⟩ := chain.start
  have superset := chainType_superset chain.mergeable j inChain
  have inside := chainType_closed (fun type => type = .start ∨ type = .verifyActive)
    (by decide) chain.starts (ne_nil_of_mem inChain)
  rw [start] at superset
  rcases inside with same | same
  · exact same
  · rw [same] at superset
    cases superset

theorem dropped_iff (idle : (m.activeState u).isActiveOrReloading = false) {s : JobId}
    (survivor : mergeSurvivor m (m.chain u) = some s)
    (plain : ∀ r ∈ m.chain u, jobIsAnchor m r = false) :
    DroppedMerged m u s ↔ ¬ ∀ k, m.metaJob u = some k -> GivesWay m u k := by
  have wf := chain.wf
  obtain ⟨j, inChain, start, reused⟩ := chain.start
  have inS := mergeSurvivor_mem survivor
  have nonempty := ne_nil_of_mem inChain
  have redundant : jobTypeIsRedundant .start (m.activeState u) = false := idle
  rw [DroppedMerged, and_iff_right plain]
  cases found : m.metaJob u with
  | none =>
    have new : (m.job s).installed = false := by
      by_contra installed
      have := wf.chainInstalled u s inS (by simpa using installed)
      simp [found] at this
    have type : mergedType m u s = .start := by
      simp [mergedType, new, mergeTypeOf_eq nonempty, found, chain.chainType_eq]
    simp [new, type, redundant]
  | some k =>
    have installedK := wf.jobInstalled k (wf.metaJobs u k found).1
    by_cases installed : (m.job s).installed = true
    · have alone := mergeSurvivor_installed wf survivor installed
      obtain rfl : k = s := Option.some.inj (found.symm.trans (wf.chainInstalled u s inS installed))
      rw [alone] at inChain
      obtain rfl := mem_singleton.mp inChain
      have type : mergedType m u j = .start := by simp [mergedType, installed, start]
      simp [installed, type, start, GivesWay, alone, jobTypeIsConflicting]
    · have type : mergedType m u s = (jobTypeMerge .start (m.job k).type).getD .start := by
        simp [mergedType, installed, mergeTypeOf_eq nonempty, found, chain.chainType_eq]
      have ne : s ≠ k := fun same => installed (same ▸ installedK)
      have other : ∃ j ∈ m.chain u, j ≠ k := ⟨s, inS, ne⟩
      simp only [Option.some.injEq, forall_eq', type, installed, Bool.false_eq_true, false_or]
      revert redundant idle
      unfold GivesWay
      cases (m.job k).type <;> cases m.activeState u <;> simp [other, jobTypeMerge, typesMatch,
        jobTypeIsRedundant, jobTypeIsConflicting, UnitActiveState.isActiveOrReloading]

end

end StartChain

variable [DecidableEq U] [Fintype U]

namespace Succeeded

variable {E : Units U} {e : Entry U} {ret : JobId} {m1 m m' final : Manager U}

variable {u : U} {j : JobId}

section

variable (stages : Succeeded E e ret m1 m m' final)
include stages

theorem started (calm : e.request.mode = .isolate -> Undisturbed E m') {s : JobId} (mem : j ∈ m.chain u)
    (start : (m.job j).type = .start) (survivor : mergeSurvivor m (m.chain u) = some s)
    (busy : ¬ DroppedMerged m u s) : StartSatisfied final u := by
  obtain ⟨installed, type⟩ := (stages.installed calm u s survivor).1 busy
  refine .inr ⟨s, installed, ?_⟩
  rw [type]
  exact mergedType_start stages.accepted.wfMerge (stages.accepted.mergeable u) mem start survivor

theorem pulledStart (pulled : PulledStart m1 ret u) :
    ∃ j ∈ m1.chain u, (m1.job j).type = .start ∧
      ((transactionFindJobsThatMatterToAnchor m1 1).job j).mattersToAnchor = true := by
  obtain ⟨built, placed⟩ := stages.built
  obtain ⟨j, path, start, rfl⟩ := pulled
  have links := stages.accepted.wf.marked_links
  have reached : m1.InTransaction j ∧
      ((transactionFindJobsThatMatterToAnchor m1 1).job j).mattersToAnchor = true := by
    clear start
    induction path with
    | refl => exact ⟨⟨_, placed.mem⟩, (stages.anchor placed rfl rfl).2⟩
    | tail _ needs ih =>
      obtain ⟨link, mem, matters, subject, rfl⟩ := needs
      refine ⟨built.wf.linkObject link mem, stages.closed link (links ▸ mem) matters ?_⟩
      intro s same
      rw [subject] at same
      exact Option.some.inj same ▸ ih.2
  exact ⟨j, built.wf.inTransaction_chain reached.1, start, reached.2⟩

theorem dropped_whole (isolate : e.request.mode = .isolate) (mem : j ∈ m1.chain u)
    (matters : ((transactionFindJobsThatMatterToAnchor m1 1).job j).mattersToAnchor = true)
    (gone : j ∉ m.chain u) : jobIsNoop m1 j = true ∧ m.chain u = [] := by
  obtain ⟨deleted, dropped, screened⟩ := stages.accepted.screened
  have inGone := stages.accepted.mem_gone screened mem gone
  rcases screened.spared stages.closed j inGone matters with inDropped | ⟨notIsolate, _⟩
  · exact stages.accepted.redundant_whole screened mem inDropped
  · exact absurd isolate notIsolate

theorem startChain (request : e.request.type = .start) (mem : j ∈ m1.chain u)
    (start : (m1.job j).type = .start) (kept : j ∈ m.chain u) : StartChain m u := by
  obtain ⟨gone, pruned⟩ := stages.accepted.pruned
  have built := stages.built.1
  refine ⟨stages.accepted.wfMerge, stages.accepted.mergeable u, ?_, j, kept, ?_, ?_⟩
  · intro k inChain
    rw [(pruned.same k).type]
    exact asked_startOrStop request
      (built.added stages.quiet u k ((pruned.mem_chain u k).mp inChain).1).1
  · rw [(pruned.same j).type, start]
  · intro k found startK
    rw [pruned.metaJob, built.growth.metaJob] at found
    refine built.growth.reused u j mem (by simp [stages.quiet.chain]) k found ?_
    rw [start, ← startK, (pruned.same k).type]

theorem start_placed_iff (isolate : e.request.mode = .isolate) (request : e.request.type = .start)
    (calm : Undisturbed E m') (pulled : PulledStart m1 ret u) :
    StartSatisfied final u ↔ StartPlaced m e.request.unit u := by
  have quiet : e.request.mode = .isolate -> Undisturbed E m' := fun _ => calm
  have state := stages.activeState quiet
  obtain ⟨gone, pruned⟩ := stages.accepted.pruned
  by_cases requested : u = e.request.unit
  · subst requested
    obtain ⟨mem, _⟩ := stages.requested_busy ret
    obtain ⟨s, survivor⟩ := mergeSurvivor_exists m (ne_nil_of_mem mem)
    have start : (m.job ret).type = .start := by
      rw [(pruned.same ret).type, stages.built.2.type]
      exact request
    exact iff_of_true (stages.started quiet mem start survivor (stages.requested_busy s).2) (.inl rfl)
  by_cases active : (m.activeState u).isActiveOrReloading = true
  · exact iff_of_true (.inl (by rwa [state])) (.inr (.inl active))
  have unsatisfied (nothing : final.metaJob u = none) : ¬ StartSatisfied final u := by
    simp [StartSatisfied, nothing, state, active]
  have kept_iff : StartPlaced m e.request.unit u ↔ ∀ k, m.metaJob u = some k -> GivesWay m u k := by
    simp [StartPlaced, requested, active]
  rw [kept_iff]
  obtain ⟨j, mem, start, matters⟩ := stages.pulledStart pulled
  by_cases kept : j ∈ m.chain u
  · have chain := stages.startChain request mem start kept
    obtain ⟨s, survivor⟩ := mergeSurvivor_exists m (ne_nil_of_mem kept)
    have dropped_iff := chain.dropped_iff (by simpa using active) survivor
      (stages.not_anchor requested chain.not_stop)
    by_cases dropped : DroppedMerged m u s
    · have nothing := (stages.installed quiet u s survivor).2 dropped
      rw [if_pos isolate] at nothing
      exact iff_of_false (unsatisfied nothing) (dropped_iff.mp dropped)
    · refine iff_of_true (stages.started quiet kept ?_ survivor dropped) ?_
      · rw [(pruned.same j).type, start]
      · exact not_not.mp fun refused => dropped (dropped_iff.mpr refused)
  · -- The start job went as redundant, so it is the installed job of its unit.
    obtain ⟨noop, empty⟩ := stages.dropped_whole isolate mem matters kept
    have nothing := stages.uninvolved quiet u empty
    rw [if_pos isolate] at nothing
    refine iff_of_false (unsatisfied nothing) fun yields => ?_
    have unit : (m1.job j).unit = u := stages.accepted.wf.chainUnit u j mem
    have installed : (m1.job j).installed = true := by
      rw [pruned.activeState] at active
      simp only [UnitActiveState.isActiveOrReloading, Bool.not_eq_true] at active
      simp only [jobIsNoop, start, unit, jobTypeIsRedundant, active, Bool.or_false,
        Bool.and_eq_true] at noop
      exact noop.1.2
    have found := stages.accepted.wf.chainInstalled u j mem installed
    rw [← pruned.metaJob] at found
    have yielding := yields j found
    simp [GivesWay, (pruned.same j).type, start, empty] at yielding

theorem kept_placed (isolate : e.request.mode = .isolate)
    (kept : StartKept E e.manager e.request.unit u) : StartPlaced m e.request.unit u := by
  obtain ⟨start, requirements⟩ := stages.isolating isolate
  obtain ⟨_, pruned⟩ := stages.accepted.pruned
  rcases kept with requested | active | yields
  · exact .inl requested
  · exact .inr (.inl (by rwa [stages.sameState]))
  · refine .inr (.inr fun k found => ?_)
    rw [stages.metaJob] at found
    have here := yields k found
    have type := (stages.oldJob (stages.wf.metaJobs u k found).1).type
    unfold YieldsToStart at here
    unfold GivesWay
    rw [type, stages.sameState]
    revert here
    cases queued : (e.manager.job k).type <;> intro here <;> try exact here
    obtain ⟨j, mem, verify⟩ := stages.insists_kept requirements (stages.requested_busy ret).1
      (((pruned.same ret).type.trans stages.built.2.type).trans start) here
    refine ⟨j, mem, ?_⟩
    rintro rfl
    rw [type, queued] at verify
    cases verify

theorem lost_unplaced (isolate : e.request.mode = .isolate) (pulled : PulledStart m1 ret u)
    (lost : StartLost E e.manager e.request u) : ¬ StartPlaced m e.request.unit u := by
  obtain ⟨ne, idle, k, found, why⟩ := lost
  have type := (stages.oldJob (stages.wf.metaJobs u k found).1).type
  have here : m.metaJob u = some k := by rw [stages.metaJob, found]
  rintro (requested | active | yields)
  · exact ne requested
  · rw [stages.sameState, idle] at active
    cases active
  · have yields := yields k here
    rcases why with ⟨queued, unverified⟩ | ⟨reloads, activating⟩
    · simp only [GivesWay, type, queued] at yields
      obtain ⟨j, mem, other⟩ := yields
      obtain ⟨l, inChain, start, matters⟩ := stages.pulledStart pulled
      have kept : l ∈ m.chain u := by
        by_contra gone
        obtain ⟨_, empty⟩ := stages.dropped_whole isolate inChain matters gone
        simp [empty] at mem
      have chain := stages.startChain (stages.isolating isolate).1 inChain start kept
      rcases chain.starts j mem with same | verify
      · obtain ⟨_, pruned⟩ := stages.accepted.pruned
        have built := stages.built.1.growth
        refine other (built.reused u j ((pruned.mem_chain u j).mp mem).1
          (by simp [stages.quiet.chain]) k found ?_)
        rw [← (pruned.same j).type, ← (pruned.same k).type, same, type, queued]
      · exact unverified (verify ▸ stages.asked mem)
    · unfold GivesWay at yields
      rw [type, stages.sameState, activating] at yields
      revert reloads yields
      cases (e.manager.job k).type <;> simp [StartOrStop]

end

end Succeeded

-- The first unit requires the second.
def requiredUnit : Units (Fin 2) :=
  loadedUnits 2 fun kind u =>
    match kind with
    | .requires => if u = 0 then [1] else []
    | .requiredBy => if u = 1 then [0] else []
    | _ => []

def isolateFirst : JobRequest (Fin 2) := ⟨.start, 0, .isolate, false⟩

-- In the state the request finds, its job comes to need a start job of the second unit.
def pullsSecond (m : Manager (Fin 2)) : Bool :=
  (buildTransaction requiredUnit m isolateFirst).2.toOption.any fun ret =>
    let m1 := (buildTransaction requiredUnit m isolateFirst).1
    m1.links.any fun link => link.matters && link.subject = some ret &&
      (m1.job link.object).type = .start && (m1.job link.object).unit = 1

theorem pulledStart_of_pullsSecond {m m1 : Manager (Fin 2)} {ret : JobId}
    (build : buildTransaction requiredUnit m isolateFirst = (m1, .ok ret))
    (pulls : pullsSecond m = true) : PulledStart m1 ret 1 := by
  simp only [pullsSecond, build, Except.toOption, Option.any_some, any_eq_true,
    Bool.and_eq_true, decide_eq_true_eq] at pulls
  obtain ⟨link, mem, ⟨⟨matters, subject⟩, start⟩, unit⟩ := pulls
  exact ⟨link.object, .single ⟨link, mem, matters, subject, rfl⟩, start, unit⟩

end Systemd
