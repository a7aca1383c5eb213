import Mathlib.Algebra.Order.BigOperators.Group.Finset
import Systemd.Engine.FailureClosure
import Systemd.Engine.Superseded

set_option autoImplicit false

namespace Systemd

open Loop Relation List Option Function

variable {U : Type}

def clearTurns [DecidableEq U] [Fintype U] (E : Units U) (fuel : Nat) : Nat -> World U -> Except Fault (World U)
  | 0, _ => .error .fuel
  | turns + 1, w =>
    match w.manager.jobs.head? with
    | none => .ok w
    | some j => do
      let w ← jobFinishAndInvalidate E fuel w j .canceled
      clearTurns E fuel turns w

def managerClearJobs [DecidableEq U] [Fintype U] (E : Units U) (fuel : Nat) (w : World U) :
    Except Fault (World U) :=
  clearTurns E fuel fuel (w.set (transactionAbort w.manager))

def FailsNext (E : Units U) (type : JobType) (u : U) (job : Job U) : Prop :=
  job.type.isStartLike = true ∧
    (type.isStartLike = true ∧
        (job.unit ∈ E.dependencies .requiredBy u ∨ job.unit ∈ E.dependencies .boundBy u ∨
          job.unit ∈ E.dependencies .requiredByOverridable u ∧ job.override = false) ∨
      type = .stop ∧ job.unit ∈ E.dependencies .conflictedBy u)

def Dependent (E : Units U) (m : Manager U) (a k : JobId) : Prop :=
  m.metaJob (m.job k).unit = some k ∧ FailsNext E (m.job a).type (m.job a).unit (m.job k)

/-- No unit with OnFailure= has a job that fails along with one that stands before it in the table. -/
def Spares (E : Units U) (m : Manager U) : Prop :=
  m.jobs.Pairwise fun j k => TransGen (Dependent E m) j k -> E.dependencies .onFailure (m.job k).unit = []

def Starts (m : Manager U) (u : U) : Prop :=
  ∃ k, m.metaJob u = some k ∧ (m.job k).type.isStartLike = true

def CanFail (E : Units U) (u : U) : Prop :=
  ∃ v, u ∈ E.dependencies .requiredBy v ∨ u ∈ E.dependencies .boundBy v ∨
    u ∈ E.dependencies .requiredByOverridable v ∨ u ∈ E.dependencies .conflictedBy v

def onFailureRequest (E : Units U) (u other : U) : JobRequest U where
  type := .start
  unit := other
  mode := if E.onFailureIsolate u then .isolate else .replace
  override := true

def Reinstalls (E : Units U) (u v : U) : Prop :=
  CanFail E u ∧ ∃ other ∈ E.dependencies .onFailure u, ∃ type, type.isStartLike = true ∧
    Brought E (onFailureRequest E u other).call type v

/-- What follows from a failure of the job of `u` comes to an end, whatever other jobs there are: along
OnFailure= one does not come back, nor to a unit that isolates. -/
inductive Fades (E : Units U) : U -> Prop where
  | intro (u : U) :
      (CanFail E u -> E.dependencies .onFailure u ≠ [] -> E.onFailureIsolate u = false) ->
      (∀ v, Reinstalls E u v -> Fades E v) -> Fades E u

section

variable {E : Units U} {finish : FinishFunction U} {P : World U -> Prop}

variable {w : World U}

theorem failEach_single {fails : Job U -> Bool} {other : U} {k : JobId}
    (found : w.manager.metaJob other = some k)
    (failed : (fails (w.manager.job k) && (w.manager.job k).type.isStartLike) = true) :
    failEach finish fails w [other] = finish w k .dependency := by
  rw [failEach, foldlM_cons]
  simp only [found, failed, if_true, foldlM_nil, bind_pure]

theorem failEach_through (fails : Job U -> Bool) (others : List U) (step : ∀ w, P w -> ∀ other ∈ others, ∀
      k, w.manager.metaJob other = some k -> fails (w.manager.job k) = true -> (w.manager.job
      k).type.isStartLike = true -> ∃ w', finish w k .dependency = .ok w' ∧ P w') (holds : P w) :
    ∃ w', failEach finish fails w others = .ok w' ∧ P w' := by
  induction others generalizing w with
  | nil => exact ⟨w, rfl, holds⟩
  | cons other rest ih =>
    have later {w1 : World U} (ran : failEach finish fails w [other] = .ok w1) (holds1 : P w1) :
        ∃ w', failEach finish fails w (other :: rest) = .ok w' ∧ P w' := by
      obtain ⟨w', ran', holds'⟩ :=
        ih (fun w holds other inside => step w holds other (mem_cons_of_mem _ inside)) holds1
      refine ⟨w', ?_, holds'⟩
      rw [failEach_cons, ran]
      exact ran'
    cases found : w.manager.metaJob other with
    | none => exact later (by simp [failEach, found]) holds
    | some k =>
      by_cases failed : fails (w.manager.job k) = true ∧ (w.manager.job k).type.isStartLike = true
      · obtain ⟨w1, finished, holds1⟩ := step w holds other mem_cons_self k found failed.1 failed.2
        exact later (by simp [failEach, found, failed.1, failed.2, finished]) holds1
      · refine later ?_ holds
        rw [failEach, foldlM_cons]
        simp only [found]
        rw [if_neg (by simpa using failed)]
        rfl

theorem failDependents_through (wf : ∀ w, P w -> WellFormed w.manager) (type : JobType) (u : U) (step : ∀
      w, P w -> ∀ k ∈ w.manager.jobs, FailsNext E type u (w.manager.job k) -> ∃ w', finish w k .dependency
      = .ok w' ∧ P w') (holds : P w) : ∃ w', failDependents E finish w u type = .ok w' ∧ P w' := by
  have loop (kind : UnitDependency) (fails : Job U -> Bool)
      (next : ∀ job : Job U, job.unit ∈ E.dependencies kind u -> fails job = true ->
        job.type.isStartLike = true -> FailsNext E type u job) {w : World U} (holds : P w) :
      ∃ w', failEach finish fails w (E.dependencies kind u) = .ok w' ∧ P w' := by
    refine failEach_through fails _ (fun w holds other inside k found failed starts => ?_) holds
    obtain ⟨mem, rfl⟩ := (wf w holds).metaJobs other k found
    exact step w holds k mem (next _ inside failed starts)
  unfold failDependents
  by_cases starts : type.isStartLike = true
  · obtain ⟨w1, ran1, holds1⟩ := loop .requiredBy (fun _ => true)
      (fun job inside _ starting => ⟨starting, .inl ⟨starts, .inl inside⟩⟩) holds
    obtain ⟨w2, ran2, holds2⟩ := loop .boundBy (fun _ => true)
      (fun job inside _ starting => ⟨starting, .inl ⟨starts, .inr (.inl inside)⟩⟩) holds1
    obtain ⟨w3, ran3, holds3⟩ := loop .requiredByOverridable (fun job => !job.override)
      (fun job inside kept starting =>
        ⟨starting, .inl ⟨starts, .inr (.inr ⟨inside, by simpa using kept⟩)⟩⟩) holds2
    refine ⟨w3, ?_, holds3⟩
    rw [if_pos starts, ran1]
    change (do
      let w ← failEach finish (fun _ => true) w1 (E.dependencies .boundBy u)
      failEach finish (fun job => !job.override) w (E.dependencies .requiredByOverridable u)) = _
    rw [ran2]
    exact ran3
  · rw [if_neg starts]
    by_cases stops : type = .stop
    · rw [if_pos stops]
      exact loop .conflictedBy (fun _ => true)
        (fun job inside _ starting => ⟨starting, .inr ⟨stops, inside⟩⟩) holds
    · rw [if_neg stops]
      exact ⟨w, rfl, holds⟩

end

/-- From `m` to `m'` installed jobs have gone, and nothing else has changed about those that are left. -/
structure Shrinks (m m' : Manager U) : Prop where
  jobs : m'.jobs.Sublist m.jobs
  job : ∀ k ∈ m'.jobs, m'.job k = m.job k
  metaJob : ∀ u k, m'.metaJob u = some k -> m.metaJob u = some k

namespace Shrinks

variable {E : Units U} {m m' m'' : Manager U}

theorem refl (m : Manager U) : Shrinks m m :=
  ⟨List.Sublist.refl _, fun _ _ => rfl, fun _ _ => id⟩

theorem trans (first : Shrinks m m') (second : Shrinks m' m'') : Shrinks m m'' where
  jobs := second.jobs.trans first.jobs
  job := fun k mem => (second.job k mem).trans (first.job k (second.jobs.subset mem))
  metaJob := fun u k found => first.metaJob u k (second.metaJob u k found)

theorem free [DecidableEq U] (wf : WellFormed m) {j : JobId} (mem : j ∈ m.jobs) :
    Shrinks m (jobFree m j) where
  jobs := by
    obtain ⟨gone, -, freed⟩ := wf.jobFree_installed mem
    rw [freed]
    exact erase_sublist
  job := (Loses.free wf mem).job
  metaJob := fun u k found => (((Loses.free wf mem).metaJob u k).mp found).1

theorem queue (shrinks : Shrinks m m') (queue : List JobId) : Shrinks m { m' with runQueue := queue } :=
  ⟨shrinks.jobs, shrinks.job, shrinks.metaJob⟩

theorem dependent (shrinks : Shrinks m m') (wf : WellFormed m') {a k : JobId} (mem : a ∈ m'.jobs)
    (depends : Dependent E m' a k) : k ∈ m'.jobs ∧ Dependent E m a k := by
  obtain ⟨found, fails⟩ := depends
  have left : k ∈ m'.jobs := (wf.metaJobs _ k found).1
  rw [shrinks.job k left] at found fails
  rw [shrinks.job a mem] at fails
  exact ⟨left, shrinks.metaJob _ k found, fails⟩

theorem dependents (shrinks : Shrinks m m') (wf : WellFormed m') {a k : JobId} (mem : a ∈ m'.jobs)
    (path : TransGen (Dependent E m') a k) : k ∈ m'.jobs ∧ TransGen (Dependent E m) a k := by
  induction path with
  | single step =>
    obtain ⟨left, depends⟩ := shrinks.dependent wf mem step
    exact ⟨left, .single depends⟩
  | tail _ step ih =>
    obtain ⟨left, depends⟩ := shrinks.dependent wf ih.1 step
    exact ⟨left, ih.2.tail depends⟩

theorem spares (shrinks : Shrinks m m') (wf : WellFormed m') (spares : Spares E m) : Spares E m' := by
  refine (List.Pairwise.sublist shrinks.jobs spares).imp_of_mem ?_
  intro j k memberJ memberK calm path
  rw [shrinks.job k memberK]
  exact calm (shrinks.dependents wf memberJ path).2

end Shrinks

section

variable [DecidableEq U] [Fintype U] {E : Units U}

omit [Fintype U] in
theorem finishBody_freed {finish : FinishFunction U} {add : AddJobFunction U} {w w1 w2 : World U}
    {j : JobId} {result : JobResult} (failing : result ≠ .done) (failed : failDependents E finish (w.set
      (jobFree w.manager j)) (w.manager.job j).unit (w.manager.job j).type = .ok w1) (triggered : (if
      result = .timeout ∨ result = .dependency then unitTriggerOnFailure E add w1 (w.manager.job j).unit
      else .ok w1) = .ok w2) :
    finishBody E finish add w j result =
      .ok (w2.set (wakeNeighbours E w2.manager (w.manager.job j).unit)) := by
  unfold finishBody
  by_cases triggers : result = .timeout ∨ result = .dependency
  · rw [if_pos triggers] at triggered
    simp only [failing, false_and, if_false, ne_eq, not_false_eq_true, if_true, triggers]
    rw [failed]
    change (do
      let w' ← unitTriggerOnFailure E add w1 (w.manager.job j).unit
      .ok (w'.set (wakeNeighbours E w'.manager (w.manager.job j).unit)) : Except Fault (World U)) = _
    rw [triggered]
    rfl
  · rw [if_neg triggers] at triggered
    obtain rfl := Except.ok.inj triggered
    simp only [failing, false_and, if_false, ne_eq, not_false_eq_true, if_true, triggers]
    rw [failed]
    rfl

theorem clearTurns_ends {fuel : Nat} {P : World U -> Prop} (size : World U -> Nat) (step : ∀ w, P w -> ∀ j,
      w.manager.jobs.head? = some j -> ∃ w', jobFinishAndInvalidate E fuel w j .canceled = .ok w' ∧ P w'
      ∧ size w' < size w) (turns : Nat) {w : World U} (holds : P w) (few : size w < turns) :
    ∃ w', clearTurns E fuel turns w = .ok w' ∧ w'.manager.jobs = [] := by
  induction turns generalizing w with
  | zero => exact absurd few (Nat.not_lt_zero _)
  | succ turns ih =>
    rw [clearTurns]
    cases first : w.manager.jobs.head? with
    | none => exact ⟨w, rfl, head?_eq_none_iff.mp first⟩
    | some j =>
      obtain ⟨w1, finished, holds1, smaller⟩ := step w holds j first
      obtain ⟨w', ran, empty⟩ := ih holds1 (by omega)
      refine ⟨w', ?_, empty⟩
      dsimp only
      rw [finished]
      exact ran

/-- What finishing a job comes to as long as no unit with OnFailure= fails, while at most `bound` jobs are
installed. -/
def FinishShrinks (E : Units U) (bound : Nat) (finish : FinishFunction U) : Prop :=
  ∀ w j result, WellFormed w.manager -> j ∈ w.manager.jobs -> w.manager.jobs.length ≤ bound ->
    result = .canceled ∨ result = .dependency ∧ E.dependencies .onFailure (w.manager.job j).unit = [] ->
    (∀ k, k ≠ j -> TransGen (Dependent E w.manager) j k ->
      E.dependencies .onFailure (w.manager.job k).unit = []) ->
      ∃ w', finish w j result = .ok w' ∧ WellFormed w'.manager ∧ Shrinks w.manager w'.manager ∧
        w'.manager.jobs.length < w.manager.jobs.length

-- Induction on the fuel: each job that is finished is freed before those that depend on it.
theorem finish_shrinks (fuel : Nat) : FinishShrinks E fuel (jobFinishAndInvalidate E fuel) := by
  induction fuel with
  | zero =>
    intro w j result _ mem few
    have none := eq_nil_of_length_eq_zero (Nat.le_zero.mp few)
    rw [none] at mem
    cases mem
  | succ fuel ih =>
    intro w j result wf mem few outcome calm
    let P (w' : World U) : Prop := WellFormed w'.manager ∧ Shrinks (jobFree w.manager j) w'.manager
    have freed := wf.jobFree j mem
    have first := Shrinks.free wf mem
    have fewer : (jobFree w.manager j).jobs.length < w.manager.jobs.length := (Loses.free wf mem).fewer freed mem rfl
    obtain ⟨w1, failed, wf1, shrinks⟩ : ∃ w1, failDependents E (jobFinishAndInvalidate E fuel)
        (w.set (jobFree w.manager j)) (w.manager.job j).unit (w.manager.job j).type = .ok w1 ∧ P w1 := by
      refine failDependents_through (fun w holds => holds.1) _ _ (fun w' holds k inside next => ?_)
        ⟨freed, .refl _⟩
      obtain ⟨wf', shrinks⟩ := holds
      have whole := first.trans shrinks
      have depends : Dependent E w.manager j k := by
        rw [whole.job k inside] at next
        have found := whole.metaJob _ k (wf'.jobMeta k inside)
        rw [whole.job k inside] at found
        exact ⟨found, next⟩
      have other (l : JobId) (left : l ∈ w'.manager.jobs) : l ≠ j :=
        (((Loses.free wf mem).jobs l).mp (shrinks.jobs.subset left)).2
      have short := shrinks.jobs.length_le
      obtain ⟨w'', ran, wf'', shrinks', -⟩ := ih w' k .dependency wf' inside (by omega)
        (.inr ⟨rfl, by rw [whole.job k inside]; exact calm k (other k inside) (.single depends)⟩)
        (fun l _ path => by
          obtain ⟨left, path⟩ := whole.dependents wf' inside path
          rw [whole.job l left]
          exact calm l (other l left) (.head depends path))
      exact ⟨w'', ran, wf'', shrinks.trans shrinks'⟩
    have triggered : (if result = .timeout ∨ result = .dependency then
        unitTriggerOnFailure E (managerAddJob E fuel) w1 (w.manager.job j).unit else .ok w1) = .ok w1 := by
      rcases outcome with rfl | ⟨rfl, nobody⟩
      · simp
      · simp [unitTriggerOnFailure, nobody]
        rfl
    have failing : result ≠ .done := by
      rcases outcome with rfl | ⟨rfl, -⟩ <;> simp
    obtain ⟨queue, woken⟩ := wakeNeighbours_frame E w1.manager (w.manager.job j).unit
    have whole := first.trans shrinks
    refine ⟨_, finishBody_freed failing failed triggered, (wakeNeighbours_touch wf1 E _).1, ?_, ?_⟩
    · rw [World.set, woken]
      exact whole.queue queue
    · rw [World.set, woken]
      have short := shrinks.jobs.length_le
      change w1.manager.jobs.length < _
      omega

end

section

variable [DecidableEq U] [Fintype U] {E : Units U}

variable {m : Manager U} {u : U} {request : JobRequest U} {w : World U} {j : JobId}

omit [DecidableEq U] [Fintype U] in
theorem stop_of_merged (nonempty : m.chain u ≠ [])
    (stops : ∀ j ∈ m.chain u, (m.job j).type = .stop) : mergeTypeOf m u = .stop := by
  have stop : chainType m u = .stop := chainType_closed (· = .stop) (by decide) stops nonempty
  have merges : ∀ type, (jobTypeMerge .stop type).getD .stop = JobType.stop := by decide
  rw [mergeTypeOf_eq nonempty, stop]
  cases m.metaJob u with
  | none => rfl
  | some k => exact merges _

theorem addJobBody_returns (finish : FinishFunction U) (fuel : Nat) (w : World U)
    (keeping : request.mode ≠ .isolate) :
    ∃ result, addJobBody E finish fuel w request = .ok result := by
  unfold addJobBody
  dsimp only
  split
  next => exact ⟨_, rfl⟩
  next =>
    split
    next => exact ⟨_, rfl⟩
    next m ret _ =>
      unfold transactionActivate
      split
      next => exact ⟨_, rfl⟩
      next =>
        rw [transactionApply, if_neg keeping]
        exact ⟨_, rfl⟩

theorem managerAddJob_starts {fuel : Nat} {w' : World U} {ret : JobId} (start : request.type = .start)
    (keeping : request.mode ≠ .isolate) (resting : Resting w.manager)
    (ran : managerAddJob E fuel w request = .ok (w', .ok ret)) (u : U) (starts : Starts w'.manager u) :
    Starts w.manager u ∨ ∃ type, type.isStartLike = true ∧ Brought E request.call type u := by
  obtain ⟨m1, m, m', stages⟩ := managerAddJob_succeeded w' resting.wf resting.quiet ran
  have calm : request.mode = .isolate -> Undisturbed E m' := fun isolate => absurd isolate keeping
  have screens := screens_of_check resting.wf stages.build stages.check
  obtain ⟨k, found, starting⟩ := starts
  have kept (same : w'.manager.metaJob u = m.metaJob u) : Starts w.manager u := by
    rw [same, stages.metaJob] at found
    refine ⟨k, found, ?_⟩
    have mem := (resting.wf.metaJobs u k found).1
    rw [(stages.applied calm).job k] at starting
    rw [← screens.type k mem]
    exact starting
  by_cases absent : m.chain u = []
  · refine .inl (kept ?_)
    rw [stages.uninvolved calm u absent, if_neg keeping]
  · obtain ⟨s, survivor⟩ := mergeSurvivor_exists m absent
    by_cases dropped : DroppedMerged m u s
    · refine .inl (kept ?_)
      rw [(stages.installed calm u s survivor).2 dropped, if_neg keeping]
    · obtain ⟨placed, typed⟩ := (stages.installed calm u s survivor).1 dropped
      obtain rfl : s = k := some.inj (placed.symm.trans found)
      have asked : ∀ j ∈ m.chain u, Brought E request.call (m.job j).type u :=
        fun j inChain => (stages.asked inChain).elim id fun isolates => absurd isolates.1 keeping
      suffices ∃ j ∈ m.chain u, (m.job j).type.isStartLike = true by
        obtain ⟨j, inChain, starting⟩ := this
        exact .inr ⟨_, starting, asked j inChain⟩
      rw [typed, mergedType] at starting
      split at starting
      next => exact ⟨s, mergeSurvivor_mem survivor, starting⟩
      next =>
        by_contra none
        push Not at none
        have stops : ∀ j ∈ m.chain u, (m.job j).type = .stop := by
          intro j inChain
          have inside := (asked j inChain).pulled.types StartOrStop (.inl start) pulls_startOrStop
          have plain := none j inChain
          rcases inside with same | same | same
          · simp [same, JobType.isStartLike] at plain
          · simp [same, JobType.isStartLike] at plain
          · exact same
        rw [stop_of_merged absent stops] at starting
        cases starting

def load (weight : U -> Nat) (m : Manager U) (u : U) : Nat :=
  match m.metaJob u with
  | none => 0
  | some k => if (m.job k).type.isStartLike then weight u else 1

def total (weight : U -> Nat) (m : Manager U) : Nat := ∑ u, load weight m u

variable (weight : U -> Nat)

omit [DecidableEq U] [Fintype U] in
theorem load_starts (starts : Starts m u) : load weight m u = weight u := by
  obtain ⟨k, found, starting⟩ := starts
  simp [load, found, starting]

omit [DecidableEq U] [Fintype U] in
theorem load_idle (idle : ¬ Starts m u) : load weight m u ≤ 1 := by
  unfold load
  cases found : m.metaJob u with
  | none => simp
  | some k =>
    have plain : ¬ (m.job k).type.isStartLike = true := fun starting => idle ⟨k, found, starting⟩
    simp [plain]

omit [DecidableEq U] in
open Classical in
theorem total_reinstalled {m' : Manager U} {R : U -> Prop}
    (new : ∀ u, Starts m' u -> Starts m u ∨ R u) :
    total weight m' ≤ total weight m + (Fintype.card U + ∑ u, if R u then weight u else 0) := by
  have each (u : U) : load weight m' u ≤ load weight m u + (1 + if R u then weight u else 0) := by
    by_cases starts : Starts m' u
    · rw [load_starts weight starts]
      rcases new u starts with before | reinstalled
      · rw [load_starts weight before]
        omega
      · rw [if_pos reinstalled]
        omega
    · have few := load_idle weight starts
      omega
  have whole := Finset.sum_le_sum fun u (_ : u ∈ Finset.univ) => each u
  simpa [total, Finset.sum_add_distrib] using whole

omit [Fintype U] in
theorem metaJob_free (wf : WellFormed m) (mem : j ∈ m.jobs) :
    (jobFree m j).metaJob (m.job j).unit = none := by
  cases found : (jobFree m j).metaJob (m.job j).unit with
  | none => rfl
  | some k =>
    obtain ⟨before, other⟩ := ((Loses.free wf mem).metaJob _ k).mp found
    exact absurd (some.inj (before.symm.trans (wf.jobMeta j mem))) other

theorem total_free (wf : WellFormed m) (mem : j ∈ m.jobs) :
    total weight (jobFree m j) + load weight m (m.job j).unit ≤ total weight m := by
  have loses := Loses.free wf mem
  have own : load weight (jobFree m j) (m.job j).unit = 0 := by simp [load, metaJob_free wf mem]
  have others (u : U) (other : u ≠ (m.job j).unit) : load weight (jobFree m j) u ≤ load weight m u := by
    unfold load
    cases found : (jobFree m j).metaJob u with
    | none => simp
    | some k =>
      have left : k ∈ (jobFree m j).jobs := ((wf.jobFree j mem).metaJobs u k found).1
      have before := ((loses.metaJob u k).mp found).1
      simp [before, loses.job k left]
  unfold total
  rw [← Finset.add_sum_erase _ _ (Finset.mem_univ (m.job j).unit),
    ← Finset.add_sum_erase (a := (m.job j).unit) _ (load weight m) (Finset.mem_univ _), own]
  have rest : ∑ u ∈ Finset.univ.erase (m.job j).unit, load weight (jobFree m j) u ≤
      ∑ u ∈ Finset.univ.erase (m.job j).unit, load weight m u :=
    Finset.sum_le_sum fun u inside => others u (Finset.ne_of_mem_erase inside)
  omega

def Outweighs (E : Units U) (weight : U -> Nat) : Prop :=
  ∀ u, Fades E u -> ∀ m m' : Manager U, (∀ v, Starts m' v -> Starts m v ∨ Reinstalls E u v) ->
    total weight m' < total weight m + weight u

omit [DecidableEq U] [Fintype U] in
theorem Fades.acc (fades : Fades E u) : Acc (fun v u => Reinstalls E u v) u := by
  induction fades with
  | intro u _ _ ih => exact ⟨u, ih⟩

omit [DecidableEq U] [Fintype U] in
theorem Fades.of_reinstalls {v : U} (fades : Fades E u) (reinstalls : Reinstalls E u v) :
    Fades E v := by
  obtain ⟨_, _, leads⟩ := fades
  exact leads v reinstalls

omit [DecidableEq U] in
theorem Outweighs.positive {weight : U -> Nat} (outweighs : Outweighs E weight) (fades : Fades E u)
    (m : Manager U) : 0 < weight u := by
  have less := outweighs u fades m m fun v starts => .inl starts
  omega

omit [DecidableEq U] in
theorem exists_outweighs (E : Units U) : ∃ weight, Outweighs E weight := by
  obtain ⟨weight, sums⟩ := Cycles.exists_weight (Reinstalls E) (Fintype.card U + 1)
  refine ⟨weight, fun u fades m m' new => ?_⟩
  have bound := total_reinstalled weight new
  have own := sums u fades.acc
  omega

theorem unitTriggerOnFailure_reinstalls (fuel : Nat) (fades : Fades E u) (fails : CanFail E u)
    (resting : Resting w.manager) :
    ∃ w', unitTriggerOnFailure E (managerAddJob E (fuel + 1)) w u = .ok w' ∧ Resting w'.manager ∧
      ∀ v, Starts w'.manager v -> Starts w.manager v ∨ Reinstalls E u v := by
  suffices loop : ∀ others ⊆ E.dependencies .onFailure u, ∀ w : World U, Resting w.manager ->
      ∃ w', others.foldlM (fun w other => do
          let result ← managerAddJob E (fuel + 1) w (onFailureRequest E u other)
          .ok result.1) w = .ok w' ∧ Resting w'.manager ∧
        ∀ v, Starts w'.manager v -> Starts w.manager v ∨ Reinstalls E u v from
    loop _ (List.Subset.refl _) w resting
  intro others
  induction others with
  | nil => exact fun _ w resting => ⟨w, rfl, resting, fun v => .inl⟩
  | cons other rest ih =>
    intro inside w resting
    have own : other ∈ E.dependencies .onFailure u := inside mem_cons_self
    have keeping : (onFailureRequest E u other).mode ≠ .isolate := by
      obtain ⟨_, isolates, _⟩ := fades
      simp [onFailureRequest, isolates fails (ne_nil_of_mem own)]
    obtain ⟨⟨w1, result⟩, ran⟩ := addJobBody_returns (E := E) (jobFinishAndInvalidate E fuel) fuel w keeping
    change managerAddJob E (fuel + 1) w (onFailureRequest E u other) = _ at ran
    have resting1 := ((Rests.engine E (fuel + 1)).2 w _ w1 result ran).resting resting
    have new1 (v : U) (starts : Starts w1.manager v) : Starts w.manager v ∨ Reinstalls E u v := by
      cases result with
      | ok ret =>
        rcases managerAddJob_starts rfl keeping resting ran v starts with before | ⟨type, starting, pulled⟩
        · exact .inl before
        · exact .inr ⟨fails, other, own, type, starting, pulled⟩
      | error e =>
        have back := managerAddJob_failure_atomic E (fuel + 1) w w1 _ e resting.wf (.inr resting.quiet) ran
        obtain ⟨k, found, starting⟩ := starts
        rw [back.metaJob] at found
        rw [(back.installed k (resting.wf.metaJobs v k found).1).1] at starting
        exact .inl ⟨k, found, starting⟩
    obtain ⟨w', ran', resting', new'⟩ :=
      ih (fun x later => inside (mem_cons_of_mem _ later)) w1 resting1
    refine ⟨w', ?_, resting', fun v starts => ?_⟩
    · rw [foldlM_cons, ran]
      exact ran'
    · rcases new' v starts with before | reinstalled
      · exact new1 v before
      · exact .inr reinstalled

def FinishFades (E : Units U) (weight : U -> Nat) (fuel : Nat) (finish : FinishFunction U) : Prop :=
  ∀ w j result, Resting w.manager -> (∀ u, Starts w.manager u -> Fades E u) -> j ∈ w.manager.jobs ->
    total weight w.manager < fuel ->
    result = .canceled ∨
      result = .dependency ∧ (w.manager.job j).type.isStartLike = true ∧ CanFail E (w.manager.job j).unit ->
      ∃ w', finish w j result = .ok w' ∧ Resting w'.manager ∧ (∀ u, Starts w'.manager u -> Fades E u) ∧
        total weight w'.manager < total weight w.manager

omit [DecidableEq U] [Fintype U] in
theorem FailsNext.canFail {type : JobType} {job : Job U} (fails : FailsNext E type u job) :
    CanFail E job.unit := by
  obtain ⟨-, ⟨-, requires | binds | overridable⟩ | ⟨-, conflicts⟩⟩ := fails
  · exact ⟨u, .inl requires⟩
  · exact ⟨u, .inr (.inl binds)⟩
  · exact ⟨u, .inr (.inr (.inl overridable.1))⟩
  · exact ⟨u, .inr (.inr (.inr conflicts))⟩

omit [Fintype U] in
theorem starts_free (wf : WellFormed m) (mem : j ∈ m.jobs) (starts : Starts (jobFree m j) u) :
    Starts m u := by
  have loses := Loses.free wf mem
  obtain ⟨k, found, starting⟩ := starts
  have left := ((wf.jobFree j mem).metaJobs u k found).1
  rw [loses.job k left] at starting
  exact ⟨k, ((loses.metaJob u k).mp found).1, starting⟩

omit [DecidableEq U] [Fintype U] in
theorem starts_wake {v : U} (starts : Starts (wakeNeighbours E m u) v) : Starts m v := by
  obtain ⟨queue, same⟩ := wakeNeighbours_frame E m u
  rw [same] at starts
  exact starts

omit [DecidableEq U] in
theorem total_wake (m : Manager U) (u : U) : total weight (wakeNeighbours E m u) = total weight m := by
  obtain ⟨queue, same⟩ := wakeNeighbours_frame E m u
  rw [same]
  rfl

-- Induction on the fuel. What the job weighs pays for the jobs that its failure installs.
theorem finish_fades {weight : U -> Nat} (outweighs : Outweighs E weight) (fuel : Nat) :
    FinishFades E weight fuel (jobFinishAndInvalidate E fuel) := by
  induction fuel with
  | zero => exact fun w j result _ _ _ few => absurd few (Nat.not_lt_zero _)
  | succ fuel ih =>
    intro w j result resting fades mem few outcome
    have wf := resting.wf
    have paid := total_free weight wf mem
    have pos : 0 < load weight w.manager (w.manager.job j).unit := by
      have found := wf.jobMeta j mem
      by_cases starting : (w.manager.job j).type.isStartLike = true
      · have starts : Starts w.manager (w.manager.job j).unit := ⟨j, found, starting⟩
        rw [load_starts weight starts]
        exact outweighs.positive (fades _ starts) w.manager
      · simp [load, found, starting]
    let P (w' : World U) : Prop := Resting w'.manager ∧ (∀ u, Starts w'.manager u -> Fades E u) ∧
      total weight w'.manager ≤ total weight (jobFree w.manager j)
    obtain ⟨w1, failed, resting1, fades1, fewer1⟩ : ∃ w1, failDependents E (jobFinishAndInvalidate E fuel)
        (w.set (jobFree w.manager j)) (w.manager.job j).unit (w.manager.job j).type = .ok w1 ∧ P w1 := by
      refine failDependents_through (fun w holds => holds.1.wf) _ _ (fun w' holds k inside next => ?_)
        ⟨(Rests.free (.inl mem)).resting resting, fun u starts => fades u (starts_free wf mem starts), le_refl _⟩
      obtain ⟨resting', fades', fewer⟩ := holds
      obtain ⟨w'', ran, resting'', fades'', fewer'⟩ := ih w' k .dependency resting' fades' inside (by omega)
        (.inr ⟨rfl, next.1, next.canFail⟩)
      exact ⟨w'', ran, resting'', fades'', by omega⟩
    obtain ⟨w2, triggered, resting2, fades2, fewer2⟩ : ∃ w2, (if result = .timeout ∨ result = .dependency then
          unitTriggerOnFailure E (managerAddJob E fuel) w1 (w.manager.job j).unit
        else .ok w1) = .ok w2 ∧ Resting w2.manager ∧ (∀ u, Starts w2.manager u -> Fades E u) ∧
          total weight w2.manager < total weight w.manager := by
      rcases outcome with rfl | ⟨rfl, starting, fails⟩
      · exact ⟨w1, by simp, resting1, fades1, by omega⟩
      · have starts : Starts w.manager (w.manager.job j).unit := ⟨j, wf.jobMeta j mem, starting⟩
        have own := fades _ starts
        rw [load_starts weight starts] at paid pos
        obtain ⟨fuel, rfl⟩ : ∃ rest, fuel = rest + 1 := ⟨fuel - 1, by omega⟩
        obtain ⟨w2, ran, resting2, new⟩ := unitTriggerOnFailure_reinstalls fuel own fails resting1
        have less := outweighs _ own w1.manager w2.manager new
        refine ⟨w2, by simpa using ran, resting2, fun u starts => ?_, by omega⟩
        rcases new u starts with before | reinstalled
        · exact fades1 u before
        · exact own.of_reinstalls reinstalled
    have failing : result ≠ .done := by
      rcases outcome with rfl | ⟨rfl, -⟩ <;> simp
    refine ⟨_, finishBody_freed failing failed triggered, (Rests.wake _ _).resting resting2,
      fun u starts => fades2 u (starts_wake starts), ?_⟩
    rw [World.set, total_wake]
    exact fewer2

omit [Fintype U] in
theorem resting_abort (wf : WellFormed m) : Resting (transactionAbort m) := by
  rw [transactionAbort_spec m wf]
  exact ⟨wf.cleared, rfl, fun _ => rfl, rfl⟩

/-- manager_clear_jobs() comes to its end with no job left if no OnFailure= unit is triggered, or none that
leads back. -/
theorem managerClearJobs_ends (E : Units U) (wf : WellFormed w.manager)
    (tame : Spares E w.manager ∨ ∀ u, Starts w.manager u -> Fades E u) :
    ∃ fuel w', managerClearJobs E fuel w = .ok w' ∧ w'.manager.jobs = [] := by
  have aborted := transactionAbort_spec w.manager wf
  have resting := resting_abort wf
  rcases tame with spares | fades
  · have spares' : Spares E (transactionAbort w.manager) := by
      rw [aborted]
      exact spares
    refine ⟨(transactionAbort w.manager).jobs.length + 1, ?_⟩
    refine clearTurns_ends (P := fun w' => WellFormed w'.manager ∧ Spares E w'.manager ∧
      w'.manager.jobs.length ≤ (transactionAbort w.manager).jobs.length) (fun w => w.manager.jobs.length) ?_ _
      ⟨resting.wf, spares', le_refl _⟩ (Nat.lt_succ_self _)
    rintro w' ⟨wf', spares', few⟩ j first
    obtain ⟨rest, jobs⟩ := head?_eq_some_iff.mp first
    have calm : ∀ k, k ≠ j -> TransGen (Dependent E w'.manager) j k ->
        E.dependencies .onFailure (w'.manager.job k).unit = [] := by
      intro k other path
      have left := ((Shrinks.refl _).dependents wf' (mem_of_head? first) path).1
      rw [Spares, jobs, pairwise_cons] at spares'
      rw [jobs] at left
      exact spares'.1 k (mem_of_ne_of_mem other left) path
    obtain ⟨w'', ran, wf'', shrinks, fewer⟩ := finish_shrinks _ w' j .canceled wf' (mem_of_head? first)
      (few.trans (Nat.le_succ _)) (.inl rfl) calm
    exact ⟨w'', ran, ⟨wf'', shrinks.spares wf'' spares', by omega⟩, fewer⟩
  · obtain ⟨weight, outweighs⟩ := exists_outweighs E
    have fades' : ∀ u, Starts (transactionAbort w.manager) u -> Fades E u := by
      rw [aborted]
      exact fades
    refine ⟨total weight (transactionAbort w.manager) + 1, ?_⟩
    refine clearTurns_ends (P := fun w' => Resting w'.manager ∧ (∀ u, Starts w'.manager u -> Fades E u) ∧
      total weight w'.manager ≤ total weight (transactionAbort w.manager)) (fun w => total weight w.manager) ?_ _
      ⟨resting, fades', le_refl _⟩ (Nat.lt_succ_self _)
    rintro w' ⟨resting', fades', few⟩ j first
    obtain ⟨w'', ran, resting'', fades'', fewer⟩ := finish_fades outweighs _ w' j .canceled resting' fades'
      (mem_of_head? first) (Nat.lt_succ_of_le few) (.inl rfl)
    exact ⟨w'', ran, ⟨resting'', fades'', by omega⟩, fewer⟩

end

def watched : Units (Fin 3) :=
  loadedUnits 3 fun kind u =>
    match kind with
    | .requires => if u = 1 then [0] else []
    | .requiredBy => if u = 0 then [1] else []
    | .onFailure => if u = 1 then [2] else []
    | _ => []

theorem watched_pulls {call : AddCall (Fin 3)} (unit : call.unit = 2) (start : call.type = .start)
    {type : JobType} {u : Fin 3} (brought : Brought watched call type u) : u = 2 ∧ type = .start := by
  induction brought with
  | root => exact ⟨unit, start⟩
  | pull type u override pull dep _ _ inPulls inUnits _ ih =>
    obtain ⟨rfl, rfl⟩ := ih
    simp only [pulls, mem_cons, not_mem_nil, or_false] at inPulls
    rcases inPulls with rfl | rfl | rfl | rfl | rfl | rfl | rfl | rfl | rfl <;>
      simp [pullUnits, watched, loadedUnits] at inUnits

theorem watched_fades (u : Fin 3) : Fades watched u := by
  have last : Fades watched 2 := by
    refine .intro 2 (fun _ some => absurd rfl some) ?_
    rintro v ⟨-, other, found, -⟩
    cases found
  refine .intro u (fun _ _ => rfl) ?_
  rintro v ⟨-, other, found, type, -, pulled⟩
  have second : other = 2 := by
    simp only [watched, loadedUnits] at found
    split at found
    next => simpa using found
    next => cases found
  obtain ⟨rfl, -⟩ := watched_pulls second rfl pulled
  exact last

theorem managerClearJobs_ends_watched :
    ∃ w, w.manager.jobs.length = 2 ∧
      ∃ fuel w', managerClearJobs watched fuel w = .ok w' ∧ w'.manager.jobs = [] := by
  obtain ⟨w, run, facts⟩ := reachable_of_run watched 0 9
    [.addJob { type := .start, unit := 1, mode := .replace, override := false }]
    (fun w => decide (w.manager.jobs.length = 2)) (by decide)
  obtain ⟨refused, reached⟩ := run.withRefusals
  exact ⟨w, of_decide_eq_true facts,
    managerClearJobs_ends watched reached.resting.wf (.inr fun u _ => watched_fades u)⟩

def circle : Units (Fin 2) :=
  loadedUnits 2 fun kind u =>
    match kind with
    | .requires | .requiredBy | .onFailure => [1 - u]
    | _ => []

def idle (job : JobId -> Job (Fin 2)) (n : JobId) (reloading : Nat) : Manager (Fin 2) where
  job := job
  jobs := []
  metaJob := fun _ => none
  activeState := fun _ => .inactive
  transactionUnits := []
  chain := fun _ => []
  links := []
  runQueue := []
  currentJobId := n
  nReloading := reloading

def startingBoth (job : JobId -> Job (Fin 2)) (n : JobId) (reloading : Nat) (u : Fin 2) : Manager (Fin 2) :=
  { idle job (n + 2) reloading with
    transactionUnits := [u, 1 - u]
    chain := update (update (fun _ => []) u [n]) (1 - u) [n + 1]
    links := [⟨some (n + 1), n, true, false⟩, ⟨some n, n + 1, true, false⟩, ⟨none, n, true, false⟩] }

def startJob (generation : Nat) (matters : Bool) (u : Fin 2) : Job (Fin 2) where
  unit := u
  type := .start
  generation := generation
  mattersToAnchor := matters
  override := true

section

variable (job : JobId -> Job (Fin 2)) (n : JobId) (reloading : Nat) (u : Fin 2)

theorem zero_or_one : u = 0 ∨ u = 1 := by omega

def Marked (generation : Nat) (matters : Bool) : Prop :=
  job n = startJob generation matters u ∧ job (n + 1) = startJob generation matters (1 - u)

theorem buildTransaction_circle :
    ∃ job', buildTransaction circle (idle job n reloading) ⟨.start, u, .replace, true⟩ =
        (startingBoth job' n reloading u, .ok n) ∧
      Marked job' n u 0 false := by
  have depth : Fintype.card (Fin 2 × JobType) = 14 := by decide
  rcases zero_or_one u with rfl | rfl
  all_goals
    simp [buildTransaction, transactionAddJobAndDependencies, JobRequest.call, depth, addWithDepth,
      addJobAndDependencies, refusal, transactionAddOneJob, pullCalls, pulls, pullUnits, forEach, pullIn, jobNew,
      Manager.setJob, transactionPrepend, jobDependencyNew, unitJobIsApplicable, circle, loadedUnits, idle,
      startingBoth, startJob, Marked]

theorem findJobsThatMatter_circle (marked : Marked job n u 0 false) :
    ∃ job', transactionFindJobsThatMatterToAnchor (startingBoth job n reloading u) 1 =
        startingBoth job' n reloading u ∧ Marked job' n u 1 true := by
  obtain ⟨first, second⟩ := marked
  rcases zero_or_one u with rfl | rfl
  all_goals
    simp [transactionFindJobsThatMatterToAnchor, findJobsThatMatter, Manager.transactionAnchor,
      Manager.transactionList, Manager.setJob, Manager.subjectList, List.filter, first, second, startingBoth, idle,
      startJob, Marked]

theorem dropRedundant_circle {generation : Nat} (marked : Marked job n u generation true) :
    transactionDropRedundant (startingBoth job n reloading u) = startingBoth job n reloading u := by
  obtain ⟨first, second⟩ := marked
  rcases zero_or_one u with rfl | rfl
  all_goals
    simp [transactionDropRedundant, Manager.transactionList, repeatWhile, jobIsNoop, jobTypeIsRedundant, jobIsAnchor,
      Manager.objectList, List.flatMap, first, second, startingBoth, idle, startJob]

theorem collectGarbage_circle :
    transactionCollectGarbage (startingBoth job n reloading u) = startingBoth job n reloading u := by
  rcases zero_or_one u with rfl | rfl
  all_goals
    simp [transactionCollectGarbage, Manager.transactionList, Manager.transactionHeads, Manager.transactionGet,
      repeatWhile, Manager.objectList, List.filter, List.flatMap, startingBoth, idle]

theorem verifyOrder_circle (marked : Marked job n u 1 true) :
    ∃ job', transactionVerifyOrder circle (startingBoth job n reloading u) 2 =
        (startingBoth job' n reloading u, .ok ()) ∧ Marked job' n u 2 true := by
  obtain ⟨first, second⟩ := marked
  rcases zero_or_one u with rfl | rfl
  all_goals
    simp [transactionVerifyOrder, transactionVerifyOrderOne, jobCount, Manager.transactionHeads, Manager.transactionGet,
      Manager.transactionList, Manager.setJob, forEach, circle, loadedUnits, first, second, startingBoth, idle,
      startJob, Marked]

theorem mergeJobs_circle (marked : Marked job n u 2 true) :
    ∃ job', transactionMergeJobs (startingBoth job n reloading u) =
        (startingBoth job' n reloading u, .ok ()) ∧ Marked job' n u 2 true := by
  obtain ⟨first, second⟩ := marked
  rcases zero_or_one u with rfl | rfl
  all_goals
    simp [transactionMergeJobs, chainConflict, firstUnmergeable, mergeChain, collapseChain, Manager.transactionGet,
      mergeTypeOf, mergeTypes, first, second, startingBoth, idle, startJob, Marked]

theorem installTransaction_circle (marked : Marked job n u 2 true) (v : Fin 2) :
    ∃ k, (installTransaction (startingBoth job n reloading u)).metaJob v = some k ∧
      ((installTransaction (startingBoth job n reloading u)).job k).type = .start := by
  obtain ⟨first, second⟩ := marked
  rcases zero_or_one u with rfl | rfl <;> rcases zero_or_one v with rfl | rfl
  all_goals
    simp [installTransaction, putNewJobs, Manager.transactionHeads, Manager.transactionGet, installJob,
      jobAddToRunQueue, Manager.setJob, transactionCleanDependencies, first, second, startingBoth, idle, startJob]

theorem transactionCheck_circle (marked : Marked job n u 0 false) :
    ∃ job', transactionCheck circle .replace (startingBoth job n reloading u) =
        (startingBoth job' n reloading u, .ok ()) ∧ Marked job' n u 2 true := by
  obtain ⟨job1, found, marked1⟩ := findJobsThatMatter_circle job n reloading u marked
  obtain ⟨job2, verified, marked2⟩ := verifyOrder_circle job1 n reloading u marked1
  obtain ⟨job3, merged, marked3⟩ := mergeJobs_circle job2 n reloading u marked2
  have rounds : orderRounds circle .replace ((startingBoth job1 n reloading u).transactionList.length + 1)
      (startingBoth job1 n reloading u) 2 = (startingBoth job2 n reloading u, .ok ()) := by
    rw [orderRounds, collectUnlessIsolating, if_neg (by decide), collectGarbage_circle, verified]
  have merges : mergeRounds .replace ((startingBoth job2 n reloading u).transactionList.length + 1)
      (startingBoth job2 n reloading u) = (startingBoth job3 n reloading u, .ok ()) := by
    rw [mergeRounds, merged]
  refine ⟨job3, ?_, marked3⟩
  unfold transactionCheck
  dsimp only
  rw [found, if_neg (by decide), dropRedundant_circle job1 n reloading u marked1, rounds]
  dsimp only
  rw [merges]
  dsimp only
  rw [dropRedundant_circle job3 n reloading u marked3, if_neg (by simp)]

theorem managerAddJob_circle (fuel : Nat) (entered : List (Entry (Fin 2))) :
    ∃ w' ret, managerAddJob circle (fuel + 1) ⟨idle job n reloading, entered⟩ ⟨.start, u, .replace, true⟩ =
        .ok (w', .ok ret) ∧ ∀ v, ∃ k, w'.manager.metaJob v = some k ∧ (w'.manager.job k).type = .start := by
  obtain ⟨job1, built, first, second⟩ := buildTransaction_circle job n reloading u
  obtain ⟨job2, checked, marked⟩ := transactionCheck_circle job1 n reloading u ⟨first, second⟩
  refine ⟨⟨installTransaction (startingBoth job2 n reloading u),
    entered ++ [⟨idle job n reloading, ⟨.start, u, .replace, true⟩⟩]⟩, n, ?_, installTransaction_circle job2 n reloading u marked⟩
  rw [managerAddJob, addJobBody]
  dsimp only
  rw [requestRefusal, if_neg (by simp), if_neg (by simp)]
  dsimp only
  rw [built]
  dsimp only [World.set]
  rw [transactionActivate]
  dsimp only
  rw [checked]
  rfl

end

theorem idle_eq {m : Manager (Fin 2)} (resting : Resting m) (inactive : ∀ u, m.activeState u = .inactive)
    (none : ∀ u, m.metaJob u = none) : m = idle m.job m.currentJobId m.nReloading := by
  have jobs : m.jobs = [] := by
    rw [eq_nil_iff_forall_not_mem]
    intro j mem
    have found := resting.wf.jobMeta j mem
    rw [none] at found
    cases found
  have queue : m.runQueue = [] := by
    rw [eq_nil_iff_forall_not_mem]
    intro j inQueue
    have mem := resting.wf.queueJobs j inQueue
    rw [jobs] at mem
    cases mem
  obtain ⟨units, chain, links⟩ := resting.quiet
  have metaJob : m.metaJob = fun _ => Option.none := funext none
  have activeState : m.activeState = fun _ => UnitActiveState.inactive := funext inactive
  have chains : m.chain = fun _ => [] := funext chain
  cases m
  simp_all [idle]

structure BothStarting (m : Manager (Fin 2)) : Prop where
  resting : Resting m
  inactive : ∀ u, m.activeState u = .inactive
  starts : ∀ u, ∃ k, m.metaJob u = some k ∧ (m.job k).type = .start

theorem failDependents_circle (finish : FinishFunction (Fin 2)) (w : World (Fin 2)) (u : Fin 2) :
    failDependents circle finish w u .start = failEach finish (fun _ => true) w [1 - u] := by
  unfold failDependents
  rw [if_pos (by decide)]
  change (do
    let w ← failEach finish (fun _ => true) w [1 - u]
    let w ← failEach finish (fun _ => true) w []
    failEach finish (fun job => !job.override) w []) = _
  cases failEach finish (fun _ => true) w [1 - u] with
  | error fault => rfl
  | ok w' => rfl

theorem unitTriggerOnFailure_circle (add : AddJobFunction (Fin 2)) (w : World (Fin 2)) (u : Fin 2) :
    unitTriggerOnFailure circle add w u = (add w ⟨.start, 1 - u, .replace, true⟩).map Prod.fst := by
  change List.foldlM _ w [1 - u] = _
  rw [foldlM_cons]
  change ((add w ⟨.start, 1 - u, .replace, true⟩ >>= fun result => .ok result.1) >>= fun w => .ok w) = _
  cases add w ⟨.start, 1 - u, .replace, true⟩ with
  | error fault => rfl
  | ok result => rfl

variable (u : Fin 2)

theorem one_of_two (v : Fin 2) : v = u ∨ v = 1 - u := by omega

theorem one_sub_one_sub : 1 - (1 - u) = u := by omega

theorem one_sub_ne : 1 - u ≠ u := by omega

variable {w' w : World (Fin 2)}

theorem fail_circle {fuel : Nat} (resting : Resting w.manager)
    (inactive : ∀ u, w.manager.activeState u = .inactive) {u : Fin 2} {k : JobId}
    (found : w.manager.metaJob u = some k) (start : (w.manager.job k).type = .start)
    (alone : w.manager.metaJob (1 - u) = none)
    (ran : jobFinishAndInvalidate circle fuel w k .dependency = .ok w') (v : Fin 2) :
    ∃ k, w'.manager.metaJob v = some k ∧ (w'.manager.job k).type = .start := by
  obtain ⟨mem, rfl⟩ := resting.wf.metaJobs u k found
  cases fuel with
  | zero => cases ran
  | succ fuel =>
    rw [jobFinishAndInvalidate] at ran
    cases finishBody_cases ran with
    | restarted done => cases done
    | freed w1 w2 failed triggered =>
      have rests : Rests w (w.set (jobFree w.manager k)) := .free (.inl mem)
      have gone (v : Fin 2) : (jobFree w.manager k).metaJob v = none := by
        cases still : (jobFree w.manager k).metaJob v with
        | none => rfl
        | some l =>
          obtain ⟨before, other⟩ := ((Loses.free resting.wf mem).metaJob v l).mp still
          rcases one_of_two (w.manager.job k).unit v with rfl | rfl
          · exact absurd (some.inj (before.symm.trans found)) other
          · rw [alone] at before
            cases before
      rw [if_pos (by decide), start, failDependents_circle] at failed
      simp only [failEach, foldlM_cons, World.set, gone] at failed
      obtain rfl : w.set (jobFree w.manager k) = w1 := Except.ok.inj failed
      rw [if_pos (by decide), unitTriggerOnFailure_circle] at triggered
      have bare := idle_eq (rests.resting resting)
        (fun u => by rw [rests.activeState resting.settled]; exact inactive u) gone
      cases fuel with
      | zero => cases triggered
      | succ fuel =>
        obtain ⟨w3, ret, answered, both⟩ := managerAddJob_circle (jobFree w.manager k).job
          (jobFree w.manager k).currentJobId (jobFree w.manager k).nReloading (1 - (w.manager.job k).unit) fuel
          w.entered
        have same : w.set (jobFree w.manager k) = ⟨idle (jobFree w.manager k).job (jobFree w.manager k).currentJobId
            (jobFree w.manager k).nReloading, w.entered⟩ := congrArg w.set bare
        rw [same, answered] at triggered
        obtain rfl : w3 = w2 := Except.ok.inj triggered
        obtain ⟨queue, woken⟩ := wakeNeighbours_frame circle w3.manager (w.manager.job k).unit
        rw [World.set, woken]
        exact both v

theorem cancel_circle {fuel : Nat} (both : BothStarting w.manager) {j : JobId}
    (mem : j ∈ w.manager.jobs) (ran : jobFinishAndInvalidate circle fuel w j .canceled = .ok w') :
    BothStarting w'.manager := by
  have rests := (Rests.engine circle fuel).1 w j .canceled w' (.inl mem) ran
  have settled := both.resting.settled
  refine ⟨rests.resting both.resting, fun u => ?_, ?_⟩
  · rw [rests.activeState settled]
    exact both.inactive u
  intro v
  have typed (u : Fin 2) (k : JobId) (found : w.manager.metaJob u = some k) : (w.manager.job k).type = .start := by
    obtain ⟨l, found', start⟩ := both.starts u
    rwa [some.inj (found.symm.trans found')]
  have own := both.resting.wf.jobMeta j mem
  cases fuel with
  | zero => cases ran
  | succ fuel =>
    rw [jobFinishAndInvalidate] at ran
    cases finishBody_cases ran with
    | restarted done => cases done
    | freed w1 w2 failed triggered =>
      rw [if_neg (by decide)] at triggered
      obtain rfl : w1 = w2 := Except.ok.inj triggered
      have loses := Loses.free both.resting.wf mem
      have freed : Rests w (w.set (jobFree w.manager j)) := .free (.inl mem)
      obtain ⟨k, found, start⟩ := both.starts (1 - (w.manager.job j).unit)
      have other : k ≠ j := by
        rintro rfl
        exact one_sub_ne _ (both.resting.wf.metaJobs _ k found).2.symm
      have left : (jobFree w.manager j).metaJob (1 - (w.manager.job j).unit) = some k :=
        (loses.metaJob _ k).mpr ⟨found, other⟩
      have kept : (jobFree w.manager j).job k = w.manager.job k :=
        loses.job k ((loses.jobs k).mpr ⟨(both.resting.wf.metaJobs _ k found).1, other⟩)
      have alone : (jobFree w.manager j).metaJob (1 - (1 - (w.manager.job j).unit)) = none := by
        rw [one_sub_one_sub]
        exact metaJob_free both.resting.wf mem
      rw [if_pos (by decide), typed _ j own, failDependents_circle,
        failEach_single left (by rw [World.set, kept, start]; rfl)] at failed
      obtain ⟨l, again, started⟩ := fail_circle (freed.resting both.resting)
        (fun u => by rw [freed.activeState settled]; exact both.inactive u) left (kept ▸ start) alone failed v
      obtain ⟨queue, woken⟩ := wakeNeighbours_frame circle w1.manager (w.manager.job j).unit
      rw [World.set, woken]
      exact ⟨l, again, started⟩

theorem clearTurns_circle (fuel turns : Nat) (both : BothStarting w.manager) (w' : World (Fin 2)) :
    clearTurns circle fuel turns w ≠ .ok w' := by
  induction turns generalizing w with
  | zero => exact fun ran => by cases ran
  | succ turns ih =>
    intro ran
    obtain ⟨k, found, -⟩ := both.starts 0
    obtain ⟨j, rest, jobs⟩ := exists_cons_of_ne_nil (ne_nil_of_mem (both.resting.wf.metaJobs 0 k found).1)
    rw [clearTurns, jobs] at ran
    obtain ⟨w1, finished, ran⟩ := bind_ok ran
    exact ih (cancel_circle both (jobs ▸ mem_cons_self) finished) ran

theorem managerClearJobs_circles :
    ¬ ∀ (E : Units (Fin 2)) (w : World (Fin 2)), WellFormed w.manager ->
        ∃ fuel w', managerClearJobs E fuel w = .ok w' ∧ w'.manager.jobs = [] := by
  intro ends
  have started := (startupManager_initial (0 : Fin 2))
  have resting0 : Resting (startupManager (0 : Fin 2)) := ⟨started.wellFormed, started.quiescent⟩
  have bare := idle_eq resting0 (fun _ => rfl) started.metaJob
  obtain ⟨w, ret, ran, both⟩ := managerAddJob_circle (startupManager (0 : Fin 2)).job
    (startupManager (0 : Fin 2)).currentJobId (startupManager (0 : Fin 2)).nReloading 0 0 []
  rw [← bare] at ran
  have rests := (Rests.engine circle 1).2 ⟨startupManager 0, []⟩ _ w _ ran
  have resting := rests.resting resting0
  have aborted : BothStarting (transactionAbort w.manager) := by
    refine ⟨resting_abort resting.wf, fun u => ?_, ?_⟩
    · rw [transactionAbort_spec _ resting.wf]
      exact (congrFun (rests.activeState resting0.settled) u).trans rfl
    · rw [transactionAbort_spec _ resting.wf]
      exact both
  obtain ⟨fuel, w', cleared, -⟩ := ends circle w resting.wf
  exact clearTurns_circle fuel fuel aborted w' cleared

end Systemd
