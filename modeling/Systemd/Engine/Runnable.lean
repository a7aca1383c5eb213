import Systemd.Engine.Run

set_option autoImplicit false

namespace Systemd

open Cycles

variable {U : Type}

structure OrderInverse (E : Units U) : Prop where
  inverse : ∀ a b, b ∈ E.dependencies .before a ↔ a ∈ E.dependencies .after b

def JobType.isStopLike (type : JobType) : Bool :=
  type == .stop || type == .restart || type == .tryRestart

theorem JobType.waitsForPredecessors_eq_not_isStopLike (type : JobType) :
    type.waitsForPredecessors = !type.isStopLike := by
  cases type <;> rfl

variable (E : Units U) (m : Manager U) (j : JobId)

theorem unitHasJob_iff (u : U) : unitHasJob m u = true ↔ ∃ j, m.metaJob u = some j := by
  simp [unitHasJob, Option.isSome_iff_exists]

theorem unitHasStopLikeJob_iff (u : U) :
    unitHasStopLikeJob m u = true ↔ ∃ j, m.metaJob u = some j ∧ (m.job j).type.isStopLike = true := by
  cases found : m.metaJob u <;> simp [unitHasStopLikeJob, JobType.isStopLike, found]

theorem jobIsRunnable_iff (ordered : (m.job j).ignoreOrder = false) :
    jobIsRunnable E m j = true ↔
      ((m.job j).type.isStopLike = false ->
        ∀ v ∈ E.dependencies .after (m.job j).unit, unitHasJob m v = false) ∧
      ∀ v ∈ E.dependencies .before (m.job j).unit, unitHasStopLikeJob m v = false := by
  cases stopLike : (m.job j).type.isStopLike <;>
    simp [jobIsRunnable, ordered, JobType.waitsForPredecessors_eq_not_isStopLike, stopLike]

-- Among the jobs that stop something the last one in the order can run; where nothing stops, the
-- first job in the order can.
theorem exists_runnable [Finite U] (order : OrderInverse E)
    (assigned : ∀ u j, m.metaJob u = some j -> (m.job j).unit = u)
    (acyclic : Acyclic (Within (fun u => unitHasJob m u = true) (OrderedBefore E)))
    (nonempty : ∃ u, unitHasJob m u = true) :
    ∃ u j, m.metaJob u = some j ∧ jobIsRunnable E m j = true := by
  by_cases stopping : ∃ u, unitHasStopLikeJob m u = true
  · obtain ⟨u, stops, last⟩ :=
      acyclic.flip.exists_minimal (fun u => unitHasStopLikeJob m u = true) stopping
    obtain ⟨j, found, stopLike⟩ := (unitHasStopLikeJob_iff m u).mp stops
    refine ⟨u, j, found, ?_⟩
    by_cases ordered : (m.job j).ignoreOrder = true
    · simp [jobIsRunnable, ordered]
    · rw [jobIsRunnable_iff E m j (by simpa using ordered), assigned u j found]
      constructor
      · simp [stopLike]
      · intro v before
        by_contra busy
        have stopsV : unitHasStopLikeJob m v = true := by simpa using busy
        obtain ⟨k, foundV, _⟩ := (unitHasStopLikeJob_iff m v).mp stopsV
        exact last v stopsV ⟨(unitHasJob_iff m u).mpr ⟨j, found⟩,
          (unitHasJob_iff m v).mpr ⟨k, foundV⟩, before⟩
  · obtain ⟨u, busy, first⟩ := acyclic.exists_minimal (fun u => unitHasJob m u = true) nonempty
    obtain ⟨j, found⟩ := (unitHasJob_iff m u).mp busy
    refine ⟨u, j, found, ?_⟩
    by_cases ordered : (m.job j).ignoreOrder = true
    · simp [jobIsRunnable, ordered]
    · rw [jobIsRunnable_iff E m j (by simpa using ordered), assigned u j found]
      constructor
      · intro _ v after
        by_contra other
        have busyV : unitHasJob m v = true := by simpa using other
        exact first v busyV ⟨busyV, busy, (order.inverse v u).mpr after⟩
      · intro v _
        by_contra stops
        exact stopping ⟨v, by simpa using stops⟩

theorem not_runnable_pair (order : OrderInverse E)
    (assigned : ∀ u j, m.metaJob u = some j -> (m.job j).unit = u) (a b : U) (j k : JobId)
    (jobA : m.metaJob a = some j) (jobB : m.metaJob b = some k)
    (orderedA : (m.job j).ignoreOrder = false) (orderedB : (m.job k).ignoreOrder = false)
    (before : b ∈ E.dependencies .before a) :
    jobIsRunnable E m j = false ∨ jobIsRunnable E m k = false := by
  by_contra both
  simp only [not_or, Bool.not_eq_false] at both
  obtain ⟨_, noStop⟩ := (jobIsRunnable_iff E m j orderedA).mp both.1
  obtain ⟨noJob, _⟩ := (jobIsRunnable_iff E m k orderedB).mp both.2
  rw [assigned a j jobA] at noStop
  rw [assigned b k jobB] at noJob
  cases stopLike : (m.job k).type.isStopLike with
  | true =>
    have stops := (unitHasStopLikeJob_iff m b).mpr ⟨k, jobB, stopLike⟩
    simp [noStop b before] at stops
  | false =>
    have busy := (unitHasJob_iff m a).mpr ⟨j, jobA⟩
    simp [noJob stopLike a ((order.inverse a b).mp before)] at busy

theorem ordered_jobs_no_deadlock [Finite U] (order : OrderInverse E)
    (assigned : ∀ u j, m.metaJob u = some j -> (m.job j).unit = u) :
    (Acyclic (Within (fun u => unitHasJob m u = true) (OrderedBefore E)) ->
      (∃ u, unitHasJob m u = true) ->
      ∃ u j, m.metaJob u = some j ∧ jobIsRunnable E m j = true) ∧
    ∀ a b j k, m.metaJob a = some j -> m.metaJob b = some k ->
      (m.job j).ignoreOrder = false -> (m.job k).ignoreOrder = false ->
      b ∈ E.dependencies .before a ->
      jobIsRunnable E m j = false ∨ jobIsRunnable E m k = false :=
  ⟨exists_runnable E m order assigned, not_runnable_pair E m order assigned⟩

def orderedPair : Units (Fin 2) :=
  loadedUnits 2 fun kind u =>
    match kind with
    | .before => if u = 0 then [1] else []
    | .after => if u = 1 then [0] else []
    | _ => []

def startStopManager : Manager (Fin 2) :=
  { startupManager (0 : Fin 2) with
    job := fun j => if j = 1 then { unit := 0, type := .start, installed := true }
      else { unit := 1, type := .stop, installed := true }
    jobs := [1, 2]
    metaJob := fun u => if u = 0 then some 1 else some 2 }

theorem orderedPair_acyclic (inside : Fin 2 -> Prop) :
    Acyclic (Within inside (OrderedBefore orderedPair)) := by
  have up : ∀ a b, OrderedBefore orderedPair a b -> a < b := by
    unfold OrderedBefore
    decide
  have rises : ∀ a b, Relation.TransGen (Within inside (OrderedBefore orderedPair)) a b -> a < b := by
    intro a b path
    induction path with
    | single step => exact up _ _ step.2.2
    | tail _ step ih => exact ih.trans (up _ _ step.2.2)
  exact fun v loop => lt_irrefl v (rises v v loop)

theorem ordered_jobs_no_deadlock_startStop :
    (∃ u j, startStopManager.metaJob u = some j ∧
      jobIsRunnable orderedPair startStopManager j = true) ∧
    (jobIsRunnable orderedPair startStopManager 1 = false ∨
      jobIsRunnable orderedPair startStopManager 2 = false) := by
  have order : OrderInverse orderedPair := ⟨by decide⟩
  have assigned : ∀ u j, startStopManager.metaJob u = some j ->
      (startStopManager.job j).unit = u := by
    intro u j found
    by_cases first : u = 0
    · obtain rfl : 1 = j := by simpa [startStopManager, first] using found
      exact first.symm
    · obtain rfl : 2 = j := by simpa [startStopManager, first] using found
      exact (Fin.eq_one_of_ne_zero u first).symm
  obtain ⟨live, exclusive⟩ := ordered_jobs_no_deadlock orderedPair startStopManager order assigned
  exact ⟨live (orderedPair_acyclic _) ⟨0, by decide⟩,
    exclusive 0 1 1 2 rfl rfl rfl rfl (by decide)⟩

/-- job_run_and_invalidate calls unit_start only when nothing the unit is ordered after has a job. -/
def StartsInOrder (E : Units U) (m : Manager U) (j : JobId) : Prop :=
  ∀ m' waits, jobRunBegin E m j = (m', .call .start waits) ->
    ∀ v ∈ E.dependencies .after (m.job j).unit, m'.metaJob v = none

-- The job is taken for a stop by job_is_runnable and for a start by the switch that follows.
def restartStarts (m : Manager U) (j : JobId) : Bool :=
  match (m.job j).type, m.activeState (m.job j).unit with
  | .restart, .inactive | .restart, .failed | .restart, .activating | .tryRestart, .activating => true
  | _, _ => false

theorem jobOperation_call_start_iff :
    (∃ waits, (jobOperation m j).2 = .call .start waits) ↔
      (m.job j).type = .start ∨
      ((m.job j).type = .reloadOrStart ∧ m.activeState (m.job j).unit ≠ .active) ∨
      restartStarts m j = true := by
  cases type : (m.job j).type <;> cases state : m.activeState (m.job j).unit <;>
    simp [jobOperation, restartStarts, type, state]

theorem jobRunBegin_call_start_iff :
    (∃ m' waits, jobRunBegin E m j = (m', .call .start waits)) ↔
      (m.job j).state = .waiting ∧ jobIsRunnable E m j = true ∧
        ∃ waits, (jobOperation m j).2 = .call .start waits := by
  have same : jobIsRunnable E { m with runQueue := m.runQueue.erase j } j = jobIsRunnable E m j := rfl
  have operation : jobOperation { m with runQueue := m.runQueue.erase j } j = jobOperation m j := rfl
  unfold jobRunBegin
  by_cases waiting : (m.job j).state = .waiting
  · by_cases runnable : jobIsRunnable E m j = true
    · simp [waiting, runnable, same, operation]
    · simp [waiting, runnable, same]
  · simp [waiting]

theorem jobRunBegin_metaJob : (jobRunBegin E m j).1.metaJob = m.metaJob := by
  by_cases waiting : (m.job j).state = .waiting
  · by_cases runnable : jobIsRunnable E { m with runQueue := m.runQueue.erase j } j = true
    · simp [jobRunBegin, waiting, runnable, Manager.setJob]
    · simp [jobRunBegin, waiting, runnable]
  · simp [jobRunBegin, waiting]

theorem startsInOrder_iff (ordered : (m.job j).ignoreOrder = false) :
    StartsInOrder E m j ↔
      ((m.job j).state = .waiting -> restartStarts m j = true ->
        (∀ v ∈ E.dependencies .after (m.job j).unit, m.metaJob v = none) ∨
        ∃ v ∈ E.dependencies .before (m.job j).unit, unitHasStopLikeJob m v = true) := by
  have called : StartsInOrder E m j ↔
      ((∃ m' waits, jobRunBegin E m j = (m', .call .start waits)) ->
        ∀ v ∈ E.dependencies .after (m.job j).unit, m.metaJob v = none) := by
    constructor
    · rintro inOrder ⟨m', waits, begun⟩ v after
      have unchanged := jobRunBegin_metaJob E m j
      rw [begun] at unchanged
      rw [← unchanged]
      exact inOrder m' waits begun v after
    · intro inOrder m' waits begun v after
      have unchanged := jobRunBegin_metaJob E m j
      rw [begun] at unchanged
      exact (congrFun unchanged v).trans (inOrder ⟨m', waits, begun⟩ v after)
  have quiet : ∀ v, unitHasJob m v = false ↔ m.metaJob v = none := by
    intro v
    cases found : m.metaJob v <;> simp [unitHasJob, found]
  rw [called, jobRunBegin_call_start_iff, jobOperation_call_start_iff, jobIsRunnable_iff E m j ordered]
  simp only [quiet]
  cases restarts : restartStarts m j with
  | false =>
    have waits : (m.job j).type = .start ∨ (m.job j).type = .reloadOrStart ->
        (m.job j).type.isStopLike = false := by
      rintro (type | type) <;> rw [type] <;> rfl
    constructor
    · simp
    · rintro - ⟨_, ⟨noJob, _⟩, type | ⟨type, _⟩ | impossible⟩
      · exact noJob (waits (.inl type))
      · exact noJob (waits (.inr type))
      · cases impossible
  | true =>
    have stopLike : (m.job j).type.isStopLike = true := by
      revert restarts
      cases type : (m.job j).type <;> simp [restartStarts, type, JobType.isStopLike]
    simp only [stopLike, Bool.true_eq_false, false_implies, true_and, or_true, and_true,
      forall_const]
    constructor
    · intro inOrder waiting
      by_cases stops : ∃ v ∈ E.dependencies .before (m.job j).unit, unitHasStopLikeJob m v = true
      · exact .inr stops
      · refine .inl (inOrder ⟨waiting, fun v before => ?_⟩)
        by_contra busy
        exact stops ⟨v, before, by simpa using busy⟩
    · rintro condition ⟨waiting, noStop⟩
      rcases condition waiting with noJob | ⟨v, before, stops⟩
      · exact noJob
      · simp [noStop v before] at stops

theorem startsInOrder_iff_startStop : StartsInOrder orderedPair startStopManager 1 := by
  refine (startsInOrder_iff orderedPair startStopManager 1 rfl).mpr ?_
  intro _ restarts
  exact absurd restarts (by decide)

theorem restart_starts_before_predecessor :
    ∃ w, Reachable orderedPair w ∧ 2 ∈ w.manager.jobs ∧ (w.manager.job 2).ignoreOrder = false ∧
      ¬ StartsInOrder orderedPair w.manager 2 := by
  obtain ⟨w, reachable, state⟩ := reachable_of_run orderedPair 0 5
    [.addJob ⟨.start, 0, .replace, false⟩, .addJob ⟨.restart, 1, .replace, false⟩]
    (fun w => decide (2 ∈ w.manager.jobs ∧ (w.manager.job 2).ignoreOrder = false ∧
      (w.manager.job 2).unit = 1 ∧ w.manager.metaJob 0 = some 1 ∧
      (jobRunBegin orderedPair w.manager 2).2 = .call .start false))
    (by decide +kernel)
  obtain ⟨installed, ordered, unit, pending, called⟩ := of_decide_eq_true state
  refine ⟨w, reachable, installed, ordered, fun inOrder => ?_⟩
  have quiet := inOrder (jobRunBegin orderedPair w.manager 2).1 false (Prod.ext rfl called) 0
    (by rw [unit]; decide)
  rw [jobRunBegin_metaJob, pending] at quiet
  cases quiet

end Systemd
