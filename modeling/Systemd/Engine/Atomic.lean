import Systemd.Engine.Check
import Systemd.Engine.Run

set_option autoImplicit false

namespace Systemd

variable {U : Type}

/-- A request that failed has left what is installed alone and cleared the transaction away. -/
structure RolledBack (m m' : Manager U) : Prop where
  jobs : m'.jobs = m.jobs
  metaJob : m'.metaJob = m.metaJob
  runQueue : m'.runQueue = m.runQueue
  installed : ∀ j ∈ m.jobs, (m'.job j).type = (m.job j).type ∧ (m'.job j).state = (m.job j).state
  transactionUnits : m'.transactionUnits = []
  chain : ∀ u, m'.chain u = []
  transactionAnchor : m'.transactionAnchor = []
  subjectList : ∀ j ∈ m.jobs, m'.subjectList j = []
  objectList : ∀ j ∈ m.jobs, m'.objectList j = []

theorem RolledBack.of_quiescent {m : Manager U} (quiet : Quiescent m) : RolledBack m m := by
  refine ⟨rfl, rfl, rfl, fun _ _ => ⟨rfl, rfl⟩, quiet.transactionUnits, quiet.chain, ?_, ?_, ?_⟩
  · simp [Manager.transactionAnchor, quiet.links]
  · simp [Manager.subjectList, quiet.links]
  · simp [Manager.objectList, quiet.links]

variable [DecidableEq U]

theorem RolledBack.of_abort {m m1 : Manager U} (wf : WellFormed m1) (jobs : m1.jobs = m.jobs)
    (metaJob : m1.metaJob = m.metaJob) (runQueue : m1.runQueue = m.runQueue)
    (kept : ∀ j ∈ m.jobs, SameJob (m.job j) (m1.job j)) : RolledBack m (transactionAbort m1) := by
  rw [transactionAbort_spec m1 wf]
  exact ⟨jobs, metaJob, runQueue, fun j mem => ⟨(kept j mem).type, (kept j mem).state⟩, rfl,
    fun _ => rfl, rfl, fun _ _ => rfl, fun _ _ => rfl⟩

variable [Fintype U]

theorem addJobBody_rollback {E : Units U} {finish : FinishFunction U} {fuel : Nat} {w : World U}
    (w' : World U) {request : JobRequest U} {e : RequestError U} (wf : WellFormed w.manager)
    (entry : requestRefusal E request = none ∨ Quiescent w.manager)
    (failed : addJobBody E finish fuel w request = .ok (w', .error e)) :
    RolledBack w.manager w'.manager := by
  have result := addJobBody_cases failed
  cases result with
  | refused _ refused =>
    rw [refused] at entry
    exact .of_quiescent (entry.resolve_left (by simp))
  | unbuilt m1 _ _ built =>
    obtain ⟨⟨wf1, growth, _⟩, _⟩ := buildTransaction_spec wf built
    exact .of_abort wf1 growth.jobs growth.metaJob growth.runQueue
      fun j mem => growth.kept j (wf.jobFresh j mem)
  | rejected m1 m2 ret _ _ built check =>
    obtain ⟨⟨wf1, growth, _⟩, _⟩ := buildTransaction_spec wf built
    have frame := transactionCheck_checked wf1 check
    refine .of_abort frame.wf (frame.jobs.trans growth.jobs) (frame.metaJob.trans growth.metaJob)
      (frame.runQueue.trans growth.runQueue) ?_
    intro j mem
    have same := growth.kept j (wf.jobFresh j mem)
    exact same.trans (frame.kept j (same.installed.trans (wf.jobInstalled j mem))).1

theorem managerAddJob_failure_atomic (E : Units U) (fuel : Nat) (w w' : World U)
    (request : JobRequest U) (e : RequestError U) (wf : WellFormed w.manager)
    (entry : requestRefusal E request = none ∨ Quiescent w.manager)
    (failed : managerAddJob E fuel w request = .ok (w', .error e)) :
    RolledBack w.manager w'.manager := by
  cases fuel with
  | zero =>
    rw [managerAddJob] at failed
    cases failed
  | succ fuel =>
    rw [managerAddJob] at failed
    exact addJobBody_rollback w' wf entry failed

-- The second unit is masked, so the start job of the first one is built and thrown away.
def maskedRequirement : Units (Fin 2) :=
  { loadedUnits 2 (fun kind u => if kind = .requires ∧ u = 0 then [1] else []) with
    loadState := fun u => if u = 1 then .masked else .loaded }

theorem managerAddJob_failure_atomic_masked :
    ∃ w' e, managerAddJob maskedRequirement 1 ⟨startupManager 0, []⟩ ⟨.start, 0, .replace, false⟩ =
        .ok (w', .error e) ∧ RolledBack (startupManager 0) w'.manager := by
  have fails : (managerAddJob maskedRequirement 1 ⟨startupManager 0, []⟩
      ⟨.start, 0, .replace, false⟩).toOption.any (fun result => !result.2.toBool) = true := by
    decide
  cases outcome : managerAddJob maskedRequirement 1 ⟨startupManager 0, []⟩
      ⟨.start, 0, .replace, false⟩ with
  | error fault => simp [outcome, Except.toOption] at fails
  | ok result =>
    obtain ⟨w', status⟩ := result
    cases status with
    | ok ret => simp [outcome, Except.toOption, Except.toBool] at fails
    | error e =>
      have initial := startupManager_initial (0 : Fin 2)
      exact ⟨w', e, rfl, managerAddJob_failure_atomic maskedRequirement 1 _ w' _ e
        initial.wellFormed (.inr initial.quiescent) outcome⟩

end Systemd
