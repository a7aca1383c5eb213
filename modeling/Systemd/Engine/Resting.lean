import Systemd.Engine.Atomic
import Systemd.Engine.Isolate
import Systemd.Engine.LostWakeup

set_option autoImplicit false

namespace Systemd

open Loop

variable {U : Type}

structure Resting (m : Manager U) : Prop where
  wf : WellFormed m
  quiet : Quiescent m

theorem Resting.settled {m : Manager U} (resting : Resting m) : Settled m :=
  resting.quiet.settled resting.wf

/-- Steps that end between two transactions if they start there, and that change the state of no unit. -/
structure Rests (w w' : World U) : Prop where
  settled : Settled w.manager -> Settled w'.manager
  quiet : Resting w.manager -> Quiescent w'.manager
  activeState : Settled w.manager -> w'.manager.activeState = w.manager.activeState
  nReloading : Settled w.manager -> w'.manager.nReloading = w.manager.nReloading
  entered : ∃ new, w'.entered = w.entered ++ new

namespace Rests

theorem refl (w : World U) : Rests w w :=
  ⟨id, Resting.quiet, fun _ => rfl, fun _ => rfl, [], by simp⟩

theorem resting {w w' : World U} (rests : Rests w w') (resting : Resting w.manager) : Resting w'.manager :=
  ⟨(rests.settled resting.settled).wf, rests.quiet resting⟩

variable {w : World U} {m : Manager U}

theorem trans {w' w'' : World U} (first : Rests w w') (second : Rests w' w'') : Rests w w'' where
  settled := fun settled => second.settled (first.settled settled)
  quiet := fun resting => second.quiet (first.resting resting)
  activeState := fun settled => (second.activeState (first.settled settled)).trans (first.activeState settled)
  nReloading := fun settled => (second.nReloading (first.settled settled)).trans (first.nReloading settled)
  entered := by
    obtain ⟨new, entered⟩ := first.entered
    obtain ⟨more, entered'⟩ := second.entered
    exact ⟨new ++ more, by rw [entered', entered, List.append_assoc]⟩

theorem route : Route (Rests (U := U)) :=
  ⟨refl, trans⟩

theorem of_touch (wf : WellFormed w.manager -> WellFormed m) (touch : Touch w.manager m)
    (activeState : m.activeState = w.manager.activeState)
    (nReloading : m.nReloading = w.manager.nReloading) : Rests w (w.set m) where
  settled := fun settled => ⟨wf settled.wf, by simpa only [World.set, touch.chain] using settled.single⟩
  quiet := fun resting => ⟨touch.transactionUnits.trans resting.quiet.transactionUnits, fun u => by
    simp [World.set, touch.chain, resting.quiet.chain], touch.links.trans resting.quiet.links⟩
  activeState := fun _ => activeState
  nReloading := fun _ => nReloading
  entered := ⟨[], by simp [World.set]⟩

variable [DecidableEq U]

theorem abort {request : JobRequest U} (wf : Settled w.manager -> WellFormed m)
    (activeState : Settled w.manager -> m.activeState = w.manager.activeState)
    (nReloading : Settled w.manager -> m.nReloading = w.manager.nReloading) :
    Rests w ((w.enter request).set (transactionAbort m)) := by
  have quiet (settled : Settled w.manager) : Quiescent (transactionAbort m) := by
    rw [transactionAbort_spec m (wf settled)]
    exact ⟨rfl, fun _ => rfl, rfl⟩
  have cleared (settled : Settled w.manager) : WellFormed (transactionAbort m) := by
    rw [transactionAbort_spec m (wf settled)]
    exact (wf settled).cleared
  refine ⟨fun settled => (quiet settled).settled (cleared settled), fun resting => quiet resting.settled, ?_, ?_,
    [⟨w.manager, request⟩], rfl⟩
  · intro settled
    change (transactionAbort m).activeState = _
    rw [transactionAbort_spec m (wf settled)]
    exact activeState settled
  · intro settled
    change (transactionAbort m).nReloading = _
    rw [transactionAbort_spec m (wf settled)]
    exact nReloading settled

theorem installs (w : World U) : Rests w (w.set (installTransaction w.manager)) where
  settled := fun settled => (installTransaction_spec settled).quiet.settled (installTransaction_spec settled).wf
  quiet := fun resting => (installTransaction_spec resting.settled).quiet
  activeState := fun settled => (installTransaction_spec settled).activeState
  nReloading := fun settled => (installTransaction_spec settled).nReloading
  entered := ⟨[], by simp [World.set]⟩

variable [Fintype U] {E : Units U} {finish : FinishFunction U} {add : AddJobFunction U}

theorem addJobBody (fuel : Nat) (finishes : Finishes Rests (jobFinishAndInvalidate E fuel)) :
    Adds Rests (addJobBody E (jobFinishAndInvalidate E fuel) fuel) := by
  intro w request w' result ran
  cases addJobBody_cases ran with
  | refused e _ => exact ⟨id, Resting.quiet, fun _ => rfl, fun _ => rfl, [⟨w.manager, request⟩], rfl⟩
  | unbuilt m1 e _ built =>
    have growth (settled : Settled w.manager) := (buildTransaction_spec settled.wf built).1
    exact abort (fun settled => (growth settled).wf) (fun settled => (growth settled).growth.activeState)
      fun settled => (growth settled).growth.nReloading
  | rejected m1 m2 ret e _ built check =>
    have growth (settled : Settled w.manager) := (buildTransaction_spec settled.wf built).1
    have frame (settled : Settled w.manager) : Checked m1 m2 :=
      transactionCheck_checked (growth settled).wf check
    exact abort (fun settled => (frame settled).wf)
      (fun settled => (frame settled).activeState.trans (growth settled).growth.activeState)
      fun settled => (frame settled).nReloading.trans (growth settled).growth.nReloading
  | applied m1 m2 ret _ accepted built check applied =>
    have growth (settled : Settled w.manager) := (buildTransaction_spec settled.wf built).1
    have frame (settled : Settled w.manager) : Checked m1 m2 :=
      transactionCheck_checked (growth settled).wf check
    have checked (settled : Settled w.manager) : Settled m2 := transactionCheck_settled (growth settled).wf check
    obtain ⟨w1, rfl, rest⟩ := transactionApply_cases applied
    have cancels : Rests ((w.enter request).set m2) w1 := by
      rcases rest with ⟨-, cancelled⟩ | ⟨-, rfl⟩
      · exact route.cancelOthers finishes cancelled
      · exact refl _
    have whole := cancels.trans (installs w1)
    obtain ⟨new, entered⟩ := cancels.entered
    refine ⟨fun settled => whole.settled (checked settled), fun resting => ?_, fun settled => ?_, fun settled => ?_,
      ⟨w.manager, request⟩ :: new, by simpa [World.enter, World.set] using entered⟩
    · exact (installTransaction_spec (cancels.settled (checked resting.settled))).quiet
    · exact (whole.activeState (checked settled)).trans
        ((frame settled).activeState.trans (growth settled).growth.activeState)
    · exact (whole.nReloading (checked settled)).trans
        ((frame settled).nReloading.trans (growth settled).growth.nReloading)

omit [DecidableEq U] [Fintype U] in
theorem wake (w : World U) (u : U) : Rests w (w.set (wakeNeighbours E w.manager u)) := by
  obtain ⟨queue, same⟩ := wakeNeighbours_frame E w.manager u
  have touch : Touch w.manager (wakeNeighbours E w.manager u) := by
    rw [same]
    exact ⟨rfl, rfl, rfl, rfl, rfl, fun _ => ⟨rfl, rfl, rfl, rfl⟩⟩
  exact of_touch (fun wf => (wakeNeighbours_touch wf E u).1) touch (by rw [same]) (by rw [same])

omit [DecidableEq U] [Fintype U] in
theorem queue (w : World U) (u : U) (j : JobId) (found : w.manager.metaJob u = some j) :
    Rests w (w.set (jobAddToRunQueue w.manager j)) := by
  obtain ⟨queue, same⟩ := jobAddToRunQueue_frame w.manager j
  exact of_touch (fun wf => wf.jobAddToRunQueue j (wf.metaJobs u j found).1) (jobAddToRunQueue_touch w.manager j)
    (by rw [same]) (by rw [same])

omit [Fintype U] in
theorem free {j : JobId} (present : Present w.manager j) : Rests w (w.set (jobFree w.manager j)) where
  settled := fun settled => settled.jobFree j (settled.wf.present present)
  quiet := fun resting => resting.quiet.jobFree resting.wf j (resting.wf.present present)
  activeState := fun settled => by
    obtain ⟨gone, -, freed⟩ := settled.wf.jobFree_installed (settled.wf.present present)
    simp [World.set, freed, Manager.without]
  nReloading := fun settled => by
    obtain ⟨gone, -, freed⟩ := settled.wf.jobFree_installed (settled.wf.present present)
    simp [World.set, freed, Manager.without]
  entered := ⟨[], by simp [World.set]⟩

omit [Fintype U] in
theorem finishBody (finishes : Finishes Rests finish) (adds : Adds Rests add) :
    Finishes Rests (finishBody E finish add) := by
  intro w j result w' present ran
  cases finishBody_cases ran with
  | restarted _ =>
    let restart : Job U -> Job U := fun job => { job with state := .waiting, type := .start }
    have queued : Rests w (w.set (jobAddToRunQueue (w.manager.setJob j restart) j)) := by
      obtain ⟨queue, same⟩ := jobAddToRunQueue_frame (w.manager.setJob j restart) j
      have touch := (setJob_touch w.manager j restart fun _ => ⟨rfl, rfl, rfl, rfl⟩).trans
        (jobAddToRunQueue_touch _ j)
      refine of_touch (fun wf => ?_) touch (by rw [same]; rfl) (by rw [same]; rfl)
      exact (wf.setJob j restart (fun _ => rfl) fun _ => rfl).jobAddToRunQueue j (wf.present present)
    exact queued.trans (wake _ _)
  | freed w1 w2 failed triggered =>
    have afterFail : Rests (w.set (jobFree w.manager j)) w1 := by
      split at failed
      · exact route.failDependents finishes failed
      · exact Except.ok.inj failed ▸ refl _
    have afterTrigger : Rests w1 w2 := by
      split at triggered
      · exact route.unitTriggerOnFailure adds triggered
      · exact Except.ok.inj triggered ▸ refl _
    exact (((free present).trans afterFail).trans afterTrigger).trans (wake w2 _)

theorem engine (E : Units U) (fuel : Nat) :
    Finishes Rests (jobFinishAndInvalidate E fuel) ∧ Adds Rests (managerAddJob E fuel) :=
  engine_induction (fun _ _ _ _ _ ran => nomatch ran) (fun _ _ _ _ ran => nomatch ran)
    (fun _ => finishBody) addJobBody fuel

end Rests

section

variable [DecidableEq U] [Fintype U] {E : Units U} {fuel : Nat}

omit [DecidableEq U] [Fintype U] in
theorem resting_begun {m m' : Manager U} {j : JobId} {step : RunStep} (resting : Resting m)
    (begun : jobRunBegin E m j = (m', step)) : Resting m' := by
  have wf := resting.wf.dequeue j
  have quiet := resting.quiet
  have outcome := jobRunBegin_cases E m j
  rw [begun] at outcome
  cases outcome with
  | left => exact ⟨wf, quiet.transactionUnits, quiet.chain, quiet.links⟩
  | ran =>
    exact ⟨wf.setJob j _ (fun _ => rfl) fun _ => rfl, quiet.transactionUnits, quiet.chain, quiet.links⟩

variable {w : World U}

theorem resting_ended {w' : World U} {j : JobId} {result : Option Errno} (resting : Resting w.manager)
    (ended : jobRunEnd (jobFinishAndInvalidate E fuel) w j result = .ok w') : Resting w'.manager := by
  unfold jobRunEnd at ended
  split at ended
  · rename_i mem
    have finished : ∀ outcome, jobFinishAndInvalidate E fuel w j outcome = .ok w' -> Resting w'.manager :=
      fun outcome done => ((Rests.engine E fuel).1 w j outcome w' (.inl mem) done).resting resting
    split at ended
    · exact Except.ok.inj ended ▸ resting
    · exact finished _ ended
    · exact finished _ ended
    · rw [← Except.ok.inj ended]
      have wf := resting.wf.setJob j (fun job => { job with state := .waiting }) (fun _ => rfl) fun _ => rfl
      exact ⟨wf, resting.quiet.transactionUnits, resting.quiet.chain, resting.quiet.links⟩
    · exact finished _ ended
  · exact Except.ok.inj ended ▸ resting

theorem resting_notified {w' : World U} {u : U} {os ns : UnitActiveState} {reloadSuccess : Bool}
    {triggered : Nat} (resting : Resting w.manager) (ran : unitNotify E (jobFinishAndInvalidate E fuel)
      (managerAddJob E fuel) w u os ns reloadSuccess triggered = .ok w') : Resting w'.manager :=
  (Rests.route.unitNotify (Rests.engine E fuel).1 (Rests.engine E fuel).2 Rests.queue ran).resting resting

mutual

theorem resting_exec : ∀ (action : Action U) (w w' : World U), exec E fuel action w = .ok w' ->
    Resting w.manager -> Resting w'.manager
  | .addJob request, w, w', ran, resting => by
    rw [exec] at ran
    exact (Route.addOnce (Rests.engine E fuel).2 ran).resting resting
  | .runJob j calls result, w, w', ran, resting => by
    rw [exec] at ran
    split at ran
    · unfold jobRunAndInvalidate at ran
      rcases begun : jobRunBegin E w.manager j with ⟨m, step⟩
      rw [begun] at ran
      have resting' := resting_begun resting begun
      cases step with
      | returned _ => exact Except.ok.inj ran ▸ resting'
      | settled errno => exact resting_ended resting' ran
      | call op waits =>
        obtain ⟨⟨w1, outcome⟩, called, ended⟩ := bind_ok ran
        obtain ⟨w2, all, rest⟩ := bind_ok called
        obtain ⟨rfl, -⟩ := Prod.mk.inj (Except.ok.inj rest)
        exact resting_ended (resting_execAll calls (w.set m) w2 all resting') ended
    · cases ran
  | .finishJob j result, w, w', ran, resting => by
    rw [exec] at ran
    split at ran
    · rename_i mem
      exact ((Rests.engine E fuel).1 w j result w' (.inl mem) ran).resting resting
    · cases ran
  | .notify u ns reloadSuccess triggered, w, w', ran, resting => by
    rw [exec] at ran
    refine resting_notified ?_ ran
    exact ⟨resting.wf.withState _, resting.quiet.transactionUnits, resting.quiet.chain,
      resting.quiet.links⟩

theorem resting_execAll : ∀ (actions : List (Action U)) (w w' : World U), execAll E fuel actions w = .ok w' ->
    Resting w.manager -> Resting w'.manager
  | [], w, w', ran, resting => by
    rw [execAll] at ran
    exact Except.ok.inj ran ▸ resting
  | action :: rest, w, w', ran, resting => by
    rw [execAll] at ran
    obtain ⟨w1, first, later⟩ := bind_ok ran
    exact resting_execAll rest w1 w' later (resting_exec action w w1 first resting)

end

theorem ReachableWith.resting {refused : Refusals} (run : ReachableWith E w refused) :
    Resting w.manager := by
  induction run with
  | initial m start => exact ⟨start.wellFormed, start.quiescent⟩
  | step fuel action w w' refused _ ran ih => exact resting_exec action w w' ran ih
  | begun j w m op waits refused _ _ begun ih => exact resting_begun ih begun

structure TablesAgree (m : Manager U) : Prop where
  job : ∀ u j, m.metaJob u = some j ↔ j ∈ m.jobs ∧ (m.job j).unit = u
  installed : ∀ j ∈ m.jobs, (m.job j).installed = true ∧ j < m.currentJobId
  once : m.jobs.Nodup
  queue : m.runQueue.Nodup ∧ m.runQueue ⊆ m.jobs
  transaction : Quiescent m

-- Also in the middle of job_run_and_invalidate, when the operation of a unit asks for more jobs.
theorem job_tables_agree {refused : Refusals} (run : ReachableWith E w refused) :
    TablesAgree w.manager := by
  obtain ⟨wf, quiet⟩ := run.resting
  refine ⟨fun u j => ⟨wf.metaJobs u j, ?_⟩, fun j mem => ⟨wf.jobInstalled j mem, wf.jobFresh j mem⟩,
    wf.jobsNodup, ⟨wf.queueNodup, wf.queueJobs⟩, quiet⟩
  rintro ⟨mem, rfl⟩
  exact wf.jobMeta j mem

theorem startBoth_tables : ∃ w : World (Fin 2), 2 ∈ w.manager.jobs ∧ TablesAgree w.manager := by
  obtain ⟨w, run, found⟩ := reachableWith_of_run orderedPair 0 9 startBoth
    (fun w => decide (2 ∈ w.manager.jobs)) (by decide +kernel)
  exact ⟨w, of_decide_eq_true found, job_tables_agree run⟩

end

end Systemd
