import Systemd.Engine.JobEnds

set_option autoImplicit false

namespace Systemd

open Loop Relation

variable {U : Type}

/-- What happens at once in a run. The operation of a unit lies between the `beginJob` and the `endJob` of its
job, and what it does there are turns of their own. -/
inductive Turn (U : Type) where
  | addJob (request : JobRequest U)
  | beginJob (j : JobId)
  | endJob (j : JobId) (result : Option Errno)
  | finishJob (j : JobId) (result : JobResult)
  | notify (u : U) (ns : UnitActiveState) (reloadSuccess : Bool) (triggered : Nat := 0)

def endResult : Option Errno -> Option JobResult
  | none | some .eagain => none
  | some .ealready => some .done
  | some .enoexec => some .skipped
  | some _ => some .failed

section

variable [DecidableEq U]

def Turn.told (m : Manager U) : Turn U -> Manager U
  | .notify u ns _ _ => { m with activeState := Function.update m.activeState u ns }
  | _ => m

variable {m m' : Manager U} {reloadSuccess : Bool} {ns : UnitActiveState} {u : U} {triggered : Nat}

theorem Resting.told (resting : Resting m) (turn : Turn U) : Resting (turn.told m) := by
  cases turn with
  | notify u ns reloadSuccess triggered =>
    exact ⟨resting.wf.withState _, resting.quiet.transactionUnits, resting.quiet.chain,
      resting.quiet.links⟩
  | _ => exact resting

def Turn.ends (E : Units U) (m : Manager U) : Turn U -> Option (JobId × JobResult)
  | .addJob _ => none
  | .beginJob j =>
    match (jobRunBegin E m j).2 with
    | .settled errno => (endResult (some errno)).map (j, ·)
    | _ => none
  | .endJob j result => if j ∈ m.jobs then (endResult result).map (j, ·) else none
  | .finishJob j result => some (j, result)
  | .notify u ns reloadSuccess _ =>
    (m.metaJob u).bind fun j => (notifiedJob (m.job j) ns reloadSuccess).1.map (j, ·)

def Turn.Costs (E : Units U) (m : Manager U) (turn : Turn U) (v : U) : Prop :=
  ∃ j result, turn.ends E m = some (j, result) ∧ MayLose E (m.job j).type (m.job j).unit result v

-- The start by a timer or path of a unit that is up then is done at once.
def Turn.StartDone : Turn U -> U -> Prop
  | .notify u ns _ triggered, v => triggered ≠ 0 ∧ v = u ∧ ns.isActiveOrReloading = true
  | _, _ => False

def unexpectedly (m : Manager U) (u : U) (ns : UnitActiveState) (reloadSuccess : Bool) : Bool :=
  match m.metaJob u with
  | none => true
  | some j => (notifiedJob (m.job j) ns reloadSuccess).2

variable [Fintype U]

def perform (E : Units U) (fuel : Nat) : Turn U -> World U -> Except Fault (World U)
  | .addJob request, w => exec E fuel (.addJob request) w
  | .beginJob j, w =>
    if j ∈ w.manager.jobs then
      match jobRunBegin E w.manager j with
      | (m, .settled errno) => jobRunEnd (jobFinishAndInvalidate E fuel) (w.set m) j (some errno)
      | (m, _) => .ok (w.set m)
    else .error .assertion
  | .endJob j result, w => jobRunEnd (jobFinishAndInvalidate E fuel) w j result
  | .finishJob j result, w => exec E fuel (.finishJob j result) w
  | .notify u ns reloadSuccess triggered, w => exec E fuel (.notify u ns reloadSuccess triggered) w

def Performs (E : Units U) (fuel : Nat) (w w' : World U) : Prop :=
  ∃ turn, perform E fuel turn w = .ok w'

variable {E : Units U} {fuel : Nat}

mutual

/-- Every event of the main loop is made of turns. -/
theorem exec_performed : ∀ (action : Action U) (w w' : World U), exec E fuel action w = .ok w' ->
    ReflTransGen (Performs E fuel) w w'
  | .addJob request, _, _, ran => .single ⟨.addJob request, ran⟩
  | .runJob j calls result, w, w', ran => by
    rw [exec] at ran
    split at ran
    · rename_i mem
      unfold jobRunAndInvalidate at ran
      rcases begun : jobRunBegin E w.manager j with ⟨m, step⟩
      rw [begun] at ran
      cases step with
      | returned _ => exact .single ⟨.beginJob j, by simpa [perform, mem, begun] using ran⟩
      | settled errno => exact .single ⟨.beginJob j, by simpa [perform, mem, begun] using ran⟩
      | call op waits =>
        obtain ⟨⟨w1, outcome⟩, called, ended⟩ := bind_ok ran
        obtain ⟨w2, all, rest⟩ := bind_ok called
        obtain ⟨rfl, rfl⟩ := Prod.mk.inj (Except.ok.inj rest)
        have first : Performs E fuel w (w.set m) := ⟨.beginJob j, by simp [perform, mem, begun]⟩
        exact ((ReflTransGen.single first).trans (execAll_performed calls (w.set m) w2 all)).tail
          ⟨.endJob j _, ended⟩
    · cases ran
  | .finishJob j result, _, _, ran => .single ⟨.finishJob j result, ran⟩
  | .notify u ns reloadSuccess triggered, _, _, ran => .single ⟨.notify u ns reloadSuccess triggered, ran⟩

theorem execAll_performed : ∀ (actions : List (Action U)) (w w' : World U), execAll E fuel actions w = .ok w' ->
    ReflTransGen (Performs E fuel) w w'
  | [], w, w', ran => by
    rw [execAll] at ran
    exact Except.ok.inj ran ▸ .refl
  | action :: rest, w, w', ran => by
    rw [execAll] at ran
    obtain ⟨w1, first, later⟩ := bind_ok ran
    exact (exec_performed action w w1 first).trans (execAll_performed rest w1 w' later)

end

namespace Outlasts

variable {w w' : World U} {lost : U -> Prop}

variable {m : Manager U}

theorem of_touch (wf : WellFormed w.manager -> WellFormed m) (touch : Touch w.manager m)
    (activeState : m.activeState = w.manager.activeState)
    (nReloading : m.nReloading = w.manager.nReloading) : Outlasts E lost w (w.set m) := by
  refine of_table (.of_touch wf touch activeState nReloading) fun _ v _ has => ?_
  rw [World.set, unitHasJob, touch.metaJob]
  exact has

theorem jobRunBegin {j : JobId} {step : RunStep} (begun : jobRunBegin E w.manager j = (m, step)) :
    Outlasts E lost w (w.set m) := by
  have outcome := jobRunBegin_cases E w.manager j
  rw [begun] at outcome
  have dequeued : Touch w.manager { w.manager with runQueue := w.manager.runQueue.erase j } :=
    ⟨rfl, rfl, rfl, rfl, rfl, fun _ => ⟨rfl, rfl, rfl, rfl⟩⟩
  cases outcome with
  | left => exact of_touch (fun wf => wf.dequeue j) dequeued rfl rfl
  | ran =>
    let runs (job : Job U) : Job U := { job with state := .running, type := (jobOperation w.manager j).1 }
    exact of_touch (fun wf => (wf.dequeue j).setJob j runs (fun _ => rfl) fun _ => rfl)
      (dequeued.trans (setJob_touch _ j runs fun _ => ⟨rfl, rfl, rfl, rfl⟩)) rfl rfl

/-- The end of a job that has been run. -/
theorem jobRunEnd {j : JobId} {result : Option Errno} (resting : Resting w.manager)
    (ended : jobRunEnd (jobFinishAndInvalidate E fuel) w j result = .ok w') :
    Outlasts E (Turn.Costs E w.manager (.endJob j result)) w w' := by
  unfold Systemd.jobRunEnd at ended
  by_cases mem : j ∈ w.manager.jobs
  · rw [if_pos mem] at ended
    have finished (outcome : JobResult) (done : jobFinishAndInvalidate E fuel w j outcome = .ok w')
        (ends : endResult result = some outcome) : Outlasts E (Turn.Costs E w.manager (.endJob j result)) w w' :=
      (finish_mayLose resting (.inl mem) done).weaken fun v gone =>
        ⟨j, outcome, by simp [Turn.ends, mem, ends], gone⟩
    split at ended
    · exact Except.ok.inj ended ▸ .refl w
    · exact finished _ ended rfl
    · exact finished _ ended rfl
    · rw [← Except.ok.inj ended]
      exact of_touch (fun wf => wf.setJob j _ (fun _ => rfl) fun _ => rfl)
        (setJob_touch _ j _ fun _ => ⟨rfl, rfl, rfl, rfl⟩) rfl rfl
    · rename_i errno done other again
      refine finished _ ended ?_
      cases errno <;> simp_all [endResult]
  · rw [if_neg mem] at ended
    exact Except.ok.inj ended ▸ .refl w

theorem notifyJob (triggered : Nat) {unexpected : Bool} (resting : Resting w.manager)
    (ran : notifyJob (jobFinishAndInvalidate E fuel) w u ns reloadSuccess = .ok (w', unexpected)) :
    Outlasts E (Turn.Costs E w.manager (.notify u ns reloadSuccess triggered)) w w' ∧
      unexpected = unexpectedly w.manager u ns reloadSuccess := by
  unfold Systemd.notifyJob at ran
  cases found : w.manager.metaJob u with
  | none =>
    simp only [found] at ran
    obtain ⟨rfl, rfl⟩ := Prod.mk.inj (Except.ok.inj ran)
    exact ⟨.refl w, by simp [unexpectedly, found]⟩
  | some j =>
    simp only [found] at ran
    have flagged : unexpectedly w.manager u ns reloadSuccess =
        (notifiedJob (w.manager.job j) ns reloadSuccess).2 := by simp [unexpectedly, found]
    rw [flagged]
    obtain ⟨m, woken, outlasts, table, jobs⟩ : ∃ m, (if (w.manager.job j).state = .waiting then
        jobAddToRunQueue w.manager j else w.manager) = m ∧
        Outlasts E (Turn.Costs E w.manager (.notify u ns reloadSuccess triggered)) w (w.set m) ∧
        m.metaJob = w.manager.metaJob ∧ m.job = w.manager.job := by
      obtain ⟨queue, same⟩ := jobAddToRunQueue_frame w.manager j
      split
      · exact ⟨_, rfl, .queue w u j found, by rw [same], by rw [same]⟩
      · exact ⟨_, rfl, .refl w, rfl, rfl⟩
    rw [woken, jobs] at ran
    rcases outcome : notifiedJob (w.manager.job j) ns reloadSuccess with ⟨answer, flag⟩
    rw [outcome] at ran
    cases answer with
    | none =>
      obtain ⟨rfl, rfl⟩ := Prod.mk.inj (Except.ok.inj ran)
      exact ⟨outlasts, rfl⟩
    | some answer =>
      obtain ⟨w1, finished, rest⟩ := bind_ok ran
      obtain ⟨rfl, rfl⟩ := Prod.mk.inj (Except.ok.inj rest)
      have ended := finish_mayLose (outlasts.resting resting) (.inr ⟨u, by rw [World.set, table, found]⟩) finished
      refine ⟨outlasts.trans (ended.weaken fun v gone => ?_), rfl⟩
      rw [World.set, jobs] at gone
      exact ⟨j, answer, by simp [Turn.ends, found, outcome], gone⟩

end Outlasts

section

omit [DecidableEq U] [Fintype U]

theorem notifiedJob_queued {job : Job U} (waiting : job.state = .waiting)
    (starts : jobTypeIsSuperset job.type .start = true) :
    (notifiedJob job ns reloadSuccess).2 = false ∧ ∀ result, (notifiedJob job ns reloadSuccess).1 = some result ->
      result = .done ∧ (job.type = .restart ∨ ns.isActiveOrReloading = true) := by
  cases type : job.type <;> cases ns <;>
    simp_all [notifiedJob, jobTypeIsSuperset, UnitActiveState.isActiveOrReloading, UnitActiveState.isInactiveOrFailed]

theorem queued_costs {v : U} (wf : WellFormed m) (queued : StartQueued m u)
    (costs : Turn.Costs E m (.notify u ns reloadSuccess triggered) v) :
    v = u ∧ ns.isActiveOrReloading = true := by
  obtain ⟨j, result, ends, loses⟩ := costs
  obtain ⟨k, found, waiting, starts⟩ := queued
  obtain ⟨ended, rfl⟩ : (notifiedJob (m.job k) ns reloadSuccess).1 = some result ∧ k = j := by
    simpa [Turn.ends, found] using ends
  obtain ⟨rfl, restarts | up⟩ := (notifiedJob_queued waiting starts).2 result ended
  · simp [MayLose, restarts] at loses
  · rw [(wf.metaJobs u k found).2] at loses
    exact ⟨loses.1, up⟩

theorem KeepsJob.costs {v : U} (wf : WellFormed m) (wf' : WellFormed m') (keeps : KeepsJob m m' u)
    (costs : Turn.Costs E m' (.notify u ns reloadSuccess triggered) v) :
    Turn.Costs E m (.notify u ns reloadSuccess triggered) v := by
  obtain ⟨j, result, ends, loses⟩ := costs
  cases found : m.metaJob u with
  | none => simp [Turn.ends, keeps.1, found] at ends
  | some k =>
    have found' : m'.metaJob u = some k := keeps.1.trans found
    obtain ⟨type, state⟩ := keeps.2 k found
    have same : notifiedJob (m'.job k) ns reloadSuccess = notifiedJob (m.job k) ns reloadSuccess := by
      simp only [notifiedJob, type, state]
    obtain ⟨ended, rfl⟩ : (notifiedJob (m'.job k) ns reloadSuccess).1 = some result ∧ k = j := by
      simpa [Turn.ends, found'] using ends
    refine ⟨k, result, by simp [Turn.ends, found, ← same, ended], ?_⟩
    rwa [type, (wf'.metaJobs u k found').2, ← (wf.metaJobs u k found).2] at loses

theorem KeepsJob.unexpectedly (keeps : KeepsJob m m' u) (ns : UnitActiveState) (reloadSuccess : Bool) :
    unexpectedly m' u ns reloadSuccess = Systemd.unexpectedly m u ns reloadSuccess := by
  unfold Systemd.unexpectedly
  rw [keeps.1]
  cases found : m.metaJob u with
  | none => rfl
  | some k =>
    obtain ⟨type, state⟩ := keeps.2 k found
    simp only [notifiedJob, type, state]

end

/-- What timers and paths ask for, the job, the units it is needed by or needs, its OnFailure= units, its own need. -/
theorem unitNotify_stages {os : UnitActiveState} {w w' : World U} (lost : U -> Prop) (ran : unitNotify E
      (jobFinishAndInvalidate E fuel) (managerAddJob E fuel) w u os ns reloadSuccess triggered = .ok w')
      :
    ∃ w0 w1 unexpected w2 w3, triggersNotify (managerAddJob E fuel) w u triggered = .ok w0 ∧
      notifyJob (jobFinishAndInvalidate E fuel) w0 u ns reloadSuccess = .ok (w1, unexpected) ∧
        Outlasts E lost w1 w2 ∧ Outlasts E lost w2 w3 ∧
        unitCheckUnneeded E (managerAddJob E fuel) w3 u = .ok w' ∧
        (w1.manager.nReloading = 0 -> unexpected = true -> os.isActiveOrActivating = true ->
          ns.isInactiveOrDeactivating = true ->
            retroactivelyStopDependencies E (managerAddJob E fuel) w1 u = .ok w2) := by
  have route : Route (Outlasts E lost) := Outlasts.route
  have adds : Adds (Outlasts E lost) (managerAddJob E fuel) := Outlasts.add
  unfold unitNotify at ran
  obtain ⟨w0, again, ran⟩ := bind_ok ran
  obtain ⟨⟨w1, unexpected⟩, notified, ran⟩ := bind_ok ran
  have ending (w2 : World U) (rest : (if ns ≠ os ∧ ns = .failed then do
        let w ← unitTriggerOnFailure E (managerAddJob E fuel) w2 u
        unitCheckUnneeded E (managerAddJob E fuel) w u
      else do
        let w ← Except.ok w2
        unitCheckUnneeded E (managerAddJob E fuel) w u) = .ok w') :
      ∃ w3, Outlasts E lost w2 w3 ∧ unitCheckUnneeded E (managerAddJob E fuel) w3 u = .ok w' := by
    split at rest
    · obtain ⟨w3, triggered, checked⟩ := bind_ok rest
      exact ⟨w3, route.unitTriggerOnFailure adds triggered, checked⟩
    · exact ⟨w2, .refl w2, rest⟩
  by_cases idle : w1.manager.nReloading = 0
  · simp only [idle, if_true] at ran
    split at ran
    · rename_i surprise
      split at ran
      · rename_i starts
        obtain ⟨w2, started, rest⟩ := bind_ok ran
        obtain ⟨w3, last, checked⟩ := ending w2 rest
        have first := route.retroactivelyStartDependencies adds started
        refine ⟨w0, w1, unexpected, w2, w3, again, notified, first, last, checked, fun _ _ alive _ => ?_⟩
        revert starts alive
        cases os <;> simp [UnitActiveState.isInactiveOrFailed, UnitActiveState.isActiveOrActivating]
      · split at ran
        · obtain ⟨w2, stopped, rest⟩ := bind_ok ran
          obtain ⟨w3, last, checked⟩ := ending w2 rest
          have first := route.retroactivelyStopDependencies adds stopped
          exact ⟨w0, w1, unexpected, w2, w3, again, notified, first, last, checked, fun _ _ _ _ => stopped⟩
        · rename_i stays
          obtain ⟨w3, last, checked⟩ := ending w1 ran
          refine ⟨w0, w1, unexpected, w1, w3, again, notified, .refl w1, last, checked, fun _ _ alive gone => ?_⟩
          simp [alive, gone] at stays
    · rename_i calm
      obtain ⟨w3, last, checked⟩ := ending w1 ran
      exact ⟨w0, w1, unexpected, w1, w3, again, notified, .refl w1, last, checked,
        fun _ surprise => absurd surprise calm⟩
  · simp only [idle, if_false] at ran
    exact ⟨w0, w1, unexpected, w1, w1, again, notified, .refl w1, .refl w1, ran, fun reading => absurd reading idle⟩

omit [DecidableEq U] [Fintype U] in
theorem begun_settled {j : JobId} {errno : Errno} (begun : jobRunBegin E m j = (m', .settled errno)) :
    (m'.job j).type = (m.job j).type ∧ (m'.job j).unit = (m.job j).unit := by
  have outcome := jobRunBegin_cases E m j
  rw [begun] at outcome
  generalize settled : RunStep.settled errno = step at outcome
  cases outcome with
  | left => cases settled
  | ran =>
    simp only [Manager.setJob, Function.update_self, and_true]
    revert settled
    unfold jobOperation
    cases (m.job j).type <;> simp only [reduceCtorEq, implies_true]
    all_goals
      split
      · simp
      · try split
        all_goals simp

/-- A turn costs units their jobs only with the one it ends, but for a start that a timer or path asks for. -/
theorem perform_outlasts {turn : Turn U} {w w' : World U} (resting : Resting w.manager)
    (ran : perform E fuel turn w = .ok w') :
    Outlasts E (fun v => turn.Costs E w.manager v ∨ turn.StartDone v) (w.set (turn.told w.manager)) w' := by
  cases turn with
  | addJob request =>
    rw [perform, exec] at ran
    exact Route.addOnce Outlasts.add ran
  | beginJob j =>
    rw [perform] at ran
    split at ran
    · rename_i mem
      rcases begun : jobRunBegin E w.manager j with ⟨m, step⟩
      have first : Outlasts E (fun v => Turn.Costs E w.manager (.beginJob j) v ∨ False) w (w.set m) :=
        .jobRunBegin begun
      rw [begun] at ran
      cases step with
      | returned _ => exact Except.ok.inj ran ▸ first
      | call op waits => exact Except.ok.inj ran ▸ first
      | settled errno =>
        have ended := Outlasts.jobRunEnd (first.resting resting) ran
        refine first.trans (ended.weaken fun v gone => ?_)
        obtain ⟨k, result, ends, costs⟩ := gone
        obtain ⟨type, unit⟩ := begun_settled begun
        have settles : endResult (some errno) = some result ∧ j = k := by
          simp only [Turn.ends] at ends
          split at ends
          · simpa using ends
          · cases ends
        obtain ⟨settles, rfl⟩ := settles
        exact .inl ⟨j, result, by simp [Turn.ends, begun, settles], by rwa [← type, ← unit]⟩
    · cases ran
  | endJob j result => exact (Outlasts.jobRunEnd resting ran).weaken fun _ => .inl
  | finishJob j result =>
    rw [perform, exec] at ran
    split at ran
    · rename_i mem
      exact (finish_mayLose resting (.inl mem) ran).weaken fun v gone => .inl ⟨j, result, rfl, gone⟩
    · cases ran
  | notify u ns reloadSuccess triggered =>
    rw [perform, exec] at ran
    have resting0 := resting.told (.notify u ns reloadSuccess triggered)
    let lost (v : U) : Prop := Turn.Costs E w.manager (.notify u ns reloadSuccess triggered) v ∨
      Turn.StartDone (.notify u ns reloadSuccess triggered) v
    obtain ⟨w0, w1, unexpected, w2, w3, again, notified, retroactive, onFailure, checked, -⟩ :=
      unitNotify_stages lost ran
    have restarts : Outlasts E lost _ w0 := Outlasts.route.triggersNotify Outlasts.add again
    have restingV := restarts.resting resting0
    have first : Outlasts E lost w0 w1 := (Outlasts.notifyJob triggered restingV notified).1.weaken fun v costs => by
      rcases triggersNotify_leaves (w := w.set _) resting0 again with keeps | ⟨starts, queued⟩
      · exact .inl (KeepsJob.costs resting.wf restingV.wf keeps costs)
      · exact .inr ⟨starts, queued_costs restingV.wf queued costs⟩
    have last : Outlasts E lost w3 w' := Outlasts.route.unitCheckUnneeded Outlasts.add checked
    exact (((restarts.trans first).trans retroactive).trans onFailure).trans last

end

end Systemd
