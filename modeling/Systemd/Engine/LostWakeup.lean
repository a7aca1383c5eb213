import Systemd.Engine.Wake

set_option autoImplicit false

namespace Systemd

open Loop List Option Function

variable {U : Type}

/-- Steps that leave no job behind: what was awake stays awake, whoever is refused or still has to
wake its neighbours. -/
def Carries (E : Units U) (w w' : World U) : Prop :=
  Settled w.manager -> Settled w'.manager ∧ Named w.manager w'.manager ∧
    ∀ pending refused, Awake E pending refused w.manager -> Awake E pending refused w'.manager

theorem carries_route (E : Units U) : Route (Carries E) where
  refl := fun w settled => ⟨settled, .refl w.manager, fun _ _ awake => awake⟩
  trans := by
    intro w w' w'' first second settled
    obtain ⟨settled', named', awake'⟩ := first settled
    obtain ⟨settled'', named'', awake''⟩ := second settled'
    exact ⟨settled'', named'.trans named'', fun pending refused awake =>
      awake'' pending refused (awake' pending refused awake)⟩

variable {E : Units U} {m m' : Manager U} {pending : U -> Prop} {j : JobId}

theorem Carries.of_undelayed {w w' : World U} (step : Settled w.manager -> Settled w'.manager ∧ Named
      w.manager w'.manager ∧ Undelayed w.manager w'.manager) : Carries E w w' := by
  intro settled
  obtain ⟨settled', named, undelayed⟩ := step settled
  exact ⟨settled', named, fun _ _ awake => awake.undelayed undelayed⟩

section

variable [DecidableEq U] {E : Units U} {finish : FinishFunction U} {add : AddJobFunction U}

theorem carries_installTransaction (w : World U) :
    Carries E w (w.set (installTransaction w.manager)) := by
  refine Carries.of_undelayed fun settled => ?_
  have installed := installTransaction_spec settled
  exact ⟨installed.quiet.settled installed.wf, named_installTransaction settled,
    undelayed_installTransaction settled⟩

variable [Fintype U]

theorem carries_jobAddToRunQueue (w : World U) (u : U) (j : JobId)
    (found : w.manager.metaJob u = some j) : Carries E w (w.set (jobAddToRunQueue w.manager j)) := by
  refine Carries.of_undelayed fun settled => ?_
  have mem := (settled.wf.metaJobs u j found).1
  exact ⟨(settled_kept E).touch _ _ settled (settled.wf.jobAddToRunQueue j mem)
    (jobAddToRunQueue_touch w.manager j), named_jobAddToRunQueue w.manager j,
    undelayed_jobAddToRunQueue w.manager j⟩

theorem carries_addJobBody (fuel : Nat) (finishes : Finishes (Carries E) (jobFinishAndInvalidate E fuel)) :
    Adds (Carries E) (addJobBody E (jobFinishAndInvalidate E fuel) fuel) := by
  intro w request w' result ran
  cases addJobBody_cases ran with
  | refused => exact (carries_route E).refl _
  | unbuilt m1 e _ built =>
    refine Carries.of_undelayed fun settled => ?_
    obtain ⟨growth, _⟩ := buildTransaction_spec settled.wf built
    obtain ⟨grown, named⟩ := undelayed_build settled.wf growth
    obtain ⟨aborted, named'⟩ := undelayed_transactionAbort growth.wf
    exact ⟨(settled_kept E).abort settled growth.wf growth.growth.metaJob, named.trans named',
      grown.trans aborted⟩
  | rejected m1 m2 ret e _ built check =>
    refine Carries.of_undelayed fun settled => ?_
    obtain ⟨growth, _⟩ := buildTransaction_spec settled.wf built
    obtain ⟨grown, named⟩ := undelayed_build settled.wf growth
    have frame := transactionCheck_checked growth.wf check
    obtain ⟨checked, named'⟩ := undelayed_check growth.wf frame
    obtain ⟨aborted, named''⟩ := undelayed_transactionAbort frame.wf
    exact ⟨(settled_kept E).abort settled frame.wf (frame.metaJob.trans growth.growth.metaJob),
      (named.trans named').trans named'', (grown.trans checked).trans aborted⟩
  | applied m1 m2 ret _ accepted built check applied =>
    have checked : Carries E w ((w.enter request).set m2) := by
      refine Carries.of_undelayed fun settled => ?_
      obtain ⟨growth, _⟩ := buildTransaction_spec settled.wf built
      obtain ⟨grown, named⟩ := undelayed_build settled.wf growth
      have frame := transactionCheck_checked growth.wf check
      obtain ⟨checked, named'⟩ := undelayed_check growth.wf frame
      exact ⟨transactionCheck_settled growth.wf check, named.trans named', grown.trans checked⟩
    exact (carries_route E).trans checked ((carries_route E).transactionApply finishes
      carries_installTransaction applied)

theorem carries_finishBody (order : OrderInverse E) (finishes : Finishes (Carries E) finish)
    (adds : Adds (Carries E) add) : Finishes (Carries E) (finishBody E finish add) := by
  intro w j result w' present ran
  cases finishBody_cases ran with
  | restarted _ =>
    refine Carries.of_undelayed fun settled => ?_
    have mem := settled.wf.present present
    let restart : Job U -> Job U := fun job => { job with state := .waiting, type := .start }
    have wf := (settled.wf.setJob j restart (fun _ => rfl) fun _ => rfl).jobAddToRunQueue j mem
    have touch := (setJob_touch w.manager j restart fun _ => ⟨rfl, rfl, rfl, rfl⟩).trans
      (jobAddToRunQueue_touch _ j)
    have named := (named_of_setJob w.manager j restart fun _ => rfl).trans (named_jobAddToRunQueue _ j)
    obtain ⟨wf', touch'⟩ := wakeNeighbours_touch wf E (w.manager.job j).unit
    exact ⟨(settled_kept E).touch _ _ settled wf' (touch.trans touch'),
      named.trans (named_wakeNeighbours E _ _),
      (undelayed_of_queued j restart).trans (undelayed_wakeNeighbours E _ _)⟩
  | freed w1 w2 failed triggered =>
    have afterFail : Carries E (w.set (jobFree w.manager j)) w1 := by
      split at failed
      · exact (carries_route E).failDependents finishes failed
      · exact Except.ok.inj failed ▸ (carries_route E).refl _
    have afterTrigger : Carries E w1 w2 := by
      split at triggered
      · exact (carries_route E).unitTriggerOnFailure adds triggered
      · exact Except.ok.inj triggered ▸ (carries_route E).refl _
    intro settled
    have mem := settled.wf.present present
    obtain ⟨settled2, named, awake⟩ :=
      (carries_route E).trans afterFail afterTrigger (settled.jobFree j mem)
    obtain ⟨wf', touch⟩ := wakeNeighbours_touch settled2.wf E (w.manager.job j).unit
    refine ⟨(settled_kept E).touch _ _ settled2 wf' touch, ?_, fun pending refused held => ?_⟩
    · exact ((named_jobFree settled.wf mem).trans named).trans (named_wakeNeighbours E _ _)
    · exact (awake _ refused (held.freed order settled.wf mem)).woken settled2.wf

theorem carries_engine (order : OrderInverse E) (fuel : Nat) :
    Finishes (Carries E) (jobFinishAndInvalidate E fuel) ∧ Adds (Carries E) (managerAddJob E fuel) :=
  engine_induction (fun _ _ _ _ _ ran => nomatch ran) (fun _ _ _ _ ran => nomatch ran)
    (fun _ => carries_finishBody order) carries_addJobBody fuel

end

/-- Who refused a job with -EAGAIN: the operation of its unit that was called for it or, for a
verify-active job, for which none is called, the look at the unit's state. -/
abbrev Refusals := List (JobId × Option UnitCall)

def Refusals.forget (refused : Refusals) (j : JobId) : Refusals :=
  refused.filter fun refusal => refusal.1 ≠ j

def Refusals.holds (refused : Refusals) (j : JobId) (type : JobType) : Prop :=
  (∃ op, (j, some op) ∈ refused) ∨ type = .verifyActive ∧ (j, none) ∈ refused

theorem Refusals.holds_forget (refused : Refusals) (j k : JobId) (type : JobType) (ne : k ≠ j)
    (held : refused.holds k type) : (refused.forget j).holds k type := by
  rcases held with ⟨op, mem⟩ | ⟨verify, mem⟩
  · exact .inl ⟨op, mem_filter.mpr ⟨mem, by simpa using ne⟩⟩
  · exact .inr ⟨verify, mem_filter.mpr ⟨mem, by simpa using ne⟩⟩

theorem Refusals.holds_cons (refused : Refusals) (refusal : JobId × Option UnitCall) (k : JobId)
    (type : JobType) (held : refused.holds k type) : Refusals.holds (refusal :: refused) k type := by
  rcases held with ⟨op, mem⟩ | ⟨verify, mem⟩
  · exact .inl ⟨op, mem_cons_of_mem _ mem⟩
  · exact .inr ⟨verify, mem_cons_of_mem _ mem⟩

theorem Awake.changed {refused refused' : JobId -> JobType -> Prop} (awake : Awake E pending refused m)
    (j : JobId) (jobs : m'.jobs = m.jobs) (metaJob : m'.metaJob = m.metaJob)
    (others : ∀ k, k ≠ j -> m'.job k = m.job k)
    (queue : ∀ k, k ≠ j -> k ∈ m.runQueue -> k ∈ m'.runQueue)
    (still : ∀ k, k ≠ j -> ∀ type, refused k type -> refused' k type) (here : Idle m' j -> refused' j
      (m'.job j).type ∨ ∃ v, Neighbour E (m'.job j).unit v ∧ (m'.metaJob v).isSome = true) :
    Awake E pending refused' m' := by
  intro k idle
  by_cases same : k = j
  · subst same
    rcases here idle with refusal | held
    · exact .inl refusal
    · exact .inr (.inl held)
  · obtain ⟨mem, waiting, unqueued⟩ := idle
    rw [others k same] at waiting ⊢
    rw [metaJob]
    rcases awake k ⟨jobs ▸ mem, waiting, fun queued => unqueued (queue k same queued)⟩ with
      refusal | held
    · exact .inl (still k same _ refusal)
    · exact .inr held

theorem neighbour_of_not_runnable (blocked : jobIsRunnable E m j = false) :
    ∃ v, Neighbour E (m.job j).unit v ∧ (m.metaJob v).isSome = true := by
  have ordered : (m.job j).ignoreOrder = false := by
    by_contra ignores
    simp [jobIsRunnable, ignores] at blocked
  by_contra alone
  have free : ∀ v, Neighbour E (m.job j).unit v -> m.metaJob v = none := by
    intro v near
    by_contra busy
    exact alone ⟨v, near, isSome_iff_ne_none.mpr busy⟩
  have runnable := (jobIsRunnable_iff E m j ordered).mpr
    ⟨fun _ v after => by simp [unitHasJob, free v (.inl after)],
      fun v before => by simp [unitHasStopLikeJob, free v (.inr before)]⟩
  simp [blocked] at runnable

theorem jobOperation_ne_returned (m : Manager U) (j : JobId) (result : Option Errno) :
    (jobOperation m j).2 ≠ .returned result := by
  cases type : (m.job j).type <;> cases state : m.activeState (m.job j).unit <;>
    simp [jobOperation, type, state]

theorem jobOperation_refuses (refuses : (jobOperation m j).2 = .settled .eagain) :
    (jobOperation m j).1 = .verifyActive := by
  cases type : (m.job j).type <;> cases state : m.activeState (m.job j).unit <;>
    simp [jobOperation, type, state] at refuses ⊢

theorem Awake.refused {refused : Refusals} (awake : Awake E pending refused.holds m) (j : JobId)
    (caller : Option UnitCall) (reason : caller = none -> (m.job j).type = .verifyActive) :
    Awake E pending (Refusals.holds ((j, caller) :: refused))
      (m.setJob j fun job => { job with state := .waiting }) := by
  refine awake.changed j rfl rfl ?_ (fun _ _ queued => queued) ?_ fun _ => .inl ?_
  · intro k ne
    simp [Manager.setJob, update_of_ne ne]
  · exact fun k _ type => Refusals.holds_cons refused _ k type
  · cases caller with
    | none => exact .inr ⟨by simpa [Manager.setJob] using reason rfl, mem_cons_self⟩
    | some op => exact .inl ⟨op, mem_cons_self⟩

/-- job_run_and_invalidate takes the job off the run queue and then either leaves it alone or sets it
running. -/
inductive BeginCase (E : Units U) (m : Manager U) (j : JobId) : Manager U × RunStep -> Prop where
  | left (result : Option Errno) : (m.job j).state ≠ .waiting ∨ jobIsRunnable E m j = false ->
      BeginCase E m j ({ m with runQueue := m.runQueue.erase j }, .returned result)
  | ran : BeginCase E m j
      (({ m with runQueue := m.runQueue.erase j } : Manager U).setJob j fun job =>
        { job with state := .running, type := (jobOperation m j).1 }, (jobOperation m j).2)

theorem jobRunBegin_cases (E : Units U) (m : Manager U) (j : JobId) :
    BeginCase E m j (jobRunBegin E m j) := by
  unfold jobRunBegin
  simp only
  split
  · rename_i running
    exact .left none (.inl running)
  · split
    · rename_i blocked
      exact .left _ (.inr (Bool.not_eq_true' _ ▸ blocked))
    · exact .ran

theorem Awake.left {refused : Refusals} (awake : Awake E pending refused.holds m)
    {result : Option Errno} (begun : jobRunBegin E m j = (m', .returned result)) :
    Awake E pending (refused.forget j).holds m' := by
  have outcome := jobRunBegin_cases E m j
  generalize same : jobRunBegin E m j = both at outcome
  rw [begun] at same
  cases outcome with
  | left _ reason =>
    obtain ⟨rfl, _⟩ := Prod.mk.inj same
    refine awake.changed j rfl rfl (fun _ _ => rfl)
      (fun k ne queued => (mem_erase_of_ne ne).mpr queued)
      (fun k ne type => refused.holds_forget j k type ne) ?_
    intro idle
    rcases reason with running | blocked
    · exact absurd idle.waiting running
    · exact .inr (neighbour_of_not_runnable blocked)
  | ran => exact absurd (Prod.mk.inj same).2.symm (jobOperation_ne_returned m j result)

theorem Awake.ran {refused : Refusals} (awake : Awake E pending refused.holds m) {step : RunStep}
    (begun : jobRunBegin E m j = (m', step)) (runs : ∀ result, step ≠ .returned result) :
    Awake E pending (refused.forget j).holds m' ∧ (m'.job j).type = (jobOperation m j).1 ∧
      step = (jobOperation m j).2 := by
  have outcome := jobRunBegin_cases E m j
  generalize same : jobRunBegin E m j = both at outcome
  rw [begun] at same
  cases outcome with
  | left result _ => exact absurd (Prod.mk.inj same).2 (runs result)
  | ran =>
    obtain ⟨rfl, rfl⟩ := Prod.mk.inj same
    refine ⟨awake.changed j rfl rfl ?_ ?_ ?_ ?_, by simp [Manager.setJob], rfl⟩
    · intro k ne
      simp [Manager.setJob, update_of_ne ne]
    · exact fun k ne queued => (mem_erase_of_ne ne).mpr queued
    · exact fun k ne type => refused.holds_forget j k type ne
    · intro idle
      have waiting := idle.waiting
      simp [Manager.setJob] at waiting

section

variable [DecidableEq U] [Fintype U]

mutual

-- History of the refusals: a job's entry goes when job_run_and_invalidate takes the job up, and comes
-- when the operation returns -EAGAIN.
def refusedAfter (E : Units U) (fuel : Nat) : Action U -> World U -> Refusals -> Refusals
  | .runJob j calls result, w, refused =>
    match jobRunBegin E w.manager j with
    | (_, .returned _) => refused.forget j
    | (_, .settled errno) =>
      if errno = .eagain then (j, none) :: refused.forget j else refused.forget j
    | (m, .call op _) =>
      let refused := refusedAfterAll E fuel calls (w.set m) (refused.forget j)
      if result = some .eagain then (j, some op) :: refused else refused
  | .addJob _, _, refused => refused
  | .finishJob _ _, _, refused => refused
  | .notify .., _, refused => refused

def refusedAfterAll (E : Units U) (fuel : Nat) : List (Action U) -> World U -> Refusals -> Refusals
  | [], _, refused => refused
  | action :: rest, w, refused =>
    match exec E fuel action w with
    | .ok w' => refusedAfterAll E fuel rest w' (refusedAfter E fuel action w refused)
    | .error _ => refused

end

/-- The states of a run with the refusals so far. `begun` stops inside job_run_and_invalidate, while
the operation of the unit is under way; the steps after it are the operation's own. -/
inductive ReachableWith (E : Units U) : World U -> Refusals -> Prop where
  | initial (m : Manager U) : Initial m -> ReachableWith E ⟨m, []⟩ []
  | step (fuel : Nat) (action : Action U) (w w' : World U) (refused : Refusals) :
      ReachableWith E w refused -> exec E fuel action w = .ok w' ->
      ReachableWith E w' (refusedAfter E fuel action w refused)
  | begun (j : JobId) (w : World U) (m : Manager U) (op : UnitCall) (waits : Bool)
      (refused : Refusals) : ReachableWith E w refused -> j ∈ w.manager.jobs ->
      jobRunBegin E w.manager j = (m, .call op waits) ->
      ReachableWith E (w.set m) (refused.forget j)

variable {w w' : World U} {E : Units U}

theorem Reachable.withRefusals (run : Reachable E w) : ∃ refused, ReachableWith E w refused := by
  induction run with
  | initial m start => exact ⟨[], .initial m start⟩
  | step fuel action w w' _ ran ih =>
    obtain ⟨refused, run⟩ := ih
    exact ⟨_, .step fuel action w w' refused run ran⟩

theorem ReachableWith.execAll (fuel : Nat) (actions : List (Action U)) {refused : Refusals}
    (run : ReachableWith E w refused) (ran : execAll E fuel actions w = .ok w') :
    ReachableWith E w' (refusedAfterAll E fuel actions w refused) := by
  induction actions generalizing w refused with
  | nil =>
    rw [Systemd.execAll] at ran
    rw [refusedAfterAll]
    exact Except.ok.inj ran ▸ run
  | cons action rest ih =>
    rw [Systemd.execAll] at ran
    obtain ⟨w1, first, later⟩ := bind_ok ran
    rw [refusedAfterAll, first]
    exact ih (.step fuel action w w1 refused run first) later

theorem reachableWith_of_run (E : Units U) (u : U) (fuel : Nat) (actions : List (Action U))
    (P : World U -> Bool)
    (run : (execAll E fuel actions ⟨startupManager u, []⟩).toOption.any P = true) :
    ∃ w, ReachableWith E w (refusedAfterAll E fuel actions ⟨startupManager u, []⟩ []) ∧ P w = true := by
  cases outcome : execAll E fuel actions ⟨startupManager u, []⟩ with
  | error fault => simp [outcome, Except.toOption] at run
  | ok w =>
    refine ⟨w, ReachableWith.execAll fuel actions (.initial _ (startupManager_initial u)) outcome, ?_⟩
    simpa [outcome, Except.toOption] using run

theorem settled_exec {fuel : Nat} {action : Action U} (settled : Settled w.manager)
    (ran : exec E fuel action w = .ok w') : Settled w'.manager := by
  obtain ⟨_, _, keeps⟩ := (settled_kept E).exec fuel action w w' ran
  exact (keeps trivial settled fun _ _ => trivial).1

theorem Awake.ended {E : Units U} (order : OrderInverse E) {fuel : Nat} {w w' : World U} {j : JobId}
    {pending : U -> Prop} {refused : Refusals} {result : Option Errno} (caller : Option UnitCall)
    (settled : Settled w.manager) (awake : Awake E pending refused.holds w.manager)
    (reason : result = some .eagain -> caller = none -> (w.manager.job j).type = .verifyActive)
    (ended : jobRunEnd (jobFinishAndInvalidate E fuel) w j result = .ok w') :
    Awake E pending
      (Refusals.holds (if result = some .eagain then (j, caller) :: refused else refused)) w'.manager := by
  unfold jobRunEnd at ended
  split at ended
  · rename_i mem
    have finished : ∀ outcome, jobFinishAndInvalidate E fuel w j outcome = .ok w' ->
        Awake E pending refused.holds w'.manager := fun outcome done =>
      ((carries_engine order fuel).1 w j outcome w' (.inl mem) done settled).2.2 pending _ awake
    split at ended
    · exact Except.ok.inj ended ▸ awake
    · exact finished _ ended
    · exact finished _ ended
    · rw [if_pos rfl, ← Except.ok.inj ended]
      exact awake.refused j caller (reason rfl)
    · rename_i errno _ _ other
      rw [if_neg fun same => other (some.inj same)]
      exact finished _ ended
  · rw [← Except.ok.inj ended]
    split
    · exact fun k idle => (awake k idle).imp_left (Refusals.holds_cons refused _ k _)
    · exact awake

mutual

theorem exec_awake {E : Units U} (order : OrderInverse E) (fuel : Nat) :
    ∀ (action : Action U) (w w' : World U) (refused : Refusals), exec E fuel action w = .ok w' ->
      Settled w.manager -> Awake E (fun _ => False) refused.holds w.manager ->
      Awake E (fun _ => False) (refusedAfter E fuel action w refused).holds w'.manager
  | .addJob request, w, w', refused, ran, settled, awake => by
    rw [exec] at ran
    rw [refusedAfter]
    exact (Route.addOnce (carries_engine order fuel).2 ran settled).2.2 _ _ awake
  | .runJob j calls result, w, w', refused, ran, settled, awake => by
    rw [exec] at ran
    rw [refusedAfter]
    split at ran
    · have settledBegun : Settled (jobRunBegin E w.manager j).1 := by
        obtain ⟨_, _, keeps⟩ := (settled_kept E).jobRunBegin w j
        exact (keeps trivial settled fun _ _ => trivial).1
      unfold jobRunAndInvalidate at ran
      rcases begun : jobRunBegin E w.manager j with ⟨m, begunStep⟩
      rw [begun] at ran settledBegun
      cases begunStep with
      | returned _ =>
        rw [← Except.ok.inj ran]
        exact awake.left begun
      | settled errno =>
        obtain ⟨awake', type, step⟩ := awake.ran begun (by simp)
        have last := awake'.ended order none settledBegun ?_ ran
        · simpa only [some.injEq] using last
        · intro again _
          rw [some.inj again] at step
          exact type.trans (jobOperation_refuses step.symm)
      | call op waits =>
        obtain ⟨awake', _, _⟩ := awake.ran begun (by simp)
        obtain ⟨⟨w1, returned⟩, called, ended⟩ := bind_ok ran
        obtain ⟨w2, all, rest⟩ := bind_ok called
        obtain ⟨rfl, rfl⟩ := Prod.mk.inj (Except.ok.inj rest)
        have awake2 := execAll_awake order fuel calls _ w2 _ all settledBegun awake'
        have settled2 : Settled w2.manager := by
          obtain ⟨_, _, keeps⟩ := (settled_kept E).execAll fuel calls _ w2 all
          exact (keeps trivial settledBegun fun _ _ => trivial).1
        have last := awake2.ended order (some op) settled2 (by simp) ended
        have same : (if waits = true ∧ result = some .ebadr then none else result) = some .eagain ↔
            result = some .eagain := by
          split_ifs with success
          · simp [success.2]
          · exact Iff.rfl
        simpa only [same] using last
    · cases ran
  | .finishJob j result, w, w', refused, ran, settled, awake => by
    rw [exec] at ran
    rw [refusedAfter]
    split at ran
    · rename_i mem
      exact ((carries_engine order fuel).1 w j result w' (.inl mem) ran settled).2.2 _ _ awake
    · cases ran
  | .notify u ns reloadSuccess triggered, w, w', refused, ran, settled, awake => by
    rw [exec] at ran
    rw [refusedAfter]
    let m : Manager U := { w.manager with activeState := update w.manager.activeState u ns }
    have moved : Settled m := ⟨settled.wf.withState _, settled.single⟩
    have still : Undelayed w.manager m := undelayed_of_kept rfl rfl rfl fun _ _ => .refl _
    obtain ⟨finishes, adds⟩ := carries_engine order fuel
    exact ((carries_route E).unitNotify finishes adds carries_jobAddToRunQueue ran moved).2.2 _ _
      (awake.undelayed still)

theorem execAll_awake {E : Units U} (order : OrderInverse E) (fuel : Nat) :
    ∀ (actions : List (Action U)) (w w' : World U) (refused : Refusals),
      execAll E fuel actions w = .ok w' -> Settled w.manager ->
      Awake E (fun _ => False) refused.holds w.manager ->
      Awake E (fun _ => False) (refusedAfterAll E fuel actions w refused).holds w'.manager
  | [], w, w', refused, ran, _, awake => by
    rw [execAll] at ran
    rw [refusedAfterAll]
    exact Except.ok.inj ran ▸ awake
  | action :: rest, w, w', refused, ran, settled, awake => by
    rw [execAll] at ran
    obtain ⟨w1, first, later⟩ := bind_ok ran
    rw [refusedAfterAll, first]
    exact execAll_awake order fuel rest w1 w' _ later (settled_exec settled first)
      (exec_awake order fuel action w w1 refused first settled awake)

end

theorem ReachableWith.awake (order : OrderInverse E) {refused : Refusals}
    (run : ReachableWith E w refused) :
    Settled w.manager ∧ Awake E (fun _ => False) refused.holds w.manager := by
  induction run with
  | initial m start =>
    refine ⟨start.quiescent.settled start.wellFormed, fun j idle => ?_⟩
    have mem := idle.mem
    simp [start.jobs] at mem
  | step fuel action w w' refused _ ran ih =>
    exact ⟨settled_exec ih.1 ran, exec_awake order fuel action w w' refused ran ih.1 ih.2⟩
  | begun j w m op waits refused _ _ begun ih =>
    refine ⟨?_, (ih.2.ran begun (by simp)).1⟩
    obtain ⟨_, _, keeps⟩ := (settled_kept E).jobRunBegin w j
    have settled := (keeps trivial ih.1 fun _ _ => trivial).1
    rwa [begun] at settled

theorem finish_requeues (order : OrderInverse E) {fuel : Nat} {k : JobId} {result : JobResult}
    (settled : Settled w.manager) (mem : j ∈ w.manager.jobs) (present : k ∈ w.manager.jobs)
    (near : Neighbour E (w.manager.job j).unit (w.manager.job k).unit)
    (ran : jobFinishAndInvalidate E fuel w k result = .ok w') (left : j ∈ w'.manager.jobs) :
    j ∈ w'.manager.runQueue := by
  obtain ⟨settled', named, _⟩ := (carries_engine order fuel).1 w k result w' (.inl present) ran settled
  have found := settled'.wf.jobMeta j left
  rw [named.unit j (settled.wf.jobFresh j mem)] at found
  cases fuel with
  | zero =>
    rw [jobFinishAndInvalidate] at ran
    cases ran
  | succ fuel =>
    rw [jobFinishAndInvalidate] at ran
    have woken : ∀ m, w'.manager = wakeNeighbours E m (w.manager.job k).unit -> j ∈ w'.manager.runQueue := by
      intro m last
      obtain ⟨queue, same⟩ := wakeNeighbours_frame E m (w.manager.job k).unit
      rw [last, same] at found
      rw [last, mem_wakeNeighbours]
      exact .inr ⟨_, order.symm near, found⟩
    cases finishBody_cases ran with
    | restarted _ => exact woken _ rfl
    | freed w1 w2 _ _ => exact woken w2.manager rfl

theorem no_lost_wakeup (E : Units U) (order : OrderInverse E) (w : World U) (refused : Refusals)
    (run : ReachableWith E w refused) (j : JobId) (mem : j ∈ w.manager.jobs)
    (waiting : (w.manager.job j).state = .waiting) (unqueued : j ∉ w.manager.runQueue) :
    (∃ op, (j, some op) ∈ refused) ∨
    ((w.manager.job j).type = .verifyActive ∧ (j, none) ∈ refused) ∨
    ∃ v k, (v ∈ E.dependencies .after (w.manager.job j).unit ∨
        v ∈ E.dependencies .before (w.manager.job j).unit) ∧
      w.manager.metaJob v = some k ∧
      ∀ fuel result w', jobFinishAndInvalidate E fuel w k result = .ok w' ->
        j ∈ w'.manager.jobs -> j ∈ w'.manager.runQueue := by
  obtain ⟨settled, awake⟩ := run.awake order
  rcases awake j ⟨mem, waiting, unqueued⟩ with (unit | state) | ⟨v, near, busy⟩ | ⟨_, never, _⟩
  · exact .inl unit
  · exact .inr (.inl state)
  · obtain ⟨k, found⟩ := isSome_iff_exists.mp busy
    obtain ⟨present, rfl⟩ := settled.wf.metaJobs v k found
    exact .inr (.inr ⟨_, k, near, found, fun fuel result w' ran left =>
      finish_requeues order settled mem present near ran left⟩)
  · exact absurd never not_false

end

def startBoth : List (Action (Fin 2)) :=
  [.addJob { type := .start, unit := 0, mode := .replace, override := false },
    .addJob { type := .start, unit := 1, mode := .replace, override := false },
    .runJob 2 [] none]

theorem no_lost_wakeup_startBoth :
    ∃ w, ReachableWith orderedPair w [] ∧ 2 ∈ w.manager.jobs ∧ 2 ∉ w.manager.runQueue ∧
      ∃ v k, (v ∈ orderedPair.dependencies .after (w.manager.job 2).unit ∨
          v ∈ orderedPair.dependencies .before (w.manager.job 2).unit) ∧
        w.manager.metaJob v = some k ∧
        ∀ fuel result w', jobFinishAndInvalidate orderedPair fuel w k result = .ok w' ->
          2 ∈ w'.manager.jobs -> 2 ∈ w'.manager.runQueue := by
  have history : refusedAfterAll orderedPair 9 startBoth ⟨startupManager 0, []⟩ [] = [] := by
    decide +kernel
  obtain ⟨w, run, facts⟩ := reachableWith_of_run orderedPair 0 9 startBoth
    (fun w => decide (2 ∈ w.manager.jobs ∧ (w.manager.job 2).state = .waiting ∧
      2 ∉ w.manager.runQueue)) (by decide +kernel)
  obtain ⟨mem, waiting, unqueued⟩ := of_decide_eq_true facts
  rw [history] at run
  refine ⟨w, run, mem, unqueued, ?_⟩
  rcases no_lost_wakeup orderedPair ⟨by decide⟩ w [] run 2 mem waiting unqueued with
    ⟨_, never⟩ | ⟨_, never⟩ | held
  · cases never
  · cases never
  · exact held

def requisitePair : Units (Fin 2) :=
  loadedUnits 2 fun kind u =>
    match kind with
    | .requisite => if u = 0 then [1] else []
    | .requiredBy => if u = 1 then [0] else []
    | _ => []

def startWhileActivating : List (Action (Fin 2)) :=
  [.notify 1 .activating false,
    .addJob { type := .start, unit := 0, mode := .replace, override := false },
    .runJob 2 [] none]

theorem verifyActive_waits_unrefused :
    ¬ ∀ (E : Units (Fin 2)) (w : World (Fin 2)) (refused : Refusals) (j : JobId), OrderInverse E ->
      ReachableWith E w refused -> j ∈ w.manager.jobs -> (w.manager.job j).state = .waiting ->
      j ∉ w.manager.runQueue ->
      (∃ op, (j, some op) ∈ refused) ∨
      ∃ v, (v ∈ E.dependencies .after (w.manager.job j).unit ∨
          v ∈ E.dependencies .before (w.manager.job j).unit) ∧
        (w.manager.metaJob v).isSome = true := by
  intro claim
  obtain ⟨w, run, facts⟩ := reachableWith_of_run requisitePair 0 9 startWhileActivating
    (fun w => decide (2 ∈ w.manager.jobs ∧ (w.manager.job 2).state = .waiting ∧
      2 ∉ w.manager.runQueue)) (by decide +kernel)
  obtain ⟨mem, waiting, unqueued⟩ := of_decide_eq_true facts
  have history : refusedAfterAll requisitePair 9 startWhileActivating ⟨startupManager 0, []⟩ [] =
      [(2, none)] := by decide +kernel
  rw [history] at run
  rcases claim requisitePair w _ 2 ⟨by decide⟩ run mem waiting unqueued with
    ⟨op, inside⟩ | ⟨v, near, _⟩
  · simp at inside
  · rcases near with after | before
    · cases after
    · cases before

end Systemd
