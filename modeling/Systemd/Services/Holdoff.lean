import Systemd.Engine.BoundUnits
import Systemd.Services.Abort

set_option autoImplicit false

namespace Systemd.Services

open Loop List

structure Hosted (U : Type) where
  service : Service
  world : World U

def restartRequest {U : Type} (u : U) : JobRequest U where
  type := .start
  unit := u
  mode := .fail
  override := false

section

variable {U : Type} [DecidableEq U] [Fintype U] (E : Units U) (fuel : Nat) (u : U)

-- service_enter_dead with allow_restart = false. `told` are the calls that sockets, timers and paths
-- make when they hear of the new state, which they do before the jobs.
def hostedStayDead (told : ServiceState -> List (Action U)) (success : Bool) (x : Hosted U) :
    Except Fault (Hosted U) := do
  let service := (serviceStayDead success ⟨x.service, []⟩).service
  let world ← execAll E fuel
    (told service.state ++ [.notify u service.state.active !x.service.reloadFailure]) x.world
  .ok ⟨service, world⟩

def hostedEnterRestart (told : ServiceState -> List (Action U)) (ans : Answers) (x : Hosted U) :
    Except Fault (Hosted U) :=
  let pending := (x.world.manager.metaJob u).isSome
  if pending && !ans.watchTimer then hostedStayDead E fuel u told false x
  else do
    let x ← hostedStayDead E fuel u told true (if pending then { x with service := x.service.arm } else x)
    let (world, result) ← managerAddJob E fuel x.world (restartRequest u)
    match result with
    | .ok _ => .ok { x with world }
    | .error _ => hostedStayDead E fuel u told false { x with world }

def holdoffOver (told : ServiceState -> List (Action U)) (ans : Answers) (x : Hosted U) :
    Except Fault (Hosted U) :=
  hostedEnterRestart E fuel u told ans { x with service := x.service.disarm }

def AsksRestart (x y : Hosted U) : Prop :=
  ∃ e ∈ y.world.entered.drop x.world.entered.length, e.request = restartRequest u

structure WaitsForJob (x y : Hosted U) : Prop where
  state : y.service.state = .autoRestart
  timer : y.service.timer = true
  installed : y.world.manager.metaJob u = x.world.manager.metaJob u
  unchanged : ∀ j, x.world.manager.metaJob u = some j ->
    y.world.manager.job j = x.world.manager.job j
  unasked : ¬AsksRestart u x y

end

theorem serviceStayDead_rests (success : Bool) (run : Run) :
    ((serviceStayDead success run).service.state = .dead ∨
        (serviceStayDead success run).service.state = .failed) ∧
      (serviceStayDead success run).service.timer = false := by
  have entered : ∀ state : ServiceState, state.timed = false ->
      ((serviceSetState state (run.update (.withResult success))).update .allowRestart).service.state =
          state ∧
        ((serviceSetState state (run.update (.withResult success))).update .allowRestart).service.timer =
          false := by
    intro state untimed
    show (Service.setState state _).state = state ∧ (Service.setState state _).timer = false
    rw [setState_eq]
    exact ⟨rfl, by simp [untimed]⟩
  unfold serviceStayDead
  dsimp only
  split
  · obtain ⟨failed, unarmed⟩ := entered .failed rfl
    exact ⟨.inr failed, unarmed⟩
  · obtain ⟨dead, unarmed⟩ := entered .dead rfl
    exact ⟨.inl dead, unarmed⟩

theorem serviceStayDead_service (success : Bool) (run : Run) :
    (serviceStayDead success ⟨run.service, []⟩).service = (serviceStayDead success run).service := rfl

theorem serviceEnterRestart_rests (ans : Answers) (run : Run) :
    ((serviceEnterRestart ans run).service.state = .dead ∨
        (serviceEnterRestart ans run).service.state = .failed) ∧
      (serviceEnterRestart ans run).service.timer = false := by
  unfold serviceEnterRestart
  split
  · exact serviceStayDead_rests _ _
  · dsimp only
    split
    · exact serviceStayDead_rests _ _
    · exact serviceStayDead_rests _ _

section

variable {U : Type} [DecidableEq U] [Fintype U] {E : Units U} {fuel : Nat} {u : U}
  {told : ServiceState -> List (Action U)} {cfg : Config} {ans : Answers} {x y : Hosted U}

theorem hostedStayDead_ok {success : Bool} (ran : hostedStayDead E fuel u told success x = .ok y) :
    y.service = (serviceStayDead success ⟨x.service, []⟩).service ∧
      ∃ new, y.world.entered = x.world.entered ++ new := by
  obtain ⟨world, executed, rest⟩ := bind_ok ran
  obtain ⟨new, entered, -⟩ := (settled_kept E).execAll fuel _ _ _ executed
  rw [← Except.ok.inj rest]
  exact ⟨rfl, new, entered⟩

theorem hostedEnterRestart_ok (ran : hostedEnterRestart E fuel u told ans x = .ok y) :
    ∃ granted, y.service = (serviceEnterRestart
      { ans with jobPending := (x.world.manager.metaJob u).isSome, addJob := granted }
      ⟨x.service, []⟩).service := by
  unfold hostedEnterRestart at ran
  dsimp only at ran
  split at ran
  next refused =>
    refine ⟨true, ?_⟩
    rw [(hostedStayDead_ok ran).1, serviceEnterRestart, if_pos refused]
  next willing =>
    obtain ⟨z, dead, ran⟩ := bind_ok ran
    obtain ⟨⟨world, result⟩, added, ran⟩ := bind_ok ran
    have armed : z.service = (serviceStayDead true (if (x.world.manager.metaJob u).isSome then
        (Run.mk x.service []).update .arm else ⟨x.service, []⟩)).service := by
      rw [(hostedStayDead_ok dead).1]
      split <;> rfl
    cases result with
    | ok ret =>
      refine ⟨true, ?_⟩
      rw [← Except.ok.inj ran, serviceEnterRestart, if_neg willing]
      exact armed
    | error e =>
      refine ⟨false, ?_⟩
      rw [(hostedStayDead_ok ran).1, serviceEnterRestart, if_neg willing]
      rw [armed, serviceStayDead_service]
      rfl

theorem hostedEnterRestart_asks (watched : ans.watchTimer = true)
    (ran : hostedEnterRestart E fuel u told ans x = .ok y) : AsksRestart u x y := by
  unfold hostedEnterRestart at ran
  simp only [watched, Bool.not_true, Bool.and_false, Bool.false_eq_true, if_false] at ran
  obtain ⟨z, dead, ran⟩ := bind_ok ran
  obtain ⟨⟨world, result⟩, added, ran⟩ := bind_ok ran
  obtain ⟨front, before⟩ : ∃ new, z.world.entered = x.world.entered ++ new := by
    obtain ⟨-, new, entered⟩ := hostedStayDead_ok dead
    refine ⟨new, entered.trans ?_⟩
    split <;> rfl
  have asked := request_entered added
  obtain ⟨middle, during⟩ := ((Rests.engine E fuel).2 _ _ _ _ added).entered
  obtain ⟨back, after⟩ : ∃ new, y.world.entered = world.entered ++ new := by
    cases result with
    | ok ret => exact ⟨[], by rw [← Except.ok.inj ran, append_nil]⟩
    | error e => exact (hostedStayDead_ok ran).2
  refine ⟨⟨z.world.manager, restartRequest u⟩, ?_, rfl⟩
  rw [during, drop_left] at asked
  rw [after, during, before, append_assoc, append_assoc, drop_left]
  exact mem_append_right _ (mem_append_left _ asked)

/-- A pending job delays nothing: the timer that is set for it is gone with the next state, and the
restart is requested all the same. -/
theorem pending_job_ignored (restarting : x.service.state = .autoRestart) (armed : x.service.timer = true)
    (pending : x.world.manager.metaJob u ≠ none) (watched : ans.watchTimer = true) :
    (∃ run, handle cfg { ans with jobPending := true } .timer ⟨x.service, []⟩ = some run ∧
      (run.service.state = .dead ∨ run.service.state = .failed) ∧ run.service.timer = false) ∧
    (∀ fuel y, holdoffOver E fuel u told ans x = .ok y ->
      (y.service.state = .dead ∨ y.service.state = .failed) ∧ y.service.timer = false ∧
        ¬(AsksRestart u x y -> x.world.manager.metaJob u = none)) ∧
    ¬∃ fuel y, holdoffOver E fuel u told ans x = .ok y ∧ WaitsForJob u x y := by
  have ended : ∀ fuel y, holdoffOver E fuel u told ans x = .ok y ->
      (y.service.state = .dead ∨ y.service.state = .failed) ∧ y.service.timer = false ∧
        ¬(AsksRestart u x y -> x.world.manager.metaJob u = none) := by
    intro fuel y ran
    obtain ⟨granted, same⟩ := hostedEnterRestart_ok ran
    obtain ⟨state, timer⟩ := serviceEnterRestart_rests
      { ans with jobPending := (x.world.manager.metaJob u).isSome, addJob := granted }
      ⟨x.service.disarm, []⟩
    have asks : AsksRestart u { x with service := x.service.disarm } y :=
      hostedEnterRestart_asks watched ran
    rw [same]
    exact ⟨state, timer, fun idle => pending (idle asks)⟩
  refine ⟨⟨serviceEnterRestart { ans with jobPending := true } ⟨x.service.disarm, []⟩, ?_,
    serviceEnterRestart_rests _ _⟩, ended, ?_⟩
  · have still : x.service.disarm.state = .autoRestart := restarting
    simp only [handle, armed, if_true, serviceTimerEvent, Run.update, still]
  · rintro ⟨fuel, y, ran, waits⟩
    rcases (ended fuel y ran).1 with dead | failed
    · cases waits.state.symm.trans dead
    · cases waits.state.symm.trans failed

end

def awaiting (w : World (Fin 2)) : Hosted (Fin 2) := ⟨{ state := .autoRestart, timer := true }, w⟩

def separateUnits : Units (Fin 2) := loadedUnits 2 fun _ _ => []

-- Unit 0 is the service. It is activating as long as its restart waits, and a job is added for it.
def pendingStart : List (Action (Fin 2)) :=
  [.notify 0 .activating true, .addJob { type := .start, unit := 0, mode := .replace, override := false }]

theorem pending_start_reached :
    ∃ w, Systemd.Reachable separateUnits w ∧ w.manager.activeState 0 = ServiceState.autoRestart.active ∧
      w.manager.metaJob 0 ≠ none ∧
      ∃ y, holdoffOver separateUnits 9 0 (fun _ => []) Examples.ans (awaiting w) = .ok y ∧
        y.service.state = .dead := by
  obtain ⟨w, run, facts⟩ := reachable_of_run separateUnits 0 9 pendingStart
    (fun w => decide (w.manager.activeState 0 = .activating ∧ w.manager.metaJob 0 ≠ none ∧
      (holdoffOver separateUnits 9 0 (fun _ => []) Examples.ans (awaiting w)).toOption.any (fun y =>
        decide (y.service.state = .dead)) = true))
    (by decide +kernel)
  obtain ⟨activating, pending, ends⟩ := of_decide_eq_true facts
  cases ran : holdoffOver separateUnits 9 0 (fun _ => []) Examples.ans (awaiting w) with
  | error fault => simp [ran, Except.toOption] at ends
  | ok y => exact ⟨w, run, activating, pending, y, ran, by simpa [ran, Except.toOption] using ends⟩

theorem pending_job_ignored_start :
    ∃ w, Systemd.Reachable separateUnits w ∧ w.manager.metaJob 0 ≠ none ∧
      ¬∃ fuel y, holdoffOver separateUnits fuel 0 (fun _ => []) Examples.ans (awaiting w) = .ok y ∧
        WaitsForJob 0 (awaiting w) y := by
  obtain ⟨w, run, -, pending, -⟩ := pending_start_reached
  exact ⟨w, run, pending,
    (@pending_job_ignored (Fin 2) _ _ separateUnits 0 (fun _ => []) Examples.cfg Examples.ans
      (awaiting w) rfl rfl pending rfl).2.2⟩

/-- The job is there, the timer can be set, and the service is dead after the event. -/
theorem pending_start_does_not_wait :
    ∃ w, Systemd.Reachable separateUnits w ∧ w.manager.activeState 0 = ServiceState.autoRestart.active ∧
      w.manager.metaJob 0 ≠ none ∧ Examples.ans.watchTimer = true ∧
      ∃ y, holdoffOver separateUnits 9 0 (fun _ => []) Examples.ans (awaiting w) = .ok y ∧
        ¬WaitsForJob 0 (awaiting w) y := by
  obtain ⟨w, run, activating, pending, y, ran, dead⟩ := pending_start_reached
  exact ⟨w, run, activating, pending, rfl, y, ran, fun waits => by cases waits.state.symm.trans dead⟩

end Systemd.Services
