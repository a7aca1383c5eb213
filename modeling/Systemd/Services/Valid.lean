import Systemd.Services.Reload

set_option autoImplicit false

namespace Systemd.Services

structure Tracked (cfg : Config) (pid : Int32) (pidKnown : Bool) (execStatus : ExecStatus) :
    Prop where
  proper : 1 < pid
  foreign : pid ≠ cfg.managerPid
  known : pidKnown = true
  status : execStatus.pid = pid
  running : execStatus.exitTimestamp.isSet = false

structure Core (cfg : Config) (s : Service) : Prop where
  main : s.mainPid = 0 ∨ Tracked cfg s.mainPid s.mainPidKnown s.mainExecStatus
  control : s.controlPid = 0 ∨
    0 < s.controlPid ∧ ∃ id, s.controlCommandId = some id ∧ s.controlCommand = cfg.execCommand id
  controlCommand : s.controlCommand = [] ∨ ∃ id, s.controlCommand = cfg.execCommand id
  mainCommand : s.mainCommand = [] ∨ s.mainCommand = cfg.execCommand .start
  status : s.mainExecStatus.pid = 0 ∨ 0 < s.mainExecStatus.pid
  exited : s.mainExecStatus.exitTimestamp.isSet = true -> 0 < s.mainExecStatus.pid
  unset : s.mainExecStatus.exitTimestamp.isSet = false ->
    s.mainExecStatus.code = 0 ∧ s.mainExecStatus.status = 0

structure Placed (s : Service) : Prop where
  main : s.state.keepsMain = false -> s.mainPid = 0 ∧ s.mainCommand = []
  control : s.state.keepsControl = false -> s.controlPid = 0

/-- Whether a timer that is set, or is not, fits a state. That a oneshot service has one while it
starts takes something `late`. -/
structure TimerFits (cfg : Config) (late : Prop) (state : ServiceState) (timer : Bool) : Prop where
  untimed : state.timed = false -> timer = false
  restart : state = .autoRestart -> timer = true
  limited : state.timed = true -> 0 < cfg.timeoutUsec -> timer = true ∨
    state = .start ∧ cfg.type = .oneshot
  unlimited : state ≠ .autoRestart -> cfg.timeoutUsec = 0 -> timer = false ∨ state = .finalSigterm
  oneshot : state = .start -> cfg.type = .oneshot -> timer = true -> late

structure Valid (cfg : Config) (s : Service) : Prop where
  core : Core cfg s
  placed : Placed s
  timer : TimerFits cfg True s.state s.timer

theorem setState_eq (state : ServiceState) (s : Service) :
    s.setState state =
      { s with
        state := state
        timer := s.timer && state.timed
        mainPid := if state.keepsMain then s.mainPid else 0
        mainCommand := if state.keepsMain then s.mainCommand else []
        controlPid := if state.keepsControl then s.controlPid else 0
        controlCommand := if state.keepsControl then s.controlCommand else []
        controlCommandId := if state.keepsControl then s.controlCommandId else none
        watched :=
          let main := if state.keepsMain then s.watched else s.watched.erase s.mainPid
          if state.keepsControl then main else main.erase s.controlPid
        reloadFailure := false } := by
  cases state <;> simp [Service.setState, Service.keepTimer, Service.keepMain, Service.keepControl,
    ServiceState.timed, ServiceState.keepsMain, ServiceState.keepsControl, Service.disarm,
    Service.unwatchMainPid, Service.unwatchControlPid, Service.unwatchPid]

theorem placed_setState (state : ServiceState) (s : Service) : Placed (s.setState state) := by
  rw [setState_eq]
  constructor
  · intro gone
    simp_all
  · intro gone
    simp_all

variable {cfg : Config} {s : Service}

section

variable (core : Core cfg s)
include core

theorem Core.setState (state : ServiceState) : Core cfg (s.setState state) := by
  rw [setState_eq]
  refine ⟨?_, ?_, ?_, ?_, core.status, core.exited, core.unset⟩
  · cases keeps : state.keepsMain with
    | false => exact .inl (by simp)
    | true =>
      rcases core.main with gone | tracked
      · exact .inl (by simpa using gone)
      · exact .inr ⟨by simpa using tracked.proper, by simpa using tracked.foreign, tracked.known,
          by simpa using tracked.status, tracked.running⟩
  · cases keeps : state.keepsControl with
    | false => exact .inl (by simp)
    | true => simpa using core.control
  · cases keeps : state.keepsControl with
    | false => exact .inl (by simp)
    | true => simpa using core.controlCommand
  · cases keeps : state.keepsMain with
    | false => exact .inl (by simp)
    | true => simpa using core.mainCommand

variable (ans : Answers)

theorem Core.setMainPid (pid : Int32) : Core cfg ((serviceSetMainPid cfg ans pid s).getD s) := by
  unfold serviceSetMainPid
  split
  · exact core
  · rename_i accepted
    simp only [not_or, Int32.not_le] at accepted
    have pos : 0 < pid := Int32.lt_trans (by decide) accepted.1
    have unset : (⟨0, 0⟩ : Serialization.DualTimestamp).isSet = false := by decide
    exact { core with
      main := .inr ⟨accepted.1, accepted.2, rfl, rfl, unset⟩
      status := .inr pos
      exited := fun _ => pos
      unset := fun _ => ⟨rfl, rfl⟩ }

theorem Core.adoptMainPid (pid : Int32) : Core cfg ((adoptMainPid cfg ans pid s).getD s) := by
  have set := core.setMainPid ans pid
  unfold Systemd.Services.adoptMainPid
  cases found : serviceSetMainPid cfg ans pid s with
  | none => exact core
  | some t =>
    rw [found] at set
    simp only [Option.map_some, Option.getD_some] at set ⊢
    split
    · exact { set with }
    · exact set

theorem Core.forgetMainPid : Core cfg s.forgetMainPid := by
  unfold Service.forgetMainPid
  split
  · exact { core with main := .inl rfl }
  · exact core

theorem Core.loadPidFile : Core cfg (serviceLoadPidFile cfg ans s).1 := by
  unfold serviceLoadPidFile
  split
  · rename_i pid _ _
    split
    · exact core
    · have found := core.forgetMainPid.adoptMainPid ans pid
      dsimp only
      cases adopted : Systemd.Services.adoptMainPid cfg ans pid s.forgetMainPid with
      | none => exact core.forgetMainPid
      | some t =>
        rw [adopted] at found
        exact found
  · exact core

end

end Systemd.Services
