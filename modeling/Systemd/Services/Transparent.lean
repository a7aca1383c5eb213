import Systemd.Services.Restored

set_option autoImplicit false

namespace Systemd.Services

def TimerRestored (cfg : Config) (s : Service) : Prop :=
  (s.state = .start -> cfg.type = .oneshot -> 0 < cfg.timeoutUsec -> s.timer = true) ∧
  (s.state = .finalSigterm -> cfg.timeoutUsec = 0 -> s.timer = false)

/-- What else is not written down does not matter from now on: no bus name has come up, the main
process has the parent it had, and no start has been counted recently. -/
structure Forgettable (cfg : Config) (ans : Answers) (s : Service) : Prop where
  bus : cfg.type = .dbus -> s.busNameGood = false
  alien : s.state.live = true -> s.mainPidKnown = true ->
    s.mainPidAlien = (decide (0 < s.mainPid) && ans.alien s.mainPid)
  rate : Expired ans.now s.ratelimit

section

variable {cfg : Config} {ans : Answers} {s t : Service}

theorem Restored.core (restored : Restored cfg ans s t) (core : Core cfg s) : Core cfg t where
  main := by
    rw [restored.mainPid, restored.known]
    rcases core.main with idle | tracked
    · exact .inl idle
    · exact .inr ⟨tracked.proper, tracked.foreign, tracked.known,
        restored.execStatus.pid.trans tracked.status,
        restored.execStatus.exited.trans tracked.running⟩
  control := by
    rcases core.control with idle | ⟨running, id, known, _⟩
    · exact .inl (restored.controlPid.trans idle)
    · have same : t.controlCommandId = some id := (restored.control running).trans known
      refine .inr ⟨by rw [restored.controlPid]; exact running, id, same, ?_⟩
      rw [restored.controlCommand, same]
      rfl
  controlCommand := by
    rw [restored.controlCommand]
    cases t.controlCommandId with
    | none => exact .inl rfl
    | some id => exact .inr ⟨id, rfl⟩
  mainCommand := .inl restored.mainCommand
  status := by
    rw [restored.execStatus.pid]
    exact core.status
  exited := by
    rw [restored.execStatus.exited, restored.execStatus.pid]
    exact core.exited
  unset := by
    rw [restored.execStatus.exited, restored.execStatus.code, restored.execStatus.status]
    exact core.unset

theorem fits_coldplug (state : ServiceState) : TimerFits cfg True state (coldplugTimer cfg state) where
  untimed := fun untimed => by simp [coldplugTimer, untimed]
  restart := by
    rintro rfl
    rfl
  limited := fun timed limited => .inl (by simp [coldplugTimer, timed, limited])
  unlimited := fun restarts unlimited => .inl (by simp [coldplugTimer, restarts, unlimited])
  oneshot := fun _ _ _ => trivial

theorem Restored.placed (restored : Restored cfg ans s t) (placed : Placed s) : Placed t where
  main := fun gone =>
    ⟨restored.mainPid.trans (placed.main (restored.state ▸ gone)).1, restored.mainCommand⟩
  control := fun gone => restored.controlPid.trans (placed.control (restored.state ▸ gone))

theorem Restored.valid (restored : Restored cfg ans s t) (valid : Valid cfg s) : Valid cfg t where
  core := restored.core valid.core
  placed := restored.placed valid.placed
  timer := by
    rw [restored.state, restored.timer]
    exact fits_coldplug s.state

theorem valid_loaded : Valid cfg {} := by
  have unset : (⟨0, 0⟩ : Serialization.DualTimestamp).isSet = false := rfl
  refine ⟨⟨.inl rfl, .inl rfl, .inl rfl, .inl rfl, .inl rfl, ?_, fun _ => ⟨rfl, rfl⟩⟩,
    ⟨fun _ => ⟨rfl, rfl⟩, fun _ => rfl⟩, ⟨fun _ => rfl, ?_, ?_, fun _ _ => .inl rfl, fun _ _ _ => trivial⟩⟩
  · intro exited
    rw [unset] at exited
    cases exited
  · intro restarts
    cases restarts
  · intro timed
    cases timed

variable {now : Nat}

theorem Reachable.valid (single : Single cfg) (reachable : Reachable cfg now s) : Valid cfg s := by
  induction reachable with
  | loaded => exact valid_loaded
  | event now ans event s run _ _ handled ih =>
    have valid : Valid cfg (Run.mk s []).service := ih
    exact handle_valid single valid handled
  | reloaded now ans s t _ _ reloaded ih =>
    exact (daemonReload_restored ih.core ih.placed reloaded).valid ih

theorem Restored.timer_iff (restored : Restored cfg ans s t) (valid : Valid cfg s) :
    t.timer = s.timer ↔ TimerRestored cfg s := by
  rw [restored.timer]
  have fits := valid.timer
  unfold TimerRestored
  constructor
  · intro same
    constructor
    · intro starting _ limited
      rw [← same, starting]
      simp [coldplugTimer, ServiceState.timed, limited]
    · intro final unlimited
      rw [← same, final]
      simp [coldplugTimer, unlimited]
  · rintro ⟨oneshot, final⟩
    cases timed : s.state.timed with
    | false => simp [coldplugTimer, timed, fits.untimed timed]
    | true =>
      by_cases restarts : s.state = .autoRestart
      · simp [coldplugTimer, ServiceState.timed, restarts, fits.restart restarts]
      · rcases Nat.eq_zero_or_pos cfg.timeoutUsec with unlimited | limited
        · have quiet : s.timer = false := by
            rcases fits.unlimited restarts unlimited with off | here
            · exact off
            · exact final here unlimited
          simp [coldplugTimer, restarts, unlimited, quiet]
        · have set : s.timer = true := by
            rcases fits.limited timed limited with on | ⟨starting, type⟩
            · exact on
            · exact oneshot starting type limited
          simp [coldplugTimer, timed, limited, set]

theorem Restored.twin (restored : Restored cfg ans s t) (valid : Valid cfg s)
    (timer : t.timer = s.timer) (forbidden : s.forbidRestart = false)
    (ignore : ignores s.mainCommand = false) (forgettable : Forgettable cfg ans s) :
    Rest cfg ans.now ⟨s, []⟩ ⟨t, []⟩ where
  left := valid.core
  right := restored.core valid.core
  outputs := rfl
  same :=
    { state := restored.state.symm
      failure := restored.failure.symm
      mainPid := restored.mainPid.symm
      controlPid := restored.controlPid.symm
      known := restored.known.symm
      forbidden := forbidden.trans restored.allowed.symm
      timer := timer.symm
      code := restored.execStatus.code.symm
      control := by
        intro running
        rcases valid.core.control with idle | ⟨_, id, known, command⟩
        · exact absurd (show (0 : Int32) < 0 from idle ▸ running) (by decide)
        · rw [restored.controlCommand, restored.control running, known]
          exact command
      ignore := by
        rw [restored.mainCommand]
        exact ignore
      bus := fun type => (forgettable.bus type).trans restored.bus.symm
      alien := fun held known => (forgettable.alien held known).trans restored.alien.symm
      rate := by
        rw [restored.rate]
        exact .inr ⟨forgettable.rate, .inl rfl⟩ }

theorem Rest.handleAll (single : Single cfg) {events : List (Answers × Event)} {run twin : Run}
    (rest : Rest cfg now run twin) (valid : Valid cfg run.service) (order : Chronological now events) :
    (handleAll cfg events run).map Run.outputs = (handleAll cfg events twin).map Run.outputs := by
  induction events generalizing now run twin with
  | nil => exact congrArg some rest.outputs
  | cons first events ih =>
    obtain ⟨ans, event⟩ := first
    have later : Rest cfg ans.now run twin := Twin.later rest order.1
    have related := later.handle single valid.placed event
    simp only [Systemd.Services.handleAll]
    revert related
    cases handled : Systemd.Services.handle cfg ans event run with
    | none =>
      intro related
      cases same : Systemd.Services.handle cfg ans event twin with
      | none => rfl
      | some twin' =>
        rw [same] at related
        cases related
    | some run' =>
      intro related
      cases same : Systemd.Services.handle cfg ans event twin with
      | none =>
        rw [same] at related
        cases related
      | some twin' =>
        rw [same] at related
        cases related with
        | some rest' => exact ih rest' (handle_valid single valid handled) order.2

theorem reload_transparent (single : Single cfg) (reachable : Reachable cfg now s)
    (watchTimer : ans.watchTimer = true) (watchPid : ans.watchPid = true) :
    ∃ t, daemonReload cfg ans s = some t ∧
      (t.timer = s.timer ↔ TimerRestored cfg s) ∧
      (t.forbidRestart = s.forbidRestart ↔ s.forbidRestart = false) ∧
      (ignores t.mainCommand = ignores s.mainCommand ↔ ignores s.mainCommand = false) ∧
      (TimerRestored cfg s -> s.forbidRestart = false -> ignores s.mainCommand = false ->
        Forgettable cfg ans s -> ∀ events, Chronological ans.now events ->
          (handleAll cfg events ⟨t, []⟩).map Run.outputs =
            (handleAll cfg events ⟨s, []⟩).map Run.outputs) := by
  have valid := reachable.valid single
  obtain ⟨t, reloaded⟩ : ∃ t, daemonReload cfg ans s = some t :=
    daemonReload_succeeds s watchTimer watchPid
  have restored := daemonReload_restored valid.core valid.placed reloaded
  have timer := restored.timer_iff valid
  refine ⟨t, reloaded, timer, ?_, ?_, ?_⟩
  · rw [restored.allowed]
    exact eq_comm
  · rw [restored.mainCommand]
    exact eq_comm
  · intro fits forbidden ignore forgettable events order
    have twins := restored.twin valid (timer.mpr fits) forbidden ignore forgettable
    exact (twins.handleAll single valid order).symm

end

namespace Examples

def cfg : Config where
  type := .simple
  restart := .always
  pidFile := false
  timeoutUsec := 90000000
  remainAfterExit := false
  guessMainPid := true
  notifyAccess := .nobody
  killMode := .nothing
  sendSigkill := true
  fragmentPath := true
  execCommand := fun
    | .start => [⟨["/usr/sbin/daemon"], false⟩]
    | .stop => [⟨["/usr/sbin/daemon", "--quit"], false⟩]
    | _ => []
  managerPid := 1

def ans : Answers where
  clock := ⟨1, 1⟩
  clockRuns := rfl
  spawn := fun
    | .start => .forked 100 (by decide)
    | _ => .forked 101 (by decide)
  kill := fun _ => ⟨false, false, false, true, true⟩
  watchTimer := true
  watchPid := true
  pidFile := none
  cgroupPid := 0
  cgroupGood := false
  alive := fun _ => true
  alien := fun _ => false
  jobPending := false
  addJob := true

def later : Answers :=
  { ans with clock := ⟨20000000, 20000000⟩, clockRuns := rfl }

def started : Run := (handle cfg ans .start ⟨{}, []⟩).getD ⟨{}, []⟩

def stopped : Run := (handle cfg ans .stop ⟨started.service, []⟩).getD ⟨{}, []⟩

def forgetful : Service := (daemonReload cfg ans stopped.service).getD {}

theorem single : Single cfg := by
  intro id
  cases id <;> decide

theorem reachable_started : Reachable cfg ans.now started.service :=
  .event 0 ans .start {} started .loaded (Nat.zero_le _) rfl

theorem reachable_stopped : Reachable cfg ans.now stopped.service :=
  .event _ ans .stop _ stopped reachable_started le_rfl rfl

theorem transparent_started :
    ∃ t, daemonReload cfg later started.service = some t ∧ t.timer = started.service.timer ∧
      t.forbidRestart = started.service.forbidRestart ∧
      ignores t.mainCommand = ignores started.service.mainCommand ∧
      ∀ events, Chronological later.now events ->
        (handleAll cfg events ⟨t, []⟩).map Run.outputs =
          (handleAll cfg events ⟨started.service, []⟩).map Run.outputs := by
  obtain ⟨t, reloaded, timer, forbidden, ignore, same⟩ :=
    reload_transparent single reachable_started (show later.watchTimer = true from rfl) rfl
  have fits : TimerRestored cfg started.service :=
    ⟨fun starting => (by cases starting), fun final => (by cases final)⟩
  have forgettable : Forgettable cfg later started.service :=
    ⟨fun dbus => (by cases dbus), fun _ _ => rfl, .inr (by decide)⟩
  exact ⟨t, reloaded, timer.mpr fits, forbidden.mpr rfl, ignore.mpr rfl,
    same fits rfl rfl forgettable⟩

theorem reload_restarts_stopped :
    Single cfg ∧ Reachable cfg ans.now stopped.service ∧
    daemonReload cfg ans stopped.service = some forgetful ∧
    Chronological ans.now [(ans, .sigchld 101 1 0)] ∧
    forgetful.forbidRestart ≠ stopped.service.forbidRestart ∧
    (handleAll cfg [(ans, .sigchld 101 1 0)] ⟨forgetful, []⟩).map Run.outputs =
      some [.entered .autoRestart] ∧
    (handleAll cfg [(ans, .sigchld 101 1 0)] ⟨stopped.service, []⟩).map Run.outputs =
      some [.entered .dead] :=
  ⟨single, reachable_stopped, rfl, ⟨le_rfl, trivial⟩, by decide, by decide, by decide⟩

end Examples

end Systemd.Services
