import Systemd.Services.Transparent
import Systemd.Shared.Reached

set_option autoImplicit false

namespace Systemd.Services

open Steps (Reached)

inductive Step where
  | event (ans : Answers) (event : Event)
  | reload (ans : Answers)

def take (cfg : Config) : Step -> Service -> Option Service
  | .event ans event, s => (handle cfg ans event ⟨s, []⟩).map Run.service
  | .reload ans, s => daemonReload cfg ans s

def limits (cfg : Config) : ServiceState -> Bool
  | .startPre | .startPost | .reload | .stop | .stopSigterm | .stopSigkill | .stopPost
  | .finalSigterm | .finalSigkill | .autoRestart => true
  | .start => cfg.type = .forking || cfg.type = .dbus || cfg.type = .notify
  | .dead | .running | .exited | .failed => false

def rests (cfg : Config) : ServiceState -> Bool
  | .dead | .running | .exited | .failed => true
  | .start => cfg.type = .oneshot
  | .startPre | .startPost | .reload | .stop | .stopSigterm | .stopSigkill | .stopPost
  | .finalSigterm | .finalSigkill | .autoRestart => false

def Undisturbed (cfg : Config) (step : Step) (s : Service) : Prop :=
  ∀ ans, step = .reload ans -> s.state = .start -> cfg.type ≠ .oneshot

section

variable {cfg : Config}

theorem fits_coldplug_undisturbed {state : ServiceState}
    (undisturbed : state = .start -> cfg.type ≠ .oneshot) :
    TimerFits cfg False state (coldplugTimer cfg state) :=
  { fits_coldplug state with oneshot := fun starting type _ => undisturbed starting type }

theorem take_event {ans : Answers} {event : Event} {s t : Service}
    (taken : take cfg (.event ans event) s = some t) :
    ∃ run, handle cfg ans event ⟨s, []⟩ = some run ∧ run.service = t :=
  Option.map_eq_some_iff.mp taken

theorem take_timed (single : Single cfg) {step : Step} {s t : Service}
    (inv : Core cfg s ∧ Ready cfg False s) (undisturbed : Undisturbed cfg step s)
    (taken : take cfg step s = some t) : Core cfg t ∧ Ready cfg False t := by
  obtain ⟨core, ready⟩ := inv
  cases step with
  | event ans event =>
    obtain ⟨run, handled, rfl⟩ := take_event taken
    have core' : Core cfg (Run.mk s []).service := core
    exact ⟨core_handle single core' ready.placed handled,
      ready_handle single ans event core' ready run handled⟩
  | reload ans =>
    have restored : Restored cfg ans s t := daemonReload_restored core ready.placed taken
    have undisturbed := undisturbed ans rfl
    refine ⟨restored.core core, restored.placed ready.placed, ?_⟩
    rw [restored.state, restored.timer]
    exact fits_coldplug_undisturbed undisturbed

theorem timer_matches_state (single : Single cfg) (limited : 0 < cfg.timeoutUsec) {s : Service}
    (reached : Reached {} (take cfg) (Undisturbed cfg) s) :
    (limits cfg s.state = true -> s.timer = true) ∧
    (rests cfg s.state = true -> s.timer = false) := by
  have loaded : Valid cfg {} := valid_loaded
  have initial : Core cfg {} ∧ Ready cfg False {} :=
    ⟨loaded.core, loaded.placed, { loaded.timer with oneshot := by simp }⟩
  obtain ⟨-, ready⟩ : Core cfg s ∧ Ready cfg False s :=
    reached.invariant (fun s => Core cfg s ∧ Ready cfg False s) initial
      fun step s t inv undisturbed taken => take_timed single inv undisturbed taken
  have fits := ready.timer
  constructor
  · intro must
    have timed : s.state.timed = true := by
      cases here : s.state <;> simp [here, limits, ServiceState.timed] at must ⊢
    rcases fits.limited timed limited with armed | ⟨starting, oneshot⟩
    · exact armed
    · simp [starting, limits, oneshot] at must
  · intro may
    by_cases starting : s.state = .start
    · have oneshot : cfg.type = .oneshot := by simpa [starting, rests] using may
      by_contra armed
      exact fits.oneshot starting oneshot (by simpa using armed)
    · apply fits.untimed
      cases here : s.state <;> simp [here, rests, ServiceState.timed] at may starting ⊢

end

namespace Examples

def oneshot : Config := { cfg with type := .oneshot, restart := .no }

def starting : Service := ((handle oneshot ans .start ⟨{}, []⟩).map Run.service).getD {}

def reloaded : Service := (daemonReload oneshot ans starting).getD {}

theorem oneshot_single : Single oneshot := by
  intro id
  cases id <;> decide

theorem timer_matches_starting :
    (limits oneshot starting.state = true -> starting.timer = true) ∧
    (rests oneshot starting.state = true -> starting.timer = false) := by
  have reached : Reached {} (take oneshot) (Undisturbed oneshot) starting :=
    .step (.event ans .start) {} starting .start (fun _ same => by cases same) rfl
  exact timer_matches_state oneshot_single (by decide) reached

theorem reload_arms_oneshot :
    Single oneshot ∧ 0 < oneshot.timeoutUsec ∧
    Reached {} (take oneshot) (fun _ _ => True) reloaded ∧
    oneshot.type = .oneshot ∧ reloaded.state = .start ∧ reloaded.timer = true := by
  have started : Reached {} (take oneshot) (fun _ _ => True) starting :=
    .step (.event ans .start) {} starting .start trivial rfl
  have reached : Reached {} (take oneshot) (fun _ _ => True) reloaded :=
    .step (.reload ans) starting reloaded started trivial rfl
  exact ⟨oneshot_single, by decide, reached, rfl, rfl, rfl⟩

end Examples

end Systemd.Services
