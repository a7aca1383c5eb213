import Systemd.Services.Handled

set_option autoImplicit false

namespace Systemd.Services

open Option

structure Ready (cfg : Config) (late : Prop) (s : Service) : Prop where
  placed : Placed s
  timer : TimerFits cfg late s.state s.timer

def Quiet (cfg : Config) (s : Service) : Prop :=
  cfg.timeoutUsec = 0 -> s.timer = false

section

variable {cfg : Config} {late : Prop}

theorem Ready.quiet {s : Service} (ready : Ready cfg late s) (restarts : s.state ≠ .autoRestart)
    (final : s.state ≠ .finalSigterm) : Quiet cfg s :=
  fun unlimited => (ready.timer.unlimited restarts unlimited).resolve_right final

variable {state : ServiceState} {run : Run}

theorem fits_untimed (untimed : state.timed = false) (timer : Bool) :
    TimerFits cfg late state (timer && state.timed) where
  untimed := fun _ => by simp [untimed]
  restart := by
    rintro rfl
    cases untimed
  limited := fun timed => by simp [untimed] at timed
  unlimited := fun _ _ => .inl (by simp [untimed])
  oneshot := fun starting => by simp [starting, ServiceState.timed] at untimed

theorem fits_limited (timed : state.timed = true) (restarts : state ≠ .autoRestart)
    (starts : state = .start -> cfg.type ≠ .oneshot) :
    TimerFits cfg late state (decide (0 < cfg.timeoutUsec) && state.timed) where
  untimed := fun untimed => by simp [timed] at untimed
  restart := fun same => absurd same restarts
  limited := fun _ limited => .inl (by simp [limited, timed])
  unlimited := fun _ unlimited => .inl (by simp [unlimited])
  oneshot := fun starting type => absurd type (starts starting)

theorem ready_setState (run : Run)
    (fits : TimerFits cfg late state (run.service.timer && state.timed)) :
    Ready cfg late (serviceSetState state run).service := by
  refine ⟨placed_setState state run.service, ?_⟩
  rw [state_serviceSetState]
  simpa only [serviceSetState, setState_eq] using fits

variable (ans : Answers) (success : Bool)

theorem ready_stayDead (run : Run) : Ready cfg late (serviceStayDead success run).service := by
  have entered : ∀ state : ServiceState, state.timed = false ->
      Ready cfg late ((serviceSetState state (run.update (.withResult success))).update
        .allowRestart).service := by
    intro state untimed
    have ready : Ready cfg late (serviceSetState state (run.update (.withResult success))).service :=
      ready_setState _ (fits_untimed untimed _)
    exact ⟨⟨ready.placed.main, ready.placed.control⟩, ready.timer⟩
  unfold serviceStayDead
  apply entered
  split
  · rfl
  · rfl

theorem ready_enterDead (run : Run) :
    Ready cfg late (serviceEnterDead cfg ans success run).service := by
  unfold serviceEnterDead
  dsimp only
  split
  · split
    · have fits : TimerFits cfg late .autoRestart (true && ServiceState.autoRestart.timed) :=
        ⟨by simp [ServiceState.timed], fun _ => rfl, fun _ _ => .inl rfl, fun other => absurd rfl other,
          by simp⟩
      have ready := ready_setState ((run.update (.withResult success)).update .arm) fits
      exact ⟨⟨ready.placed.main, ready.placed.control⟩, ready.timer⟩
    · exact ready_stayDead _ _
  · exact ready_stayDead _ _

theorem ready_enterSignalThen (state : ServiceState) (success : Bool) {next : Bool -> Run -> Run}
    (timed : state.timed = true) (restarts : state ≠ .autoRestart) (starts : state ≠ .start)
    (quiet : Quiet cfg run.service ∨ state = .finalSigterm)
    (continued : ∀ success run, Ready cfg late (next success run).service) :
    Ready cfg late (enterSignalThen cfg ans state success next run).service := by
  unfold enterSignalThen
  dsimp only
  split
  · exact continued _ _
  · exact continued _ _
  · split
    · rename_i limited
      split
      · refine ready_setState _ ⟨?_, fun same => absurd same restarts, ?_, ?_,
        fun same => absurd same starts⟩
        · intro untimed
          simp [timed] at untimed
        · exact fun _ _ => .inl (by simp [Run.update, Service.arm, timed])
        · intro _ unlimited
          omega
      · exact continued _ _
    · rename_i unlimited
      refine ready_setState _ ⟨?_, fun same => absurd same restarts, ?_, ?_,
        fun same => absurd same starts⟩
      · intro untimed
        simp [timed] at untimed
      · exact fun _ limited => absurd limited unlimited
      · intro _ zero
        rcases quiet with silent | final
        · exact .inl (by rw [show (run.update (.withResult success)).service.timer = false from
            silent zero]; rfl)
        · exact .inr final

theorem ready_enterControl {R : Type} (P : R -> Prop) (ans : Answers) (id : ServiceExecCommand)
    (state : ServiceState) {entered absent failed : Run -> R} (timed : state.timed = true)
    (restarts : state ≠ .autoRestart) (starts : state ≠ .start)
    (enteredP : ∀ run : Run, Ready cfg late run.service -> P (entered run))
    (absentP : ∀ run' : Run, run'.service.timer = run.service.timer -> P (absent run'))
    (failedP : ∀ run : Run, run.service.timer = false -> P (failed run)) :
    P (enterControl cfg ans id state entered absent failed run) := by
  unfold enterControl serviceSpawn
  split
  · exact absentP _ rfl
  · cases ans.spawn id with
    | noFds => exact failedP _ rfl
    | failed => exact failedP _ rfl
    | forked pid pos =>
      refine enteredP _ (ready_setState _ ?_)
      have fits : TimerFits cfg late state _ := fits_limited timed restarts fun same => absurd same starts
      simpa only [Run.update, Bool.true_and] using fits

theorem ready_enterFinalSignal (state : ServiceState) (success : Bool) (timed : state.timed = true)
    (restarts : state ≠ .autoRestart) (starts : state ≠ .start)
    (quiet : Quiet cfg run.service ∨ state = .finalSigterm) :
    Ready cfg late (enterFinalSignal cfg ans state success run).service :=
  ready_enterSignalThen ans _ success timed restarts starts quiet (ready_enterDead ans)

theorem ready_enterStopPost (run : Run) :
    Ready cfg late (serviceEnterStopPost cfg ans success run).service := by
  refine ready_enterControl (fun run : Run => Ready cfg late run.service) ans .stopPost .stopPost rfl (by simp) (by simp)
    (fun _ ready => ready) (fun _ _ => ?_) fun _ _ => ?_
  · exact ready_enterFinalSignal ans _ true rfl (by simp) (by simp) (.inr rfl)
  · exact ready_enterFinalSignal ans _ false rfl (by simp) (by simp) (.inr rfl)

theorem ready_enterSignal (state : ServiceState) (success : Bool) (timed : state.timed = true)
    (restarts : state ≠ .autoRestart) (starts : state ≠ .start)
    (quiet : Quiet cfg run.service ∨ state = .finalSigterm) :
    Ready cfg late (serviceEnterSignal cfg ans state success run).service := by
  unfold serviceEnterSignal
  split
  · exact ready_enterSignalThen ans _ success timed restarts starts quiet (ready_enterStopPost ans)
  · exact ready_enterFinalSignal ans _ success timed restarts starts quiet

section

variable (quiet : Quiet cfg run.service)
include quiet

theorem ready_enterStop : Ready cfg late (serviceEnterStop cfg ans success run).service := by
  refine ready_enterControl (fun run : Run => Ready cfg late run.service) ans .stop .stop rfl (by simp) (by simp)
    (fun _ ready => ready) (fun run' same => ?_) fun run' off => ?_
  · exact ready_enterSignal ans _ true rfl (by simp) (by simp) (.inl fun unlimited => same.trans (quiet unlimited))
  · exact ready_enterSignal ans _ false rfl (by simp) (by simp) (.inl fun _ => off)

theorem ready_enterRunning : Ready cfg late (serviceEnterRunning cfg ans success run).service := by
  unfold serviceEnterRunning
  dsimp only
  split
  · exact ready_setState _ (fits_untimed rfl _)
  · split
    · exact ready_setState _ (fits_untimed rfl _)
    · exact ready_enterStop ans true quiet

theorem ready_enterStartPost : Ready cfg late (serviceEnterStartPost cfg ans run).service := by
  refine ready_enterControl (fun run : Run => Ready cfg late run.service) ans .startPost .startPost rfl (by simp) (by simp)
    (fun _ ready => ready) (fun run' same => ?_) fun run' off => ?_
  · exact ready_enterRunning ans true fun unlimited => same.trans (quiet unlimited)
  · exact ready_enterStop ans false fun _ => off

theorem ready_enterReload : Ready cfg late (serviceEnterReload cfg ans run).service := by
  refine ready_enterControl (fun run : Run => Ready cfg late run.service) ans .reload .reload rfl (by simp) (by simp)
    (fun _ ready => ready) (fun run' same => ?_) fun run' off => ?_
  · exact ready_enterRunning ans true fun unlimited => same.trans (quiet unlimited)
  · exact ready_enterRunning ans true fun _ => off

end

theorem timer_setMainPid (pid : Int32) (s : Service) :
    ((serviceSetMainPid cfg ans pid s).getD s).timer = s.timer := by
  unfold serviceSetMainPid
  split
  · rfl
  · rfl

theorem ready_enterStart {run' : Run} (entered : serviceEnterStart cfg ans run = some run') :
    Ready cfg late run'.service := by
  unfold serviceEnterStart serviceSpawn at entered
  split at entered
  · cases entered
  · split at entered
    · cases entered
    · split at entered
      · cases answer : ans.spawn .start with
        | noFds | failed =>
          simp only [answer] at entered
          obtain rfl := some.inj entered
          exact ready_enterSignal ans _ false rfl (by simp) (by simp) (.inr rfl)
        | forked pid pos =>
          simp only [answer] at entered
          obtain rfl := some.inj entered
          refine ready_setState _ ?_
          have fits : TimerFits cfg late .start _ := fits_limited rfl (by simp) (by simp [*])
          simpa only [Run.update, Bool.true_and] using fits
      · rename_i type
        cases answer : ans.spawn .start with
        | noFds | failed =>
          simp only [answer] at entered
          obtain rfl := some.inj entered
          exact ready_enterSignal ans _ false rfl (by simp) (by simp) (.inr rfl)
        | forked pid pos =>
          simp only [answer] at entered
          split at entered
          · obtain rfl := some.inj entered
            rename_i simple
            refine ready_enterStartPost ans fun unlimited => ?_
            simp only [Run.update, timer_setMainPid]
            simp [simple]
          · obtain rfl := some.inj entered
            refine ready_setState _ ⟨by simp [ServiceState.timed], by simp, ?_, ?_, ?_⟩
            · intro _ limited
              simp only [Run.update, timer_setMainPid, ServiceState.timed, limited, decide_true,
                Bool.and_true]
              cases kind : cfg.type <;> simp_all
            · intro _ unlimited
              simp only [Run.update, timer_setMainPid]
              simp [unlimited]
            · intro _ oneshot
              simp only [Run.update, timer_setMainPid]
              simp [oneshot]

theorem ready_enterStartPre {run' : Run} (entered : serviceEnterStartPre cfg ans run = some run') :
    Ready cfg late run'.service := by
  have started : ∀ run : Run, Ready cfg late run.service ->
      some run = some run' -> Ready cfg late run'.service := by
    intro run ready same
    exact some.inj same ▸ ready
  refine ready_enterControl
    (fun result : Option Run => result = some run' -> Ready cfg late run'.service)
    ans .startPre .startPre rfl (by simp) (by simp) started ?_ ?_ entered
  · intro run _ same
    exact ready_enterStart ans same
  · intro run _ same
    exact some.inj same ▸ ready_enterDead ans false run

theorem ready_enterRestart (run : Run) : Ready cfg late (serviceEnterRestart ans run).service := by
  unfold serviceEnterRestart
  split
  · exact ready_stayDead _ _
  · dsimp only
    split
    · exact ready_stayDead _ _
    · exact ready_stayDead _ _

end

end Systemd.Services
