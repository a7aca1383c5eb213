import Systemd.Services.Stopping

set_option autoImplicit false

namespace Systemd.Services

/-- A property `P` that the changes on the way to another state keep, and that gives `Q` there. The
state START is left out, since it is entered in one place only. -/
structure Passes (cfg : Config) (ans : Answers) (P Q : Run -> Prop) : Prop where
  flags : ∀ run failure reloadFailure timer, P run ->
    P (run.update fun s => { s with failure := failure, reloadFailure := reloadFailure, timer := timer })
  state : ∀ run state, state ≠ .start -> P run -> Q (serviceSetState state run)
  allow : ∀ run, Q run -> Q (run.update .allowRestart)
  absent : ∀ run, P run -> P (run.update fun s => { s.unwatchControlPid with controlCommand := [] })
  prepared : ∀ run id command rest, id ≠ .start -> cfg.execCommand id = command :: rest -> P run ->
    P (run.update fun s => { s.unwatchControlPid with
      controlCommand := command :: rest, controlCommandId := some id })
  refused : ∀ run id command timer, P run ->
    P ⟨{ run.service with timer := timer }, run.outputs ++ [.notSpawned id command]⟩
  forked : ∀ run id command pid pos timer, id ≠ .start -> ans.spawn id = .forked pid pos ->
    run.service.controlPid = 0 -> P run ->
    P ⟨{ run.service.watchPid pid with timer := timer, controlPid := pid },
      run.outputs ++ [.spawned id command]⟩

namespace Passes

variable {cfg : Config} {ans : Answers} {P Q : Run -> Prop}

variable {run : Run} {state : ServiceState} {id : ServiceExecCommand}

section

variable (passes : Passes cfg ans P Q)
include passes

variable (success : Bool)

theorem withResult (held : P run) : P (run.update (.withResult success)) :=
  passes.flags run (run.service.failure || !success) run.service.reloadFailure run.service.timer held

theorem arm (held : P run) : P (run.update .arm) :=
  passes.flags run run.service.failure run.service.reloadFailure true held

theorem reloadFailed (failed : Bool) (held : P run) :
    P (run.update fun s => { s with reloadFailure := failed }) :=
  passes.flags run run.service.failure failed run.service.timer held

theorem stayDead (held : P run) : Q (serviceStayDead success run) := by
  refine passes.allow _ (passes.state _ _ ?_ (passes.withResult success held))
  split
  · simp
  · simp

theorem enterDead (held : P run) : Q (serviceEnterDead cfg ans success run) := by
  have marked := passes.withResult success held
  unfold serviceEnterDead
  dsimp only
  split
  · split
    · exact passes.allow _ (passes.state _ _ (by simp) (passes.arm marked))
    · exact passes.stayDead _ marked
  · exact passes.stayDead _ marked

theorem enterSignalThen (other : state ≠ .start) (success : Bool) {next : Bool -> Run -> Run}
    (continued : ∀ success run, P run -> Q (next success run)) (held : P run) :
    Q (enterSignalThen cfg ans state success next run) := by
  have marked := passes.withResult success held
  unfold Systemd.Services.enterSignalThen
  dsimp only
  split
  · exact continued _ _ marked
  · exact continued _ _ marked
  · split
    · split
      · exact passes.state _ _ other (passes.arm marked)
      · exact continued _ _ marked
    · exact passes.state _ _ other marked

theorem spawnControl (other : id ≠ .start) (command : ExecCommand) (idle : run.service.controlPid = 0)
    (held : P run) :
    (∃ run' pid, serviceSpawn cfg ans id command true run = (run', some pid) ∧
      run'.service.state = run.service.state ∧
      P (run'.update fun s => { s with controlPid := pid })) ∨
    (∃ run', serviceSpawn cfg ans id command true run = (run', none) ∧
      run'.service.state = run.service.state ∧ P run') := by
  unfold serviceSpawn
  cases answer : ans.spawn id with
  | noFds => exact .inr ⟨_, rfl, rfl, passes.refused run id command false held⟩
  | failed => exact .inr ⟨_, rfl, rfl, passes.refused run id command false held⟩
  | forked pid pos =>
    exact .inl ⟨_, pid, rfl, rfl, passes.forked run id command pid pos _ other answer idle held⟩

end

theorem enterControl {R : Type} (B : R -> Prop) (passes : Passes cfg ans P Q)
    (other : id ≠ .start) (starts : state ≠ .start) {entered absent failed : Run -> R}
    (enteredB : ∀ run, Q run -> B (entered run))
    (absentB : ∀ run, P run -> run.service.controlPid = 0 -> B (absent run))
    (failedB : ∀ run, P run -> B (failed run)) (held : P run) :
    B (enterControl cfg ans id state entered absent failed run) := by
  unfold Systemd.Services.enterControl
  split
  · exact absentB _ (passes.absent run held) rfl
  · rename_i command rest found
    have prepared := passes.prepared run id command rest other found held
    rcases passes.spawnControl other command rfl prepared with
      ⟨run', pid, spawned, _, held'⟩ | ⟨run', spawned, _, held'⟩
    · rw [spawned]
      exact enteredB _ (passes.state _ _ starts held')
    · rw [spawned]
      exact failedB _ held'

section

variable (passes : Passes cfg ans P Q)
include passes

theorem enterFinalSignal (other : state ≠ .start) (success : Bool) (held : P run) :
    Q (enterFinalSignal cfg ans state success run) :=
  passes.enterSignalThen other success (fun success _ held => passes.enterDead success held) held

variable (success : Bool)

theorem enterStopPost (held : P run) : Q (serviceEnterStopPost cfg ans success run) :=
  passes.enterControl Q (by simp) (by simp) (fun _ reached => reached)
    (fun _ held _ => passes.enterFinalSignal (by simp) true held)
    (fun _ held => passes.enterFinalSignal (by simp) false held) (passes.withResult success held)

theorem enterSignal (other : state ≠ .start) (success : Bool) (held : P run) :
    Q (serviceEnterSignal cfg ans state success run) := by
  unfold serviceEnterSignal
  split
  · exact passes.enterSignalThen other success
      (fun success _ held => passes.enterStopPost success held) held
  · exact passes.enterFinalSignal other success held

theorem enterStop (held : P run) : Q (serviceEnterStop cfg ans success run) :=
  passes.enterControl Q (by simp) (by simp) (fun _ reached => reached)
    (fun _ held _ => passes.enterSignal (by simp) true held)
    (fun _ held => passes.enterSignal (by simp) false held) (passes.withResult success held)

theorem enterRunning (held : P run) : Q (serviceEnterRunning cfg ans success run) := by
  have marked := passes.withResult success held
  unfold serviceEnterRunning
  dsimp only
  split
  · exact passes.state _ _ (by simp) marked
  · split
    · exact passes.state _ _ (by simp) marked
    · exact passes.enterStop true marked

theorem enterStartPost (held : P run) : Q (serviceEnterStartPost cfg ans run) :=
  passes.enterControl Q (by simp) (by simp) (fun _ reached => reached)
    (fun _ held _ => passes.enterRunning true held) (fun _ held => passes.enterStop false held) held

theorem enterReload (held : P run) : Q (serviceEnterReload cfg ans run) :=
  passes.enterControl Q (by simp) (by simp) (fun _ reached => reached)
    (fun _ held _ => passes.enterRunning true held)
    (fun _ held => passes.enterRunning true (passes.reloadFailed true held)) held

theorem enterRestart (weaker : ∀ run, Q run -> P run) (held : P run) :
    Q (serviceEnterRestart ans run) := by
  have armed : P (if ans.jobPending then run.update .arm else run) := by
    split
    · exact passes.arm held
    · exact held
  unfold serviceEnterRestart
  split
  · exact passes.stayDead false held
  · dsimp only
    split
    · exact passes.stayDead true armed
    · exact passes.stayDead false (weaker _ (passes.stayDead true armed))

theorem timerEvent (weaker : ∀ run, Q run -> P run) (held : P run)
    (timed : run.service.state.timed = true) :
    ∃ run', serviceTimerEvent cfg ans run = some run' ∧ Q run' := by
  unfold serviceTimerEvent
  cases here : run.service.state with
  | startPre | start | stop | stopPost => exact ⟨_, rfl, passes.enterSignal (by simp) false held⟩
  | startPost => exact ⟨_, rfl, passes.enterStop false held⟩
  | reload => exact ⟨_, rfl, passes.enterRunning true (passes.reloadFailed true held)⟩
  | stopSigterm =>
    dsimp only
    split
    · exact ⟨_, rfl, passes.enterSignal (by simp) false held⟩
    · exact ⟨_, rfl, passes.enterStopPost false held⟩
  | stopSigkill => exact ⟨_, rfl, passes.enterStopPost false held⟩
  | finalSigterm =>
    dsimp only
    split
    · exact ⟨_, rfl, passes.enterSignal (by simp) false held⟩
    · exact ⟨_, rfl, passes.enterDead false held⟩
  | finalSigkill => exact ⟨_, rfl, passes.enterDead false held⟩
  | autoRestart => exact ⟨_, rfl, passes.enterRestart weaker held⟩
  | dead | running | exited | failed =>
    rw [here] at timed
    cases timed

theorem cgroupNotifyEvent (held : P run) (reached : Q run) :
    Q (serviceCgroupNotifyEvent cfg ans run) := by
  unfold serviceCgroupNotifyEvent
  cases run.service.state with
  | running => exact passes.enterRunning true held
  | stopSigterm | stopSigkill =>
    dsimp only
    split
    · exact passes.enterStopPost true held
    · exact reached
  | finalSigterm | finalSigkill =>
    dsimp only
    split
    · exact passes.enterDead true held
    · exact reached
  | dead | startPre | start | startPost | exited | reload | stop | stopPost | failed
  | autoRestart => exact reached

end

end Passes

end Systemd.Services
