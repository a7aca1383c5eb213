import Systemd.Services.Valid

set_option autoImplicit false

namespace Systemd.Services

def Expired (now : Nat) (r : RateLimit) : Prop :=
  r.begin = 0 ∨ r.begin + ratelimitInterval < now

/-- Two services that cannot be told apart from `now` on. Whether the main process is alien counts
only if `live`. -/
structure Same (cfg : Config) (now : Nat) (live : Prop) (s t : Service) : Prop where
  state : s.state = t.state
  failure : s.failure = t.failure
  mainPid : s.mainPid = t.mainPid
  controlPid : s.controlPid = t.controlPid
  known : s.mainPidKnown = t.mainPidKnown
  forbidden : s.forbidRestart = t.forbidRestart
  timer : s.timer = t.timer
  code : s.mainExecStatus.code = t.mainExecStatus.code
  control : 0 < s.controlPid -> s.controlCommand = t.controlCommand
  ignore : ignores s.mainCommand = ignores t.mainCommand
  bus : cfg.type = .dbus -> s.busNameGood = t.busNameGood
  alien : live -> s.mainPidKnown = true -> s.mainPidAlien = t.mainPidAlien
  rate : s.ratelimit = t.ratelimit ∨ Expired now s.ratelimit ∧ Expired now t.ratelimit

theorem Same.refl (cfg : Config) (now : Nat) (live : Prop) (s : Service) : Same cfg now live s s :=
  ⟨rfl, rfl, rfl, rfl, rfl, rfl, rfl, rfl, fun _ => rfl, rfl, fun _ => rfl, fun _ _ => rfl, .inl rfl⟩

structure Twin (cfg : Config) (now : Nat) (live : Prop) (run twin : Run) : Prop where
  left : Core cfg run.service
  right : Core cfg twin.service
  same : Same cfg now live run.service twin.service
  outputs : run.outputs = twin.outputs

section

variable {cfg : Config} {now : Nat} {live : Prop} {run twin : Run}

theorem Twin.refl (core : Core cfg run.service) : Twin cfg now live run run :=
  ⟨core, core, .refl cfg now live run.service, rfl⟩

theorem Twin.mono {live' : Prop} (twins : Twin cfg now live run twin) (less : live' -> live) :
    Twin cfg now live' run twin :=
  { twins with same := { twins.same with alien := fun held => twins.same.alien (less held) } }

theorem Twin.later {now' : Nat} (twins : Twin cfg now live run twin) (order : now ≤ now') :
    Twin cfg now' live run twin := by
  refine { twins with same := { twins.same with rate := ?_ } }
  have expired : ∀ r, Expired now r -> Expired now' r := fun r old => by
    unfold Expired at old ⊢
    omega
  rcases twins.same.rate with equal | ⟨first, second⟩
  · exact .inl equal
  · exact .inr ⟨expired _ first, expired _ second⟩

theorem Same.setState {s t : Service} (same : Same cfg now live s t) (state : ServiceState) :
    Same cfg now live (s.setState state) (t.setState state) := by
  rw [setState_eq, setState_eq]
  refine { same with
    state := rfl
    timer := by simp [same.timer]
    mainPid := by simp [same.mainPid]
    controlPid := by simp [same.controlPid]
    control := ?_
    ignore := ?_ }
  · intro pos
    cases keeps : state.keepsControl with
    | false => simp
    | true => simpa [keeps] using same.control (by simpa [keeps] using pos)
  · cases keeps : state.keepsMain with
    | false => simp
    | true => simpa [keeps] using same.ignore

namespace Twin

section

variable (twins : Twin cfg now live run twin)
include twins

theorem setState (state : ServiceState) :
    Twin cfg now live (serviceSetState state run) (serviceSetState state twin) :=
  ⟨twins.left.setState state, twins.right.setState state, twins.same.setState state, by
    rw [serviceSetState, serviceSetState, twins.outputs]⟩

theorem withResult (success : Bool) :
    Twin cfg now live (run.update (.withResult success)) (twin.update (.withResult success)) where
  left := { twins.left with }
  right := { twins.right with }
  same := { twins.same with
    failure := by
      show (run.service.failure || !success) = (twin.service.failure || !success)
      rw [twins.same.failure] }
  outputs := twins.outputs

theorem arm : Twin cfg now live (run.update .arm) (twin.update .arm) where
  left := { twins.left with }
  right := { twins.right with }
  same := { twins.same with timer := rfl }
  outputs := twins.outputs

theorem disarm : Twin cfg now live (run.update .disarm) (twin.update .disarm) where
  left := { twins.left with }
  right := { twins.right with }
  same := { twins.same with timer := rfl }
  outputs := twins.outputs

theorem allowRestart : Twin cfg now live (run.update .allowRestart) (twin.update .allowRestart) where
  left := { twins.left with }
  right := { twins.right with }
  same := { twins.same with forbidden := rfl }
  outputs := twins.outputs

theorem stayDead (success : Bool) :
    Twin cfg now live (serviceStayDead success run) (serviceStayDead success twin) := by
  have marked := twins.withResult success
  unfold serviceStayDead
  simp only [marked.same.failure]
  exact (marked.setState _).allowRestart

theorem enterDead (ans : Answers) (success : Bool) :
    Twin cfg now live (serviceEnterDead cfg ans success run)
      (serviceEnterDead cfg ans success twin) := by
  have marked := twins.withResult success
  have wanted : restartWanted cfg (run.update (.withResult success)).service =
      restartWanted cfg (twin.update (.withResult success)).service := by
    simp only [restartWanted, marked.same.failure, marked.same.code]
  unfold serviceEnterDead
  simp only [marked.same.forbidden, wanted]
  split
  · split
    · exact (marked.arm.setState _).allowRestart
    · exact marked.stayDead false
  · exact marked.stayDead true

end

theorem killProcesses (twins : Twin cfg now True run twin) (ans : Answers) (state : ServiceState) :
    killProcesses cfg ans state run.service = killProcesses cfg ans state twin.service := by
  have same := twins.same
  rcases twins.left.main with gone | tracked
  · have gone' : twin.service.mainPid = 0 := same.mainPid ▸ gone
    simp [Systemd.Services.killProcesses, gone, gone', same.controlPid]
  · simp only [Systemd.Services.killProcesses, same.mainPid, same.controlPid,
      same.alien trivial tracked.known]

theorem enterSignalThen (twins : Twin cfg now True run twin) (ans : Answers)
    (state : ServiceState) (success : Bool) (next : Bool -> Run -> Run) (continued : ∀ success run twin,
      Twin cfg now True run twin -> Twin cfg now True (next success run) (next success twin)) :
    Twin cfg now True (enterSignalThen cfg ans state success next run)
      (enterSignalThen cfg ans state success next twin) := by
  have marked := twins.withResult success
  unfold Systemd.Services.enterSignalThen
  simp only [marked.killProcesses ans state]
  split
  · exact continued _ _ _ marked
  · exact continued _ _ _ marked
  · split
    · split
      · exact marked.arm.setState state
      · exact continued _ _ _ marked
    · exact marked.setState state

structure Prepared (cfg : Config) (id : ServiceExecCommand) (s : Service) : Prop where
  command : s.controlCommand = cfg.execCommand id
  id : s.controlCommandId = some id

theorem started (twins : Twin cfg now live run twin) (id : ServiceExecCommand)
    (prepared : Prepared cfg id run.service) (prepared' : Prepared cfg id twin.service)
    {pid : Int32} (pos : 0 < pid) :
    Twin cfg now live (run.update fun s => { s with controlPid := pid })
      (twin.update fun s => { s with controlPid := pid }) where
  left := { twins.left with control := .inr ⟨pos, id, prepared.id, prepared.command⟩ }
  right := { twins.right with control := .inr ⟨pos, id, prepared'.id, prepared'.command⟩ }
  same := { twins.same with
    controlPid := rfl
    control := fun _ => prepared.command.trans prepared'.command.symm }
  outputs := twins.outputs

inductive SpawnCase (cfg : Config) (now : Nat) (live : Prop) (timeout : Bool) (run twin : Run) :
    Run × Option Int32 -> Run × Option Int32 -> Prop where
  | forked (pid : Int32) (pos : 0 < pid) (run' twin' : Run) :
      Twin cfg now live run' twin' ->
      run'.service =
        { run.service.watchPid pid with timer := timeout && decide (0 < cfg.timeoutUsec) } ->
      twin'.service =
        { twin.service.watchPid pid with timer := timeout && decide (0 < cfg.timeoutUsec) } ->
      SpawnCase cfg now live timeout run twin (run', some pid) (twin', some pid)
  | failed (run' twin' : Run) : Twin cfg now live run' twin' ->
      (timeout = true -> run'.service.timer = false) ->
      SpawnCase cfg now live timeout run twin (run', none) (twin', none)

theorem spawn (twins : Twin cfg now live run twin) (ans : Answers) (id : ServiceExecCommand)
    (command : ExecCommand) (timeout : Bool) :
    SpawnCase cfg now live timeout run twin (serviceSpawn cfg ans id command timeout run)
      (serviceSpawn cfg ans id command timeout twin) := by
  have refused : ∀ run twin : Run, Twin cfg now live run twin -> Twin cfg now live
      ⟨run.service, run.outputs ++ [.notSpawned id command]⟩
      ⟨twin.service, twin.outputs ++ [.notSpawned id command]⟩ := by
    intro run twin twins
    exact ⟨twins.left, twins.right, twins.same, by rw [twins.outputs]⟩
  unfold serviceSpawn
  split
  · cases timeout with
    | true => exact .failed _ _ (refused _ _ twins.disarm) fun _ => rfl
    | false => exact .failed _ _ (refused _ _ twins) (by simp)
  · exact .failed _ _ (refused _ _ twins.disarm) fun _ => rfl
  · rename_i pid pos _
    refine .forked pid pos _ _ ⟨{ twins.left with }, { twins.right with },
      { twins.same with timer := rfl }, ?_⟩ rfl rfl
    rw [twins.outputs]

theorem enterControl {R : Type} (Q : R -> R -> Prop) (twins : Twin cfg now live run twin)
    (ans : Answers) (id : ServiceExecCommand) (state : ServiceState) {entered absent failed : Run -> R}
    (enteredQ : ∀ run twin, Twin cfg now live run twin -> Q (entered run) (entered twin)) (absentQ : ∀
      run twin, Twin cfg now live run twin -> run.service.controlPid = 0 -> Q (absent run) (absent
      twin)) (failedQ : ∀ run twin, Twin cfg now live run twin -> Q (failed run) (failed twin)) :
    Q (enterControl cfg ans id state entered absent failed run)
      (enterControl cfg ans id state entered absent failed twin) := by
  unfold Systemd.Services.enterControl
  split
  · refine absentQ _ _ ⟨?_, ?_, ?_, twins.outputs⟩ rfl
    · exact { twins.left with control := .inl rfl, controlCommand := .inl rfl }
    · exact { twins.right with control := .inl rfl, controlCommand := .inl rfl }
    · exact { twins.same with controlPid := rfl, control := fun _ => rfl }
  · rename_i command rest found
    have prepared : Twin cfg now live
        (run.update fun s => { s.unwatchControlPid with
          controlCommand := command :: rest, controlCommandId := some id })
        (twin.update fun s => { s.unwatchControlPid with
          controlCommand := command :: rest, controlCommandId := some id }) := by
      refine ⟨?_, ?_, ?_, twins.outputs⟩
      · exact { twins.left with control := .inl rfl, controlCommand := .inr ⟨id, found.symm⟩ }
      · exact { twins.right with control := .inl rfl, controlCommand := .inr ⟨id, found.symm⟩ }
      · exact { twins.same with controlPid := rfl, control := fun _ => rfl }
    have outcome := prepared.spawn ans id command true
    revert outcome
    generalize serviceSpawn cfg ans id command true _ = first
    generalize serviceSpawn cfg ans id command true _ = second
    intro outcome
    cases outcome with
    | forked pid pos run' twin' twins' service service' =>
      refine enteredQ _ _ (Twin.setState (twins'.started id ?_ ?_ pos) state)
      · exact ⟨by rw [service]; exact found.symm, by rw [service]; rfl⟩
      · exact ⟨by rw [service']; exact found.symm, by rw [service']; rfl⟩
    | failed run' twin' twins' _ => exact failedQ _ _ twins'

section

variable (twins : Twin cfg now True run twin)
include twins

variable (ans : Answers) (success : Bool)

theorem enterFinalSignal (state : ServiceState) (success : Bool) :
    Twin cfg now True (enterFinalSignal cfg ans state success run)
      (enterFinalSignal cfg ans state success twin) :=
  twins.enterSignalThen ans state success _ fun success _ _ twins => twins.enterDead ans success

theorem enterStopPost :
    Twin cfg now True (serviceEnterStopPost cfg ans success run)
      (serviceEnterStopPost cfg ans success twin) :=
  (twins.withResult success).enterControl _ ans .stopPost .stopPost (fun _ _ twins => twins)
    (fun _ _ twins _ => twins.enterFinalSignal ans .finalSigterm true)
    fun _ _ twins => twins.enterFinalSignal ans .finalSigterm false

theorem enterSignal (state : ServiceState) (success : Bool) :
    Twin cfg now True (serviceEnterSignal cfg ans state success run)
      (serviceEnterSignal cfg ans state success twin) := by
  unfold serviceEnterSignal
  split
  · exact twins.enterSignalThen ans state success _ fun success _ _ twins =>
      twins.enterStopPost ans success
  · exact twins.enterFinalSignal ans state success

theorem enterStop :
    Twin cfg now True (serviceEnterStop cfg ans success run) (serviceEnterStop cfg ans success twin) :=
  (twins.withResult success).enterControl _ ans .stop .stop (fun _ _ twins => twins)
    (fun _ _ twins _ => twins.enterSignal ans .stopSigterm true)
    fun _ _ twins => twins.enterSignal ans .stopSigterm false

theorem mainPidGood : mainPidGood ans run.service = mainPidGood ans twin.service := by
  have same := twins.same
  cases known : run.service.mainPidKnown with
  | false => simp [Systemd.Services.mainPidGood, known, same.known ▸ known]
  | true =>
    simp only [Systemd.Services.mainPidGood, known, same.known ▸ known, same.alien trivial known,
      same.mainPid]

theorem enterRunning :
    Twin cfg now True (serviceEnterRunning cfg ans success run)
      (serviceEnterRunning cfg ans success twin) := by
  have marked := twins.withResult success
  have bus : ((run.update (.withResult success)).service.busNameGood || decide (cfg.type ≠ .dbus)) =
      ((twin.update (.withResult success)).service.busNameGood || decide (cfg.type ≠ .dbus)) := by
    by_cases dbus : cfg.type = .dbus
    · rw [marked.same.bus dbus]
    · simp [dbus]
  unfold serviceEnterRunning
  simp only [marked.mainPidGood ans, bus]
  split
  · exact marked.setState _
  · split
    · exact marked.setState _
    · exact marked.enterStop ans true

theorem enterStartPost :
    Twin cfg now True (serviceEnterStartPost cfg ans run) (serviceEnterStartPost cfg ans twin) :=
  twins.enterControl _ ans .startPost .startPost (fun _ _ twins => twins)
    (fun _ _ twins _ => twins.enterRunning ans true)
    fun _ _ twins => twins.enterStop ans false

end

theorem reloadFailed (twins : Twin cfg now live run twin) (failed : Bool) :
    Twin cfg now live (run.update fun s => { s with reloadFailure := failed })
      (twin.update fun s => { s with reloadFailure := failed }) :=
  ⟨{ twins.left with }, { twins.right with }, { twins.same with }, twins.outputs⟩

theorem enterReload (twins : Twin cfg now True run twin) (ans : Answers) :
    Twin cfg now True (serviceEnterReload cfg ans run) (serviceEnterReload cfg ans twin) :=
  twins.enterControl _ ans .reload .reload (fun _ _ twins => twins)
    (fun _ _ twins _ => twins.enterRunning ans true)
    fun _ _ twins => (twins.reloadFailed true).enterRunning ans true

theorem enterRestart (twins : Twin cfg now live run twin) (ans : Answers) :
    Twin cfg now live (serviceEnterRestart ans run) (serviceEnterRestart ans twin) := by
  have armed : Twin cfg now live (if ans.jobPending then run.update .arm else run)
      (if ans.jobPending then twin.update .arm else twin) := by
    split
    · exact twins.arm
    · exact twins
  unfold serviceEnterRestart
  split
  · exact twins.stayDead false
  · dsimp only
    split
    · exact armed.stayDead true
    · exact (armed.stayDead true).stayDead false

theorem setMainPid (twins : Twin cfg now live run twin) (ans : Answers) (pid : Int32) :
    Twin cfg now live (run.update fun s => (serviceSetMainPid cfg ans pid s).getD s)
      (twin.update fun s => (serviceSetMainPid cfg ans pid s).getD s) := by
  refine ⟨twins.left.setMainPid ans pid, twins.right.setMainPid ans pid, ?_, twins.outputs⟩
  simp only [Run.update, serviceSetMainPid]
  split
  · exact twins.same
  · exact { twins.same with
      mainPid := rfl
      known := rfl
      code := rfl
      alien := fun _ _ => rfl }

theorem enterStart (twins : Twin cfg now True run twin) (idle : run.service.controlPid = 0)
    (ans : Answers) :
    Option.Rel (Twin cfg now True) (serviceEnterStart cfg ans run)
      (serviceEnterStart cfg ans twin) := by
  unfold serviceEnterStart
  split
  · exact .none
  · rename_i command rest found
    split
    · exact .none
    · split
      · have prepared : Twin cfg now True
            (run.update fun s => { s.unwatchControlPid with
              controlCommandId := some .start
              controlCommand := command :: rest
              mainCommand := [] })
            (twin.update fun s => { s.unwatchControlPid with
              controlCommandId := some .start
              controlCommand := command :: rest
              mainCommand := [] }) := by
          refine ⟨?_, ?_, ?_, twins.outputs⟩
          · exact { twins.left with
              control := .inl rfl, controlCommand := .inr ⟨.start, found.symm⟩, mainCommand := .inl rfl }
          · exact { twins.right with
              control := .inl rfl, controlCommand := .inr ⟨.start, found.symm⟩, mainCommand := .inl rfl }
          · exact { twins.same with controlPid := rfl, control := fun _ => rfl, ignore := rfl }
        have outcome := prepared.spawn ans .start command true
        revert outcome
        generalize serviceSpawn cfg ans .start command true _ = first
        generalize serviceSpawn cfg ans .start command true _ = second
        intro outcome
        cases outcome with
        | forked pid pos run' twin' twins' service service' =>
          refine .some (Twin.setState (twins'.started .start ?_ ?_ pos) .start)
          · exact ⟨by rw [service]; exact found.symm, by rw [service]; rfl⟩
          · exact ⟨by rw [service']; exact found.symm, by rw [service']; rfl⟩
        | failed run' twin' twins' _ => exact .some (twins'.enterSignal ans .finalSigterm false)
      · have idle' : twin.service.controlPid = 0 := twins.same.controlPid ▸ idle
        have prepared : Twin cfg now True
            (run.update fun s => { s.unwatchMainPid with
              controlCommandId := none
              controlCommand := []
              mainCommand := command :: rest })
            (twin.update fun s => { s.unwatchMainPid with
              controlCommandId := none
              controlCommand := []
              mainCommand := command :: rest }) := by
          refine ⟨?_, ?_, ?_, twins.outputs⟩
          · exact { twins.left with
              main := .inl rfl
              control := .inl idle
              controlCommand := .inl rfl
              mainCommand := .inr found.symm }
          · exact { twins.right with
              main := .inl rfl
              control := .inl idle'
              controlCommand := .inl rfl
              mainCommand := .inr found.symm }
          · exact { twins.same with mainPid := rfl, control := fun _ => rfl, ignore := rfl }
        have outcome := prepared.spawn ans .start command
          (cfg.type = .dbus || cfg.type = .notify)
        revert outcome
        generalize serviceSpawn cfg ans .start command _ _ = first
        generalize serviceSpawn cfg ans .start command _ _ = second
        intro outcome
        cases outcome with
        | forked pid pos run' twin' twins' _ _ =>
          dsimp only
          split
          · exact .some ((twins'.setMainPid ans pid).enterStartPost ans)
          · exact .some ((twins'.setMainPid ans pid).setState .start)
        | failed run' twin' twins' _ => exact .some (twins'.enterSignal ans .finalSigterm false)

theorem enterStartPre (twins : Twin cfg now True run twin) (ans : Answers) :
    Option.Rel (Twin cfg now True) (serviceEnterStartPre cfg ans run)
      (serviceEnterStartPre cfg ans twin) :=
  twins.enterControl _ ans .startPre .startPre (fun _ _ twins => .some twins)
    (fun _ _ twins idle => twins.enterStart idle ans)
    fun _ _ twins => .some (twins.enterDead ans false)

end Twin

end

end Systemd.Services
