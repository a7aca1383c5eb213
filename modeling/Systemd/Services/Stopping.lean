import Systemd.Services.Timers

set_option autoImplicit false

namespace Systemd.Services

open List Option

def ServiceState.stopping : ServiceState -> Bool
  | .stop | .stopSigterm | .stopSigkill | .stopPost | .finalSigterm | .finalSigkill => true
  | .dead | .startPre | .start | .startPost | .running | .exited | .reload | .failed
  | .autoRestart => false

def ServiceExecCommand.starts : ServiceExecCommand -> Bool
  | .startPre | .start | .startPost | .reload => true
  | .stop | .stopPost => false

def Output.starts : Output -> Bool
  | .spawned id _ | .notSpawned id _ => id.starts
  | .entered _ => false

def exitsCleanly (cfg : Config) (code status : Int32) : Bool :=
  if cfg.fragmentPath then isCleanExit code status else isCleanExitLsb code status

def acceptable (cfg : Config) (pid : Int32) : Bool :=
  1 < pid && pid ≠ cfg.managerPid

def followed (cfg : Config) (ans : Answers) (s : Service) : Bool :=
  cfg.pidFile && ans.pidFile.any fun pid =>
    s.mainPidKnown && pid = s.mainPid || acceptable cfg pid && ans.watchPid

def Resumes (cfg : Config) (ans : Answers) (s : Service) : Event -> Prop
  | .sigchld pid code status =>
    0 < pid ∧
      if s.mainPid = pid then
        followed cfg ans s = false ∧ more s.mainCommand = true ∧
          (exitsCleanly cfg code status || ignores s.mainCommand) = true
      else
        s.controlPid = pid ∧ more s.controlCommand = true ∧
          (exitsCleanly cfg code status || ignores s.controlCommand) = true ∧
          s.controlCommandId.any ServiceExecCommand.starts = true
  | _ => False

def windowOutputs (cfg : Config) : List (Answers × Event) -> Service -> List Output
  | [], _ => []
  | (ans, event) :: rest, s =>
    if s.state.live then
      match handle cfg ans event ⟨s, []⟩ with
      | some run => run.outputs ++ windowOutputs cfg rest run.service
      | none => []
    else []

def NeverResumes (cfg : Config) : List (Answers × Event) -> Service -> Prop
  | [], _ => True
  | (ans, event) :: rest, s => s.state.live = true ->
    ∀ run, handle cfg ans event ⟨s, []⟩ = some run ->
      ¬ Resumes cfg ans s event ∧ NeverResumes cfg rest run.service

def Adds (old new : List Output) : Prop :=
  ∃ added, new = old ++ added ∧ ∀ output ∈ added, output.starts = false

structure Winds (old : List Output) (run : Run) : Prop where
  outputs : Adds old run.outputs
  down : run.service.state.stopping = true ∨ run.service.state.live = false

section

variable {cfg : Config} {ans : Answers}

theorem Adds.refl (old : List Output) : Adds old old :=
  ⟨[], (append_nil old).symm, by simp⟩

theorem Adds.trans {first second third : List Output} (one : Adds first second)
    (two : Adds second third) : Adds first third := by
  obtain ⟨added, rfl, clean⟩ := one
  obtain ⟨added', rfl, clean'⟩ := two
  refine ⟨added ++ added', append_assoc .., fun output mem => ?_⟩
  rcases mem_append.mp mem with old | new
  · exact clean output old
  · exact clean' output new

theorem Adds.single (old : List Output) {output : Output} (other : output.starts = false) :
    Adds old (old ++ [output]) :=
  ⟨[output], rfl, fun _ mem => mem_singleton.mp mem ▸ other⟩

variable {old : List Output} {run run' : Run} {state : ServiceState} {id : ServiceExecCommand}
  {success : Bool} {s : Service} {event : Event}

theorem Winds.after {middle : List Output} (winds : Winds middle run) (adds : Adds old middle) :
    Winds old run :=
  ⟨adds.trans winds.outputs, winds.down⟩

theorem winds_setState (down : state.stopping = true ∨ state.live = false) (run : Run) :
    Winds run.outputs (serviceSetState state run) where
  outputs := .single run.outputs rfl
  down := by
    rw [state_serviceSetState]
    exact down

theorem winds_stayDead (success : Bool) (run : Run) :
    Winds run.outputs (serviceStayDead success run) where
  outputs := .single run.outputs rfl
  down := .inr (stayDead_dead success run)

theorem winds_enterDead (success : Bool) (run : Run) :
    Winds run.outputs (serviceEnterDead cfg ans success run) := by
  unfold serviceEnterDead
  dsimp only
  split
  · split
    · have entered := winds_setState (show _ ∨ ServiceState.autoRestart.live = false from .inr rfl)
        ((run.update (.withResult success)).update .arm)
      exact ⟨entered.outputs, entered.down⟩
    · exact (winds_stayDead _ _).after (.refl _)
  · exact (winds_stayDead _ _).after (.refl _)

theorem winds_enterSignalThen (stopping : state.stopping = true) (success : Bool)
    {next : Bool -> Run -> Run} (continued : ∀ success run, Winds run.outputs (next success run))
    (run : Run) : Winds run.outputs (enterSignalThen cfg ans state success next run) := by
  unfold enterSignalThen
  dsimp only
  split
  · exact (continued _ _).after (.refl _)
  · exact (continued _ _).after (.refl _)
  · split
    · split
      · exact (winds_setState (.inl stopping) _).after (.refl _)
      · exact (continued _ _).after (.refl _)
    · exact (winds_setState (.inl stopping) _).after (.refl _)

structure Spawned (starts : Bool) (run : Run) (result : Run × Option Int32) : Prop where
  outputs : ∃ output, output.starts = starts ∧ result.1.outputs = run.outputs ++ [output]
  state : result.1.service.state = run.service.state

theorem spawn_spec (id : ServiceExecCommand) (command : ExecCommand) (timeout : Bool) (run : Run) :
    Spawned id.starts run (serviceSpawn cfg ans id command timeout run) := by
  unfold serviceSpawn
  split
  · refine ⟨⟨.notSpawned id command, rfl, rfl⟩, ?_⟩
    cases timeout with
    | true => rfl
    | false => rfl
  · exact ⟨⟨.notSpawned id command, rfl, rfl⟩, rfl⟩
  · exact ⟨⟨.spawned id command, rfl, rfl⟩, rfl⟩

theorem adds_spawn (stops : id.starts = false) (command : ExecCommand) (timeout : Bool) (run : Run) :
    Adds run.outputs (serviceSpawn cfg ans id command timeout run).1.outputs := by
  have spec : Spawned id.starts run (serviceSpawn cfg ans id command timeout run) :=
    spawn_spec id command timeout run
  obtain ⟨output, starts, same⟩ := spec.outputs
  rw [same]
  exact .single run.outputs (starts.trans stops)

theorem winds_enterControl (stops : id.starts = false) (stopping : state.stopping = true)
    {absent failed : Run -> Run} (absentW : ∀ run, Winds run.outputs (absent run))
    (failedW : ∀ run, Winds run.outputs (failed run)) (run : Run) :
    Winds run.outputs (enterControl cfg ans id state (fun run => run) absent failed run) := by
  unfold enterControl
  split
  · exact (absentW _).after (.refl _)
  · rename_i command rest _
    have spawned : Adds run.outputs (serviceSpawn cfg ans id command true (run.update fun s =>
        { s.unwatchControlPid with
          controlCommand := command :: rest, controlCommandId := some id })).1.outputs :=
      adds_spawn stops command true _
    revert spawned
    generalize serviceSpawn cfg ans id command true _ = result
    obtain ⟨run', answer⟩ := result
    intro spawned
    cases answer with
    | some pid =>
      exact (winds_setState (.inl stopping) (run'.update fun s => { s with controlPid := pid })).after
        spawned
    | none => exact (failedW run').after spawned

theorem winds_enterFinalSignal (stopping : state.stopping = true) (success : Bool) (run : Run) :
    Winds run.outputs (enterFinalSignal cfg ans state success run) :=
  winds_enterSignalThen stopping success winds_enterDead run

theorem winds_enterStopPost (success : Bool) (run : Run) :
    Winds run.outputs (serviceEnterStopPost cfg ans success run) :=
  winds_enterControl rfl rfl (winds_enterFinalSignal rfl true)
    (winds_enterFinalSignal rfl false) (run.update (.withResult success))

theorem winds_enterSignal (stopping : state.stopping = true) (success : Bool) (run : Run) :
    Winds run.outputs (serviceEnterSignal cfg ans state success run) := by
  unfold serviceEnterSignal
  split
  · exact winds_enterSignalThen stopping success winds_enterStopPost run
  · exact winds_enterFinalSignal stopping success run

theorem winds_enterStop (success : Bool) (run : Run) :
    Winds run.outputs (serviceEnterStop cfg ans success run) :=
  winds_enterControl rfl rfl (winds_enterSignal rfl true)
    (winds_enterSignal rfl false) (run.update (.withResult success))

theorem adoptMainPid_isSome (pid : Int32) (s : Service) :
    (adoptMainPid cfg ans pid s).isSome = acceptable cfg pid := by
  unfold adoptMainPid serviceSetMainPid acceptable
  by_cases refused : pid ≤ 1 ∨ pid = cfg.managerPid
  · rw [if_pos refused]
    rcases refused with low | own
    · simp [Int32.not_lt.mpr low]
    · simp [own]
  · rw [if_neg refused]
    simp only [not_or, Int32.not_le] at refused
    simp [refused.1, refused.2]

theorem loadPidFile_snd (s : Service) : (serviceLoadPidFile cfg ans s).2 = followed cfg ans s := by
  unfold serviceLoadPidFile followed
  cases cfg.pidFile with
  | false => rfl
  | true =>
    cases ans.pidFile with
    | none => rfl
    | some pid =>
      by_cases same : s.mainPidKnown = true ∧ pid = s.mainPid
      · simp [same.1, same.2]
      · have other : (s.mainPidKnown && decide (pid = s.mainPid)) = false := by
          simpa using same
        have adopted : (adoptMainPid cfg ans pid s.forgetMainPid).isSome =
            acceptable cfg pid := adoptMainPid_isSome pid s.forgetMainPid
        simp only [same, if_false, any_some, other, Bool.false_or, Bool.true_and]
        cases found : adoptMainPid cfg ans pid s.forgetMainPid with
        | none =>
          rw [found] at adopted
          simp [← adopted]
        | some t =>
          rw [found] at adopted
          simp [← adopted]

theorem winds_mainGone (stopping : run.service.state.stopping = true)
    (gone : mainGone cfg ans success run = some run') : Winds run.outputs run' := by
  have still : Winds run.outputs run := ⟨.refl _, .inl stopping⟩
  unfold mainGone at gone
  cases here : run.service.state with
  | stop =>
    rw [here] at gone
    exact some.inj gone ▸ still
  | stopSigterm | stopSigkill =>
    rw [here] at gone
    dsimp only at gone
    split at gone
    · exact some.inj gone ▸ still
    · exact some.inj gone ▸ winds_enterStopPost success run
  | stopPost | finalSigterm | finalSigkill =>
    rw [here] at gone
    cases gone
  | dead | startPre | start | startPost | running | exited | reload | failed | autoRestart =>
    rw [here] at stopping
    cases stopping

theorem winds_controlGone (stopping : run.service.state.stopping = true)
    (gone : controlGone cfg ans success run = some run') : Winds run.outputs run' := by
  unfold controlGone at gone
  cases here : run.service.state with
  | stop =>
    rw [here] at gone
    exact some.inj gone ▸ winds_enterSignal rfl success run
  | stopSigterm | stopSigkill =>
    rw [here] at gone
    dsimp only at gone
    split at gone
    · exact some.inj gone ▸ ⟨.refl _, .inl stopping⟩
    · exact some.inj gone ▸ winds_enterStopPost success run
  | stopPost | finalSigterm | finalSigkill =>
    rw [here] at gone
    exact some.inj gone ▸ winds_enterDead success run
  | dead | startPre | start | startPost | running | exited | reload | failed | autoRestart =>
    rw [here] at stopping
    cases stopping

structure Calls (starts : Bool) (old : List Output) (run : Run) : Prop where
  outputs : ∃ output, output.starts = starts ∧ Adds (old ++ [output]) run.outputs
  down : run.service.state.stopping = true ∨ run.service.state.live = false

theorem Spawned.calls {starts : Bool} {result : Run × Option Int32}
    (spawned : Spawned starts run result) (winds : Winds result.1.outputs run') :
    Calls starts run.outputs run' := by
  obtain ⟨output, same, outputs⟩ := spawned.outputs
  exact ⟨⟨output, same, outputs ▸ winds.outputs⟩, winds.down⟩

theorem calls_runNextMain (stopping : run.service.state.stopping = true)
    (next : serviceRunNextMain cfg ans success run = some run') : Calls true run.outputs run' := by
  unfold serviceRunNextMain at next
  split at next
  · rename_i command rest _
    split at next
    · cases next
    · have spawned : Spawned true run (serviceSpawn cfg ans .start command false
          ((run.update (.withResult success)).update fun s =>
            { s.unwatchMainPid with mainCommand := command :: rest })) :=
        have spec := spawn_spec .start command false _
        ⟨spec.outputs, spec.state⟩
      revert spawned next
      generalize serviceSpawn cfg ans .start command false _ = result
      obtain ⟨run1, answer⟩ := result
      intro next spawned
      cases answer with
      | some pid =>
        obtain rfl := some.inj next
        refine spawned.calls ⟨.refl _, .inl ?_⟩
        simp only [Run.update, state_setMainPid]
        rw [spawned.state]
        exact stopping
      | none =>
        obtain rfl := some.inj next
        exact spawned.calls (winds_enterStop false run1)
  · cases next

theorem calls_runNextControl (stopping : run.service.state.stopping = true)
    (next : serviceRunNextControl cfg ans success run = some run') :
    Calls (run.service.controlCommandId.any ServiceExecCommand.starts) run.outputs run' := by
  unfold serviceRunNextControl at next
  split at next
  · rename_i command rest id _ known
    rw [known]
    split at next
    · cases next
    · have spawned : Spawned id.starts run (serviceSpawn cfg ans id command true
          ((run.update (.withResult success)).update fun s =>
            { s.unwatchControlPid with controlCommand := command :: rest })) :=
        have spec := spawn_spec id command true _
        ⟨spec.outputs, spec.state⟩
      revert spawned next
      generalize serviceSpawn cfg ans id command true _ = result
      obtain ⟨run1, answer⟩ := result
      intro next spawned
      have same : run1.service.state = run.service.state := spawned.state
      cases answer with
      | some pid =>
        obtain rfl := some.inj next
        refine spawned.calls ⟨.refl _, .inl ?_⟩
        exact (congrArg ServiceState.stopping same).trans stopping
      | none =>
        rw [← same] at stopping
        cases here : run1.service.state with
        | stop =>
          simp only [here] at next
          exact some.inj next ▸ spawned.calls (winds_enterSignal rfl false run1)
        | stopPost =>
          simp only [here] at next
          exact some.inj next ▸ spawned.calls (winds_enterDead false run1)
        | stopSigterm | stopSigkill | finalSigterm | finalSigkill =>
          simp only [here] at next
          exact some.inj next ▸ spawned.calls (winds_enterStop false run1)
        | dead | startPre | start | startPost | running | exited | reload | failed | autoRestart =>
          rw [here] at stopping
          cases stopping
  · cases next

theorem Calls.winds (calls : Calls false old run) : Winds old run := by
  obtain ⟨output, stops, adds⟩ := calls.outputs
  exact ⟨(Adds.single old stops).trans adds, calls.down⟩

theorem mainExited_stopping {pid code status : Int32} (stopping : run.service.state.stopping = true)
    (exited : mainExited cfg ans pid code status success run = some run') :
    (more run.service.mainCommand && (success || ignores run.service.mainCommand)) = true ∧
      Calls true run.outputs run' ∨
    (more run.service.mainCommand && (success || ignores run.service.mainCommand)) = false ∧
      Winds run.outputs run' := by
  unfold mainExited at exited
  dsimp only at exited
  split at exited
  · rename_i further
    have called := calls_runNextMain (by exact stopping) exited
    exact .inl ⟨further, called⟩
  · rename_i last
    have wound := winds_mainGone (by exact stopping) exited
    exact .inr ⟨Bool.eq_false_iff.mpr last, wound⟩

theorem controlExited_stopping (stopping : run.service.state.stopping = true)
    (exited : controlExited cfg ans success run = some run') :
    (more run.service.controlCommand && (success || ignores run.service.controlCommand)) = true ∧
      Calls (run.service.controlCommandId.any ServiceExecCommand.starts) run.outputs run' ∨
    (more run.service.controlCommand && (success || ignores run.service.controlCommand)) = false ∧
      Winds run.outputs run' := by
  unfold controlExited at exited
  dsimp only at exited
  split at exited
  · rename_i further
    have called := calls_runNextControl (by exact stopping) exited
    exact .inl ⟨further, called⟩
  · rename_i last
    have wound := winds_controlGone (by exact stopping) exited
    exact .inr ⟨Bool.eq_false_iff.mpr last, wound⟩

def Turns (cfg : Config) (ans : Answers) (s : Service) (event : Event) (run : Run) : Prop :=
  ¬ Resumes cfg ans s event ∧ Winds [] run ∨ Resumes cfg ans s event ∧ Calls true [] run

theorem turns_sigchld {pid code status : Int32} (positive : 0 < pid)
    (stopping : s.state.stopping = true)
    (handled : serviceSigchldEvent cfg ans pid code status ⟨s.unwatchPid pid, []⟩ = some run) :
    Turns cfg ans s (.sigchld pid code status) run := by
  unfold serviceSigchldEvent at handled
  simp only [show (s.unwatchPid pid).mainPid = s.mainPid from rfl,
    show (s.unwatchPid pid).controlPid = s.controlPid from rfl] at handled
  unfold Turns Resumes
  by_cases main : s.mainPid = pid
  · rw [if_pos main] at handled
    simp only [positive, main, if_true, true_and]
    have snd : (serviceLoadPidFile cfg ans (s.unwatchPid pid)).2 = followed cfg ans s :=
      loadPidFile_snd (s.unwatchPid pid)
    have kept : Kept (s.unwatchPid pid) (serviceLoadPidFile cfg ans (s.unwatchPid pid)).1 :=
      kept_loadPidFile ans (s.unwatchPid pid)
    revert handled snd kept
    generalize serviceLoadPidFile cfg ans (s.unwatchPid pid) = result
    obtain ⟨t, done⟩ := result
    intro handled snd kept
    have stopping' : t.state.stopping = true := by
      rw [kept.state]
      exact stopping
    have commands : t.mainCommand = s.mainCommand := kept.commands
    cases done with
    | true =>
      obtain rfl := some.inj handled
      refine .inl ⟨?_, .refl [], .inl stopping'⟩
      rw [← snd]
      simp
    | false =>
      rw [← snd]
      rcases mainExited_stopping stopping' handled with ⟨further, called⟩ | ⟨last, wound⟩
      · simp only [commands, Bool.and_eq_true] at further
        exact .inr ⟨⟨rfl, further⟩, called⟩
      · simp only [commands] at last
        refine .inl ⟨fun resumes => ?_, wound⟩
        have further := Bool.and_eq_true_iff.mpr resumes.2
        rw [exitsCleanly, last] at further
        cases further
  · rw [if_neg main] at handled
    simp only [positive, main, if_false, true_and]
    by_cases control : s.controlPid = pid
    · rw [if_pos control] at handled
      rcases controlExited_stopping (by exact stopping) handled with ⟨further, called⟩ | ⟨last, wound⟩
      · have further := Bool.and_eq_true_iff.mp further
        cases starts : s.controlCommandId.any ServiceExecCommand.starts with
        | true =>
          have called : Calls (s.controlCommandId.any ServiceExecCommand.starts) [] run := called
          rw [starts] at called
          exact .inr ⟨⟨control, further.1, further.2, rfl⟩, called⟩
        | false =>
          have called : Calls (s.controlCommandId.any ServiceExecCommand.starts) [] run := called
          rw [starts] at called
          exact .inl ⟨by simp, called.winds⟩
      · refine .inl ⟨fun resumes => ?_, wound⟩
        have further := Bool.and_eq_true_iff.mpr ⟨resumes.2.1, resumes.2.2.1⟩
        exact Bool.false_ne_true (last.symm.trans further)
    · rw [if_neg control] at handled
      obtain rfl := some.inj handled
      exact .inl ⟨fun resumes => control resumes.1, .refl [], .inl stopping⟩

theorem winds_timerEvent (stopping : run.service.state.stopping = true)
    (handled : serviceTimerEvent cfg ans run = some run') : Winds run.outputs run' := by
  unfold serviceTimerEvent at handled
  cases here : run.service.state with
  | stop =>
    rw [here] at handled
    exact some.inj handled ▸ winds_enterSignal rfl false run
  | stopSigterm =>
    rw [here] at handled
    dsimp only at handled
    split at handled
    · exact some.inj handled ▸ winds_enterSignal rfl false run
    · exact some.inj handled ▸ winds_enterStopPost false run
  | stopSigkill =>
    rw [here] at handled
    exact some.inj handled ▸ winds_enterStopPost false run
  | stopPost =>
    rw [here] at handled
    exact some.inj handled ▸ winds_enterSignal rfl false run
  | finalSigterm =>
    rw [here] at handled
    dsimp only at handled
    split at handled
    · exact some.inj handled ▸ winds_enterSignal rfl false run
    · exact some.inj handled ▸ winds_enterDead false run
  | finalSigkill =>
    rw [here] at handled
    exact some.inj handled ▸ winds_enterDead false run
  | dead | startPre | start | startPost | running | exited | reload | failed | autoRestart =>
    rw [here] at stopping
    cases stopping

theorem winds_cgroupNotify (stopping : run.service.state.stopping = true) :
    Winds run.outputs (serviceCgroupNotifyEvent cfg ans run) := by
  have still : Winds run.outputs run := ⟨.refl _, .inl stopping⟩
  unfold serviceCgroupNotifyEvent
  cases here : run.service.state with
  | stopSigterm | stopSigkill =>
    dsimp only
    split
    · exact winds_enterStopPost true run
    · exact still
  | finalSigterm | finalSigkill =>
    dsimp only
    split
    · exact winds_enterDead true run
    · exact still
  | stop | stopPost => exact still
  | dead | startPre | start | startPost | running | exited | reload | failed | autoRestart =>
    rw [here] at stopping
    cases stopping

theorem stopping_state {other : ServiceState} (stopping : state.stopping = true)
    (up : other.stopping = false) : state ≠ other := by
  rintro rfl
  exact Bool.false_ne_true (up.symm.trans stopping)

theorem winds_notifyMessage (stopping : run.service.state.stopping = true) (pid : Int32)
    (tags : List CString) : Winds run.outputs (serviceNotifyMessage cfg ans pid tags run) := by
  have still : Winds run.outputs run := ⟨.refl _, .inl stopping⟩
  have moved : (notifyMainPid cfg ans tags run.service).state = run.service.state := by
    unfold notifyMainPid
    split
    · split
      · split
        · exact state_setMainPid ..
        · rfl
      · rfl
    · rfl
  have status (s : Service) : (notifyStatus tags s).state = s.state := by
    unfold notifyStatus
    split
    · rfl
    · rfl
  unfold serviceNotifyMessage
  split
  · exact still
  · split
    · exact still
    · have notStarting : (notifyMainPid cfg ans tags run.service).state ≠ .start := by
        rw [moved]
        exact stopping_state stopping rfl
      simp only [Run.update, notStarting, false_and, and_false, if_false]
      refine ⟨.refl _, .inl ?_⟩
      rw [status, moved]
      exact stopping

theorem winds_busNameOwnerChange (stopping : run.service.state.stopping = true) (newOwner : Bool) :
    Winds run.outputs (serviceBusNameOwnerChange cfg ans newOwner run) := by
  have notRunning : run.service.state ≠ .running := stopping_state stopping rfl
  have notStarting : run.service.state ≠ .start := stopping_state stopping rfl
  unfold serviceBusNameOwnerChange
  simp only [Run.update, notRunning, notStarting, false_and, if_false, ite_self]
  exact ⟨.refl _, .inl stopping⟩

theorem winds_busQueryPidDone (stopping : run.service.state.stopping = true) (pid : Int32) :
    Winds run.outputs (serviceBusQueryPidDone cfg ans pid run) := by
  unfold serviceBusQueryPidDone
  split
  · refine ⟨.refl _, .inl ?_⟩
    simpa only [Run.update, state_setMainPid] using stopping
  · exact ⟨.refl _, .inl stopping⟩

theorem winds_resetFailed (stopping : run.service.state.stopping = true) :
    Winds run.outputs (serviceResetFailed run) := by
  have notFailed : run.service.state ≠ .failed := stopping_state stopping rfl
  unfold serviceResetFailed
  simp only [notFailed, if_false]
  exact ⟨.refl _, .inl stopping⟩

theorem winds_start (stopping : run.service.state.stopping = true)
    (handled : serviceStart cfg ans run = some run') : Winds run.outputs run' := by
  unfold serviceStart at handled
  cases here : run.service.state with
  | stop | stopSigterm | stopSigkill | stopPost | finalSigterm | finalSigkill =>
    rw [here] at handled
    exact some.inj handled ▸ ⟨.refl _, .inl stopping⟩
  | dead | startPre | start | startPost | running | exited | reload | failed | autoRestart =>
    rw [here] at stopping
    cases stopping

theorem winds_stop (handled : serviceStop cfg ans run = some run') : Winds run.outputs run' := by
  have forbidden : (run.update fun s => { s with forbidRestart := true }).outputs = run.outputs := rfl
  unfold serviceStop at handled
  rw [← forbidden]
  revert handled
  generalize (run.update fun s => { s with forbidRestart := true }) = run
  intro handled
  dsimp only at handled
  cases here : run.service.state with
  | stop | stopSigterm | stopSigkill | stopPost | finalSigterm | finalSigkill =>
    rw [here] at handled
    exact some.inj handled ▸ ⟨.refl _, .inl (by rw [here]; rfl)⟩
  | autoRestart =>
    rw [here] at handled
    exact some.inj handled ▸ winds_setState (.inr rfl) run
  | startPre | start | startPost | reload =>
    rw [here] at handled
    exact some.inj handled ▸ winds_enterSignal rfl true run
  | running | exited =>
    rw [here] at handled
    exact some.inj handled ▸ winds_enterStop true run
  | dead | failed =>
    rw [here] at handled
    cases handled

theorem turns_handle (stopping : s.state.stopping = true)
    (handled : handle cfg ans event ⟨s, []⟩ = some run) : Turns cfg ans s event run := by
  have still : Winds [] ⟨s, []⟩ := ⟨.refl [], .inl stopping⟩
  cases event with
  | start => exact .inl ⟨fun resumes => resumes, winds_start stopping handled⟩
  | stop => exact .inl ⟨fun resumes => resumes, winds_stop handled⟩
  | reload =>
    simp only [handle, serviceReload] at handled
    cases here : s.state <;> simp [here, ServiceState.stopping] at handled stopping
  | sigchld pid code status =>
    simp only [handle] at handled
    split at handled
    · rename_i positive
      exact turns_sigchld positive stopping handled
    · rename_i negative
      exact .inl ⟨fun resumes => negative resumes.1, some.inj handled ▸ still⟩
  | timer =>
    refine .inl ⟨fun resumes => resumes, ?_⟩
    simp only [handle] at handled
    split at handled
    · have wound := winds_timerEvent (by exact stopping) handled
      exact wound
    · exact some.inj handled ▸ still
  | cgroupEmpty =>
    obtain rfl := some.inj handled
    exact .inl ⟨fun resumes => resumes, (winds_cgroupNotify (by exact stopping)).after (.refl _)⟩
  | notify pid tags =>
    obtain rfl := some.inj handled
    exact .inl ⟨fun resumes => resumes, (winds_notifyMessage (by exact stopping) pid tags).after (.refl _)⟩
  | busNameOwner newOwner =>
    obtain rfl := some.inj handled
    exact .inl ⟨fun resumes => resumes, (winds_busNameOwnerChange (by exact stopping) newOwner).after (.refl _)⟩
  | busPid pid =>
    obtain rfl := some.inj handled
    exact .inl ⟨fun resumes => resumes, (winds_busQueryPidDone (by exact stopping) pid).after (.refl _)⟩
  | resetFailed =>
    obtain rfl := some.inj handled
    exact .inl ⟨fun resumes => resumes, (winds_resetFailed (by exact stopping)).after (.refl _)⟩

theorem Turns.clean_iff (turns : Turns cfg ans s event run) :
    (∀ output ∈ run.outputs, output.starts = false) ↔ ¬ Resumes cfg ans s event := by
  rcases turns with ⟨goes, winds⟩ | ⟨resumes, calls⟩
  · obtain ⟨added, same, clean⟩ := winds.outputs
    rw [nil_append] at same
    exact ⟨fun _ => goes, fun _ => same ▸ clean⟩
  · obtain ⟨output, starts, added, same, _⟩ := calls.outputs
    refine ⟨fun clean => ?_, fun goes => absurd resumes goes⟩
    have stops := clean output (by simp [same])
    exact absurd (starts.symm.trans stops) (by decide)

theorem Turns.down (turns : Turns cfg ans s event run) :
    run.service.state.stopping = true ∨ run.service.state.live = false := by
  rcases turns with ⟨_, winds⟩ | ⟨_, calls⟩
  · exact winds.down
  · exact calls.down

theorem window_clean_iff (events : List (Answers × Event))
    (down : s.state.stopping = true ∨ s.state.live = false) :
    (∀ output ∈ windowOutputs cfg events s, output.starts = false) ↔ NeverResumes cfg events s := by
  induction events generalizing s with
  | nil => simp [windowOutputs, NeverResumes]
  | cons first events ih =>
    obtain ⟨ans, event⟩ := first
    simp only [windowOutputs, NeverResumes]
    rcases down with stopping | gone
    · have held : s.state.live = true := by
        cases here : s.state <;> simp [here, ServiceState.stopping] at stopping <;> rfl
      rw [if_pos held]
      cases handled : handle cfg ans event ⟨s, []⟩ with
      | none => simp
      | some run =>
        have turns := turns_handle stopping handled
        simp only [mem_append, or_imp, forall_and, turns.clean_iff, ih turns.down, held,
          forall_const, some.injEq, forall_eq']
    · simp [gone]

theorem stopping_starts_nothing_iff (stopped : handle cfg ans .stop ⟨s, []⟩ = some run)
    (events : List (Answers × Event)) :
    (∀ output ∈ windowOutputs cfg events run.service, output.starts = false) ↔
      NeverResumes cfg events run.service :=
  window_clean_iff events (winds_stop stopped).down

end

namespace Examples

def twoSteps : Config where
  type := .oneshot
  restart := .no
  pidFile := false
  timeoutUsec := 90000000
  remainAfterExit := false
  guessMainPid := true
  notifyAccess := .nobody
  killMode := .process
  sendSigkill := true
  fragmentPath := true
  execCommand := fun
    | .start => [⟨["/bin/prepare"], false⟩, ⟨["/bin/finish"], false⟩]
    | _ => []
  managerPid := 1

def killable : Answers := { ans with kill := fun _ => ⟨true, true, false, true, true⟩ }

def preparing : Service := ((handle twoSteps killable .start ⟨{}, []⟩).map Run.service).getD {}

def cancelled : Run := (handle twoSteps killable .stop ⟨preparing, []⟩).getD ⟨{}, []⟩

theorem stopped_starts_nothing_iff :
    (∀ output ∈ windowOutputs cfg [(ans, .sigchld 101 1 0)] stopped.service,
        output.starts = false) ↔
      NeverResumes cfg [(ans, .sigchld 101 1 0)] stopped.service :=
  stopping_starts_nothing_iff (show handle cfg ans .stop ⟨started.service, []⟩ = some stopped
    from rfl) _

theorem cancelled_runs_next_step :
    handle twoSteps killable .start ⟨{}, []⟩ = some ⟨preparing,
      [.spawned .start ⟨["/bin/prepare"], false⟩, .entered .start]⟩ ∧
    handle twoSteps killable .stop ⟨preparing, []⟩ = some cancelled ∧
    cancelled.service.state = .stopSigterm ∧
    windowOutputs twoSteps [(killable, .sigchld 100 cldKilled 15)] cancelled.service =
      [.spawned .start ⟨["/bin/finish"], false⟩] :=
  ⟨rfl, rfl, rfl, rfl⟩

end Examples

end Systemd.Services
