import Systemd.Services.Ready

set_option autoImplicit false

namespace Systemd.Services

open Option

open Serialization (parsePid)

def Ends (cfg : Config) (late : Prop) (result : Option Run) : Prop :=
  ∀ run, result = some run -> Ready cfg late run.service

structure Kept (s t : Service) : Prop where
  state : t.state = s.state
  timer : t.timer = s.timer
  control : t.controlPid = s.controlPid
  commands : t.mainCommand = s.mainCommand

section

variable {cfg : Config} {late : Prop}

theorem ends_none : Ends cfg late none :=
  fun _ same => by cases same

variable {run run' : Run} {s t : Service} {ans : Answers}

theorem ends_some (ready : Ready cfg late run.service) : Ends cfg late (some run) :=
  fun _ same => some.inj same ▸ ready

theorem Kept.refl (s : Service) : Kept s s := ⟨rfl, rfl, rfl, rfl⟩

theorem Kept.trans {u : Service} (first : Kept s t) (second : Kept t u) : Kept s u :=
  ⟨second.state.trans first.state, second.timer.trans first.timer,
    second.control.trans first.control, second.commands.trans first.commands⟩

theorem Quiet.kept (quiet : Quiet cfg s) (kept : Kept s t) : Quiet cfg t :=
  fun unlimited => kept.timer.trans (quiet unlimited)

theorem Ready.kept (ready : Ready cfg late s) (kept : Kept s t) (keeps : s.state.keepsMain = true) :
    Ready cfg late t where
  placed :=
    { main := fun gone => by
        rw [kept.state, keeps] at gone
        cases gone
      control := fun gone => kept.control.trans (ready.placed.control (kept.state ▸ gone)) }
  timer := by
    rw [kept.state, kept.timer]
    exact ready.timer

theorem kept_setMainPid (ans : Answers) (pid : Int32) (s : Service) :
    Kept s ((serviceSetMainPid cfg ans pid s).getD s) := by
  unfold serviceSetMainPid
  split
  · exact .refl s
  · exact ⟨rfl, rfl, rfl, rfl⟩

theorem kept_adoptMainPid (ans : Answers) (pid : Int32) (s : Service) :
    Kept s ((adoptMainPid cfg ans pid s).getD s) := by
  have set : Kept s ((serviceSetMainPid cfg ans pid s).getD s) := kept_setMainPid ans pid s
  unfold adoptMainPid
  cases found : serviceSetMainPid cfg ans pid s with
  | none => exact .refl s
  | some t =>
    rw [found] at set
    simp only [map_some, getD_some] at set ⊢
    split
    · exact ⟨set.state, set.timer, set.control, set.commands⟩
    · exact set

theorem kept_forgetMainPid (s : Service) : Kept s s.forgetMainPid := by
  unfold Service.forgetMainPid
  split
  · exact ⟨rfl, rfl, rfl, rfl⟩
  · exact .refl s

theorem kept_loadPidFile (ans : Answers) (s : Service) : Kept s (serviceLoadPidFile cfg ans s).1 := by
  unfold serviceLoadPidFile
  split
  · rename_i pid _ _
    split
    · exact .refl s
    · have chosen : Kept s.forgetMainPid
          ((adoptMainPid cfg ans pid s.forgetMainPid).getD s.forgetMainPid) :=
        kept_adoptMainPid ans pid s.forgetMainPid
      dsimp only
      cases found : adoptMainPid cfg ans pid s.forgetMainPid with
      | none => exact kept_forgetMainPid s
      | some t =>
        rw [found] at chosen
        exact (kept_forgetMainPid s).trans chosen
  · exact .refl s

theorem kept_searchMainPid (found : serviceSearchMainPid cfg ans s = some t) : Kept s t := by
  unfold serviceSearchMainPid at found
  split at found
  · exact some.inj found ▸ .refl s
  · split at found
    · cases found
    · split at found
      · exact some.inj found ▸ .refl s
      · exact some.inj found ▸ kept_adoptMainPid ans ans.cgroupPid s

theorem kept_findMainPid (found : findMainPid cfg ans run = some run') :
    Kept run.service run'.service := by
  unfold findMainPid at found
  obtain ⟨s, search, rfl⟩ := map_eq_some_iff.mp found
  exact (kept_loadPidFile ans run.service).trans (kept_searchMainPid search)

theorem ready_mainGone (ans : Answers) (success : Bool) (ready : Ready cfg late run.service) :
    Ends cfg late (mainGone cfg ans success run) := by
  unfold mainGone
  cases here : run.service.state with
  | start =>
    have quiet : Quiet cfg run.service := ready.quiet (by simp [here]) (by simp [here])
    dsimp only
    split
    · split
      · exact ends_some (ready_enterStartPost ans quiet)
      · exact ends_some (ready_enterSignal ans _ false rfl (by simp) (by simp) (.inr rfl))
    · split
      · exact ends_some (ready_enterRunning ans success quiet)
      · exact ends_none
  | running =>
    exact ends_some (ready_enterRunning ans success (ready.quiet (by simp [here]) (by simp [here])))
  | stopSigterm | stopSigkill =>
    dsimp only
    split
    · exact ends_some ready
    · exact ends_some (ready_enterStopPost ans success run)
  | startPost | reload | stop => exact ends_some ready
  | dead | startPre | exited | stopPost | finalSigterm | finalSigkill | failed | autoRestart =>
    exact ends_none

theorem ready_mainExited (single : Single cfg) (ans : Answers) (pid code status : Int32)
    (success : Bool) (core : Core cfg run.service) (ready : Ready cfg late run.service) :
    Ends cfg late (mainExited cfg ans pid code status success run) := by
  unfold mainExited
  dsimp only
  generalize (success || ignores run.service.mainCommand) = success
  have gone : Ready cfg late ((run.update fun s => { s with
        mainPid := 0
        mainExecStatus := execStatusExit ans.clock pid code status s.mainExecStatus
        failure := s.failure || !success }).update fun s => { s with mainCommand := [] }).service :=
    ⟨⟨fun _ => ⟨rfl, rfl⟩, ready.placed.control⟩, ready.timer⟩
  have last : more run.service.mainCommand = false := core.single_main single
  have next := ready_mainGone ans success gone
  simp only [Run.update, last, Bool.false_and, Bool.false_eq_true, if_false] at next ⊢
  exact next

theorem ready_controlGone (ans : Answers) (success : Bool) (ready : Ready cfg late run.service) :
    Ends cfg late (controlGone cfg ans success run) := by
  have running : Quiet cfg run.service -> Ends cfg late
      ((if success then findMainPid cfg ans run else some run).map fun run =>
        serviceEnterRunning cfg ans true
          (run.update fun s => { s with reloadFailure := !success })) := by
    intro quiet run' same
    obtain ⟨found, search, rfl⟩ := map_eq_some_iff.mp same
    have still : Quiet cfg found.service := by
      split at search
      · exact quiet.kept (kept_findMainPid search)
      · exact some.inj search ▸ quiet
    exact ready_enterRunning ans true still
  unfold controlGone
  cases here : run.service.state with
  | startPre =>
    dsimp only
    split
    · exact fun _ entered => ready_enterStart ans entered
    · exact ends_some (ready_enterSignal ans _ false rfl (by simp) (by simp) (.inr rfl))
  | start =>
    have quiet : Quiet cfg run.service := ready.quiet (by simp [here]) (by simp [here])
    dsimp only
    split
    · exact ends_none
    · split
      · intro run' same
        obtain ⟨found, search, rfl⟩ := map_eq_some_iff.mp same
        exact ready_enterStartPost ans (quiet.kept (kept_findMainPid search))
      · exact ends_some (ready_enterSignal ans _ false rfl (by simp) (by simp) (.inr rfl))
  | startPost | reload => exact running (ready.quiet (by simp [here]) (by simp [here]))
  | stop =>
    exact ends_some (ready_enterSignal ans _ success rfl (by simp) (by simp)
      (.inl (ready.quiet (by simp [here]) (by simp [here]))))
  | stopSigterm | stopSigkill =>
    dsimp only
    split
    · exact ends_some ready
    · exact ends_some (ready_enterStopPost ans success run)
  | stopPost | finalSigterm | finalSigkill =>
    exact ends_some (ready_enterDead ans success run)
  | dead | running | exited | failed | autoRestart => exact ends_none

theorem ready_controlExited (single : Single cfg) (ans : Answers) (success : Bool)
    (core : Core cfg run.service) (ready : Ready cfg late run.service) :
    Ends cfg late (controlExited cfg ans success run) := by
  unfold controlExited
  dsimp only
  generalize (success || ignores run.service.controlCommand) = success
  have gone : Ready cfg late
      ((run.update fun s => { s with controlPid := 0, failure := s.failure || !success }).update
        fun s => { s with controlCommand := [], controlCommandId := none }).service :=
    ⟨⟨ready.placed.main, fun _ => rfl⟩, ready.timer⟩
  have last : more run.service.controlCommand = false := core.single_control single
  have next := ready_controlGone ans success gone
  simp only [Run.update, last, Bool.false_and, Bool.false_eq_true, if_false] at next ⊢
  exact next

theorem ready_sigchld (single : Single cfg) (ans : Answers) {pid : Int32} (pos : 0 < pid)
    (code status : Int32) (core : Core cfg run.service) (ready : Ready cfg late run.service) :
    Ends cfg late (serviceSigchldEvent cfg ans pid code status run) := by
  unfold serviceSigchldEvent
  dsimp only
  split
  · rename_i main
    have keeps : run.service.state.keepsMain = true := by
      by_contra gone
      have idle := (ready.placed.main (by simpa using gone)).1
      exact Int32.ne_of_lt pos (idle.symm.trans main)
    have loaded : Ready cfg late (serviceLoadPidFile cfg ans run.service).1 :=
      ready.kept (kept_loadPidFile ans run.service) keeps
    have core' := core.loadPidFile ans
    revert loaded core'
    generalize serviceLoadPidFile cfg ans run.service = result
    obtain ⟨s, done⟩ := result
    intro loaded core'
    cases done with
    | true => exact ends_some loaded
    | false => exact ready_mainExited single ans pid code status _ core' loaded
  · split
    · exact ready_controlExited single ans _ core ready
    · exact ends_some ready

theorem ready_start (ans : Answers) (ready : Ready cfg late run.service) :
    Ends cfg late (serviceStart cfg ans run) := by
  unfold serviceStart
  cases run.service.state with
  | stop | stopSigterm | stopSigkill | stopPost | finalSigterm | finalSigkill | startPre | start
  | startPost => exact ends_some ready
  | dead | failed | autoRestart =>
    dsimp only
    split
    · exact ends_some ready
    · exact fun _ entered => ready_enterStartPre ans entered
  | running | exited | reload => exact ends_none

theorem ready_stop (ans : Answers) (ready : Ready cfg late run.service) :
    Ends cfg late (serviceStop cfg ans run) := by
  have forbidden : Ready cfg late (run.update fun s => { s with forbidRestart := true }).service :=
    ⟨⟨ready.placed.main, ready.placed.control⟩, ready.timer⟩
  unfold serviceStop
  revert forbidden
  generalize (run.update fun s => { s with forbidRestart := true }) = run
  intro ready
  dsimp only
  cases here : run.service.state with
  | stop | stopSigterm | stopSigkill | stopPost | finalSigterm | finalSigkill => exact ends_some ready
  | autoRestart => exact ends_some (ready_setState _ (fits_untimed rfl _))
  | startPre | start | startPost | reload =>
    exact ends_some (ready_enterSignal ans _ true rfl (by simp) (by simp)
      (.inl (ready.quiet (by simp [here]) (by simp [here]))))
  | running | exited =>
    exact ends_some (ready_enterStop ans true (ready.quiet (by simp [here]) (by simp [here])))
  | dead | failed => exact ends_none

theorem ready_reload (ans : Answers) (ready : Ready cfg late run.service) :
    Ends cfg late (serviceReload cfg ans run) := by
  unfold serviceReload
  cases here : run.service.state with
  | running | exited =>
    exact ends_some (ready_enterReload ans (ready.quiet (by simp [here]) (by simp [here])))
  | dead | startPre | start | startPost | reload | stop | stopSigterm | stopSigkill | stopPost
  | finalSigterm | finalSigkill | failed | autoRestart => exact ends_none

theorem ready_timerEvent (ans : Answers) (elapsed : run.service.timer = false) :
    Ends cfg late (serviceTimerEvent cfg ans run) := by
  have quiet : Quiet cfg run.service := fun _ => elapsed
  have signal : ∀ state : ServiceState, state.timed = true -> state ≠ .autoRestart -> state ≠ .start ->
      Ends cfg late (some (serviceEnterSignal cfg ans state false run)) :=
    fun state timed restarts starts =>
      ends_some (ready_enterSignal ans state false timed restarts starts (.inl quiet))
  unfold serviceTimerEvent
  split
  · exact signal _ rfl (by simp) (by simp)
  · exact signal _ rfl (by simp) (by simp)
  · exact ends_some (ready_enterStop ans false quiet)
  · exact ends_some (ready_enterRunning ans true fun _ => elapsed)
  · exact signal _ rfl (by simp) (by simp)
  · split
    · exact signal _ rfl (by simp) (by simp)
    · exact ends_some (ready_enterStopPost ans false run)
  · exact ends_some (ready_enterStopPost ans false run)
  · exact signal _ rfl (by simp) (by simp)
  · split
    · exact signal _ rfl (by simp) (by simp)
    · exact ends_some (ready_enterDead ans false run)
  · exact ends_some (ready_enterDead ans false run)
  · exact ends_some (ready_enterRestart ans run)
  all_goals exact ends_none

theorem ready_cgroupNotify (ans : Answers) (ready : Ready cfg late run.service) :
    Ready cfg late (serviceCgroupNotifyEvent cfg ans run).service := by
  unfold serviceCgroupNotifyEvent
  dsimp only
  split
  · rename_i here
    exact ready_enterRunning ans true (ready.quiet (by simp [here]) (by simp [here]))
  · split
    · exact ready_enterStopPost ans true run
    · exact ready
  · split
    · exact ready_enterStopPost ans true run
    · exact ready
  · split
    · exact ready_enterDead ans true run
    · exact ready
  · split
    · exact ready_enterDead ans true run
    · exact ready
  · exact ready

theorem keepsMain_of_accepts {state : ServiceState} (accepts : acceptsMainPid state = true) :
    state.keepsMain = true := by
  cases state <;> first | rfl | cases accepts

theorem ready_notifyMainPid (ans : Answers) (tags : List CString) (ready : Ready cfg late s) :
    Ready cfg late (notifyMainPid cfg ans tags s) := by
  unfold notifyMainPid
  split
  · split
    · rename_i accepts
      split
      · exact ready.kept (kept_setMainPid ans _ s) (keepsMain_of_accepts accepts)
      · exact ready
    · exact ready
  · exact ready

theorem ready_notifyStatus (tags : List CString) (ready : Ready cfg late s) :
    Ready cfg late (notifyStatus tags s) := by
  unfold notifyStatus
  split
  · exact ⟨⟨ready.placed.main, ready.placed.control⟩, ready.timer⟩
  · exact ready

theorem ready_notifyMessage (ans : Answers) (pid : Int32) (tags : List CString)
    (ready : Ready cfg late run.service) :
    Ready cfg late (serviceNotifyMessage cfg ans pid tags run).service := by
  have moved : Ready cfg late (run.update (notifyMainPid cfg ans tags)).service :=
    ready_notifyMainPid ans tags ready
  unfold serviceNotifyMessage
  split
  · exact ready
  · split
    · exact ready
    · dsimp only
      refine ready_notifyStatus tags ?_
      split
      · rename_i starting
        exact ready_enterStartPost ans
          (moved.quiet (by simp [starting.2.1]) (by simp [starting.2.1]))
      · exact moved

theorem ready_busNameOwnerChange (ans : Answers) (newOwner : Bool)
    (ready : Ready cfg late run.service) :
    Ready cfg late (serviceBusNameOwnerChange cfg ans newOwner run).service := by
  have changed : Ready cfg late (run.update fun s => { s with busNameGood := newOwner }).service :=
    ⟨⟨ready.placed.main, ready.placed.control⟩, ready.timer⟩
  unfold serviceBusNameOwnerChange
  revert changed
  generalize (run.update fun s => { s with busNameGood := newOwner }) = run
  intro ready
  dsimp only
  split
  · split
    · rename_i running
      exact ready_enterRunning ans true (ready.quiet (by simp [running]) (by simp [running]))
    · split
      · rename_i starting
        exact ready_enterStartPost ans (ready.quiet (by simp [starting.1]) (by simp [starting.1]))
      · exact ready
  · exact ready

theorem ready_busQueryPidDone (ans : Answers) (pid : Int32) (ready : Ready cfg late run.service) :
    Ready cfg late (serviceBusQueryPidDone cfg ans pid run).service := by
  unfold serviceBusQueryPidDone
  split
  · rename_i asked
    exact ready.kept (kept_setMainPid ans pid run.service) (keepsMain_of_accepts asked.2)
  · exact ready

theorem ready_resetFailed (ready : Ready cfg late run.service) :
    Ready cfg late (serviceResetFailed run).service := by
  have dead : Ready cfg late
      (if run.service.state = .failed then serviceSetState .dead run else run).service := by
    split
    · exact ready_setState _ (fits_untimed rfl _)
    · exact ready
  exact ⟨⟨dead.placed.main, dead.placed.control⟩, dead.timer⟩

section

variable (single : Single cfg)
include single

theorem ready_handle (ans : Answers) (event : Event) (core : Core cfg run.service)
    (ready : Ready cfg late run.service) : Ends cfg late (handle cfg ans event run) := by
  unfold handle
  split
  · exact ready_start ans ready
  · exact ready_stop ans ready
  · exact ready_reload ans ready
  · split
    · rename_i pos
      exact ready_sigchld single ans pos _ _ { core with }
        ⟨⟨ready.placed.main, ready.placed.control⟩, ready.timer⟩
    · exact ends_some ready
  · split
    · exact ready_timerEvent ans rfl
    · exact ends_some ready
  · exact ends_some (ready_cgroupNotify ans ready)
  · exact ends_some (ready_notifyMessage ans _ _ ready)
  · exact ends_some (ready_busNameOwnerChange ans _ ready)
  · exact ends_some (ready_busQueryPidDone ans _ ready)
  · exact ends_some (ready_resetFailed ready)

theorem core_handle {event : Event} (core : Core cfg run.service) (placed : Placed run.service)
    (handled : handle cfg ans event run = some run') : Core cfg run'.service := by
  have rest : Rest cfg ans.now run run := (Twin.refl core).rest
  have related := rest.handle single placed event
  rw [handled] at related
  cases related with
  | some rest => exact rest.left

theorem handle_valid {event : Event} (valid : Valid cfg run.service)
    (handled : handle cfg ans event run = some run') : Valid cfg run'.service := by
  have ready : Ready cfg True run.service := ⟨valid.placed, valid.timer⟩
  have ready' := ready_handle single ans event valid.core ready run' handled
  exact ⟨core_handle single valid.core valid.placed handled, ready'.placed, ready'.timer⟩

end

end

end Systemd.Services
