import Systemd.Services.Twin

set_option autoImplicit false

namespace Systemd.Services

def Single (cfg : Config) : Prop :=
  ∀ id, (cfg.execCommand id).length ≤ 1

def ServiceState.live : ServiceState -> Bool
  | .dead | .failed | .autoRestart => false
  | _ => true

def Rest (cfg : Config) (now : Nat) (run twin : Run) : Prop :=
  Twin cfg now (run.service.state.live = true) run twin

theorem rel_imp {α : Type} {Q Q' : α -> α -> Prop} {x y : Option α}
    (weaker : ∀ a b, Q a b -> Q' a b) (related : Option.Rel Q x y) : Option.Rel Q' x y := by
  cases related with
  | none => exact .none
  | some held => exact .some (weaker _ _ held)

theorem rel_map {α β : Type} {Q : α -> α -> Prop} {Q' : β -> β -> Prop} {f : α -> β} {x y : Option α}
    (kept : ∀ a b, Q a b -> Q' (f a) (f b)) (related : Option.Rel Q x y) :
    Option.Rel Q' (x.map f) (y.map f) := by
  cases related with
  | none => exact .none
  | some held => exact .some (kept _ _ held)

section

variable {cfg : Config} {now : Nat} {live : Prop} {run twin : Run}

variable {s t : Service}

theorem Core.single_main (single : Single cfg) (core : Core cfg s) : more s.mainCommand = false := by
  have short : s.mainCommand.length ≤ 1 := by
    rcases core.mainCommand with empty | same
    · simp [empty]
    · rw [same]
      exact single .start
  match commands : s.mainCommand with
  | [] => rfl
  | [_] => rfl
  | _ :: _ :: _ => simp [commands] at short

theorem Core.single_control (single : Single cfg) (core : Core cfg s) :
    more s.controlCommand = false := by
  have short : s.controlCommand.length ≤ 1 := by
    rcases core.controlCommand with empty | ⟨id, same⟩
    · simp [empty]
    · rw [same]
      exact single id
  match commands : s.controlCommand with
  | [] => rfl
  | [_] => rfl
  | _ :: _ :: _ => simp [commands] at short

theorem Twin.rest (twins : Twin cfg now True run twin) : Rest cfg now run twin :=
  twins.mono fun _ => trivial

section

variable (same : Same cfg now live s t)
include same

theorem Same.ratelimitTest : ratelimitTest now s.ratelimit = ratelimitTest now t.ratelimit := by
  rcases same.rate with equal | ⟨first, second⟩
  · rw [equal]
  · unfold Systemd.Services.ratelimitTest
    rw [Expired] at first second
    rw [if_pos first, if_pos second]

variable (ans : Answers)

theorem Same.setMainPid (pid : Int32) :
    Option.Rel (Same cfg now live) (serviceSetMainPid cfg ans pid s)
      (serviceSetMainPid cfg ans pid t) := by
  unfold serviceSetMainPid
  split
  · exact .none
  · exact .some { same with
      mainPid := rfl
      known := rfl
      code := rfl
      alien := fun _ _ => rfl }

theorem Same.adoptMainPid (pid : Int32) :
    Option.Rel (Same cfg now live) (adoptMainPid cfg ans pid s) (adoptMainPid cfg ans pid t) := by
  refine rel_map (fun s t same => ?_) (same.setMainPid ans pid)
  split
  · exact { same with }
  · exact same

theorem Same.forgetMainPid : Same cfg now live s.forgetMainPid t.forgetMainPid := by
  unfold Service.forgetMainPid
  rw [same.known]
  split
  · exact { same with mainPid := rfl, known := rfl, alien := fun _ held => by cases held }
  · exact same

theorem Same.loadPidFile :
    (serviceLoadPidFile cfg ans s).2 = (serviceLoadPidFile cfg ans t).2 ∧
    Same cfg now live (serviceLoadPidFile cfg ans s).1
      (serviceLoadPidFile cfg ans t).1 := by
  unfold serviceLoadPidFile
  split
  · rename_i pid _ _
    rw [same.known, same.mainPid]
    split
    · exact ⟨rfl, same⟩
    · have forgotten := same.forgetMainPid
      have found := forgotten.adoptMainPid ans pid
      dsimp only
      revert found
      generalize Systemd.Services.adoptMainPid cfg ans pid s.forgetMainPid = chosen
      generalize Systemd.Services.adoptMainPid cfg ans pid t.forgetMainPid = chosen'
      intro found
      cases found with
      | none => exact ⟨rfl, forgotten⟩
      | some held => exact ⟨rfl, held⟩
  · exact ⟨rfl, same⟩

end

namespace Twin

section

variable (twins : Twin cfg now live run twin)
include twins

variable (ans : Answers)

theorem loadPidFile :
    Twin cfg now live { run with service := (serviceLoadPidFile cfg ans run.service).1 }
      { twin with service := (serviceLoadPidFile cfg ans twin.service).1 } :=
  ⟨twins.left.loadPidFile ans, twins.right.loadPidFile ans,
    (twins.same.loadPidFile ans).2, twins.outputs⟩

theorem adoptMainPid (pid : Int32) :
    Twin cfg now live (run.update fun s => (adoptMainPid cfg ans pid s).getD s)
      (twin.update fun s => (adoptMainPid cfg ans pid s).getD s) := by
  refine ⟨twins.left.adoptMainPid ans pid, twins.right.adoptMainPid ans pid, ?_, twins.outputs⟩
  have found := twins.same.adoptMainPid ans pid
  simp only [Run.update]
  revert found
  generalize Systemd.Services.adoptMainPid cfg ans pid run.service = chosen
  generalize Systemd.Services.adoptMainPid cfg ans pid twin.service = chosen'
  intro found
  cases found with
  | none => exact twins.same
  | some held => exact held

theorem searchMainPid :
    Option.Rel (Twin cfg now live)
      ((serviceSearchMainPid cfg ans run.service).map fun s => { run with service := s })
      ((serviceSearchMainPid cfg ans twin.service).map fun s => { twin with service := s }) := by
  unfold serviceSearchMainPid
  rw [twins.same.known, twins.same.mainPid]
  split
  · exact .some twins
  · split
    · exact .none
    · split
      · exact .some twins
      · exact .some (twins.adoptMainPid ans ans.cgroupPid)

theorem findMainPid :
    Option.Rel (Twin cfg now live) (findMainPid cfg ans run) (findMainPid cfg ans twin) :=
  (twins.loadPidFile ans).searchMainPid ans

end

theorem mainGone (twins : Twin cfg now True run twin) (ans : Answers) (success : Bool) :
    Option.Rel (Twin cfg now True) (mainGone cfg ans success run) (mainGone cfg ans success twin) := by
  unfold Systemd.Services.mainGone controlPidGood
  rw [twins.same.state, twins.same.controlPid]
  cases twin.service.state with
  | start =>
    dsimp only
    split
    · split
      · exact .some (twins.enterStartPost ans)
      · exact .some (twins.enterSignal ans .finalSigterm false)
    · split
      · exact .some (twins.enterRunning ans success)
      · exact .none
  | running => exact .some (twins.enterRunning ans success)
  | stopSigterm | stopSigkill =>
    dsimp only
    split
    · exact .some twins
    · exact .some (twins.enterStopPost ans success)
  | startPost | reload | stop => exact .some twins
  | dead | startPre | exited | stopPost | finalSigterm | finalSigkill | failed | autoRestart =>
    exact .none

theorem mainExited (single : Single cfg) (twins : Twin cfg now True run twin)
    (ans : Answers) {pid : Int32} (pos : 0 < pid) (code status : Int32) (success : Bool) :
    Option.Rel (Twin cfg now True) (mainExited cfg ans pid code status success run)
      (mainExited cfg ans pid code status success twin) := by
  unfold Systemd.Services.mainExited
  rw [twins.same.ignore]
  dsimp only
  generalize (success || ignores twin.service.mainCommand) = success
  have exited : ∀ s, Core cfg s -> Core cfg { s with
      mainPid := 0
      mainExecStatus := execStatusExit ans.clock pid code status s.mainExecStatus
      failure := s.failure || !success
      mainCommand := [] } := fun s core => { core with
    main := .inl rfl
    mainCommand := .inl rfl
    status := .inr pos
    exited := fun _ => pos
    unset := fun unset => absurd (ans.clockRuns.symm.trans unset) (by simp) }
  have gone : Twin cfg now True
      ((run.update fun s => { s with
        mainPid := 0
        mainExecStatus := execStatusExit ans.clock pid code status s.mainExecStatus
        failure := s.failure || !success }).update fun s => { s with mainCommand := [] })
      ((twin.update fun s => { s with
        mainPid := 0
        mainExecStatus := execStatusExit ans.clock pid code status s.mainExecStatus
        failure := s.failure || !success }).update fun s => { s with mainCommand := [] }) := by
    refine ⟨exited _ twins.left, exited _ twins.right, ?_, twins.outputs⟩
    exact { twins.same with
      mainPid := rfl
      code := rfl
      failure := by
        show (run.service.failure || !success) = (twin.service.failure || !success)
        rw [twins.same.failure]
      ignore := rfl }
  have last : more run.service.mainCommand = false := twins.left.single_main single
  have last' : more twin.service.mainCommand = false := twins.right.single_main single
  have next := gone.mainGone ans success
  simp only [Run.update, last, last', Bool.false_and, Bool.false_eq_true, if_false] at next ⊢
  exact next

theorem controlGone (twins : Twin cfg now True run twin) (idle : run.service.controlPid = 0)
    (ans : Answers) (success : Bool) :
    Option.Rel (Twin cfg now True) (controlGone cfg ans success run)
      (controlGone cfg ans success twin) := by
  have found : Option.Rel (Twin cfg now True)
      (if success then Systemd.Services.findMainPid cfg ans run else some run)
      (if success then Systemd.Services.findMainPid cfg ans twin else some twin) := by
    split
    · exact twins.findMainPid ans
    · exact .some twins
  unfold Systemd.Services.controlGone
  rw [twins.same.state, twins.mainPidGood ans]
  cases twin.service.state with
  | startPre =>
    dsimp only
    split
    · exact twins.enterStart idle ans
    · exact .some (twins.enterSignal ans .finalSigterm false)
  | start =>
    dsimp only
    split
    · exact .none
    · split
      · exact rel_map (fun _ _ twins => twins.enterStartPost ans) (twins.findMainPid ans)
      · exact .some (twins.enterSignal ans .finalSigterm false)
  | startPost | reload =>
    exact rel_map (fun _ _ twins => (twins.reloadFailed (!success)).enterRunning ans true) found
  | stop => exact .some (twins.enterSignal ans .stopSigterm success)
  | stopSigterm | stopSigkill =>
    dsimp only
    split
    · exact .some twins
    · exact .some (twins.enterStopPost ans success)
  | stopPost | finalSigterm | finalSigkill => exact .some (twins.enterDead ans success)
  | dead | running | exited | failed | autoRestart => exact .none

theorem controlExited (single : Single cfg) (twins : Twin cfg now True run twin)
    (ans : Answers) (running : 0 < run.service.controlPid) (success : Bool) :
    Option.Rel (Twin cfg now True) (controlExited cfg ans success run)
      (controlExited cfg ans success twin) := by
  unfold Systemd.Services.controlExited
  rw [twins.same.control running]
  dsimp only
  generalize (success || ignores twin.service.controlCommand) = success
  have exited : ∀ s, Core cfg s -> Core cfg { s with
      controlPid := 0
      failure := s.failure || !success
      controlCommand := []
      controlCommandId := none } := fun s core => { core with
    control := .inl rfl
    controlCommand := .inl rfl }
  have gone : Twin cfg now True
      ((run.update fun s => { s with controlPid := 0, failure := s.failure || !success }).update
        fun s => { s with controlCommand := [], controlCommandId := none })
      ((twin.update fun s => { s with controlPid := 0, failure := s.failure || !success }).update
        fun s => { s with controlCommand := [], controlCommandId := none }) := by
    refine ⟨exited _ twins.left, exited _ twins.right, ?_, twins.outputs⟩
    exact { twins.same with
      controlPid := rfl
      control := fun _ => rfl
      failure := by
        show (run.service.failure || !success) = (twin.service.failure || !success)
        rw [twins.same.failure] }
  have last : more run.service.controlCommand = false := twins.left.single_control single
  have last' : more twin.service.controlCommand = false := twins.right.single_control single
  have next := gone.controlGone rfl ans success
  simp only [Run.update, last, last', Bool.false_and, Bool.false_eq_true, if_false] at next ⊢
  exact next

theorem sigchldEvent (single : Single cfg) (twins : Twin cfg now True run twin)
    (ans : Answers) {pid : Int32} (pos : 0 < pid) (code status : Int32) :
    Option.Rel (Twin cfg now True) (serviceSigchldEvent cfg ans pid code status run)
      (serviceSigchldEvent cfg ans pid code status twin) := by
  unfold serviceSigchldEvent
  rw [← twins.same.mainPid, ← twins.same.controlPid]
  dsimp only
  split
  · have loaded := (twins.same.loadPidFile ans).1
    have changed := twins.loadPidFile ans
    revert loaded changed
    generalize serviceLoadPidFile cfg ans run.service = first
    generalize serviceLoadPidFile cfg ans twin.service = second
    obtain ⟨s, done⟩ := first
    obtain ⟨t, done'⟩ := second
    rintro (rfl : done = done') changed
    cases done with
    | true => exact .some changed
    | false => exact changed.mainExited single ans pos code status _
  · split
    · rename_i same
      exact twins.controlExited single ans (same ▸ pos) _
    · exact .some twins

end Twin

theorem Twin.rest_of_dead (twins : Twin cfg now live run twin)
    (dead : run.service.state.live = false) : Rest cfg now run twin :=
  twins.mono fun held => by
    rw [dead] at held
    cases held

theorem Rest.twins (rest : Rest cfg now run twin) (held : run.service.state.live = true) :
    Twin cfg now True run twin :=
  rest.mono fun _ => held

theorem state_serviceSetState (state : ServiceState) (run : Run) :
    (serviceSetState state run).service.state = state := by
  rw [serviceSetState, setState_eq]

theorem stayDead_dead (success : Bool) (run : Run) :
    (serviceStayDead success run).service.state.live = false := by
  have entered : ∀ state : ServiceState, state.live = false ->
      ((serviceSetState state (run.update (.withResult success))).update .allowRestart).service.state.live =
        false := by
    intro state dead
    show (serviceSetState state (run.update (.withResult success))).service.state.live = false
    rw [state_serviceSetState, dead]
  unfold serviceStayDead
  apply entered
  split
  · rfl
  · rfl

theorem enterRestart_dead (ans : Answers) (run : Run) :
    (serviceEnterRestart ans run).service.state.live = false := by
  unfold serviceEnterRestart
  split
  · exact stayDead_dead _ _
  · dsimp only
    split
    · exact stayDead_dead _ _
    · exact stayDead_dead _ _

theorem state_setMainPid (ans : Answers) (pid : Int32) (s : Service) :
    ((serviceSetMainPid cfg ans pid s).getD s).state = s.state := by
  unfold serviceSetMainPid
  split
  · rfl
  · rfl

namespace Rest

def limitedStart (cfg : Config) (ans : Answers) (run : Run) : Bool × RateLimit -> Option Run
  | (false, _) => some run
  | (true, ratelimit) => serviceEnterStartPre cfg ans (run.update fun s =>
    { s with
      ratelimit := ratelimit
      failure := false
      mainPidKnown := false
      mainPidAlien := false
      forbidRestart := false })

theorem start {ans : Answers} (rest : Rest cfg ans.now run twin) (placed : Placed run.service) :
    Option.Rel (Rest cfg ans.now) (serviceStart cfg ans run) (serviceStart cfg ans twin) := by
  have begins (dead : run.service.state.keepsMain = false) :
      Option.Rel (Rest cfg ans.now)
        (limitedStart cfg ans run (ratelimitTest ans.now run.service.ratelimit))
        (limitedStart cfg ans twin (ratelimitTest ans.now twin.service.ratelimit)) := by
    have idle := (placed.main dead).1
    have idle' : twin.service.mainPid = 0 := rest.same.mainPid ▸ idle
    rw [rest.same.ratelimitTest]
    generalize ratelimitTest ans.now twin.service.ratelimit = test
    obtain ⟨allowed, ratelimit⟩ := test
    cases allowed with
    | false => exact .some rest
    | true =>
      refine rel_imp (fun _ _ twins => Twin.rest twins) (Twin.enterStartPre ?_ ans)
      exact ⟨{ rest.left with main := .inl idle }, { rest.right with main := .inl idle' },
        { rest.same with
          failure := rfl
          known := rfl
          forbidden := rfl
          alien := fun _ held => by cases held
          rate := .inl rfl },
        rest.outputs⟩
  unfold serviceStart
  rw [← rest.same.state]
  cases here : run.service.state with
  | stop | stopSigterm | stopSigkill | stopPost | finalSigterm | finalSigkill | startPre | start
  | startPost => exact .some rest
  | dead | failed | autoRestart => exact begins (by rw [here]; rfl)
  | running | exited | reload => exact .none

theorem stop (rest : Rest cfg now run twin) (ans : Answers) :
    Option.Rel (Rest cfg now) (serviceStop cfg ans run) (serviceStop cfg ans twin) := by
  have forbidden : Rest cfg now (run.update fun s => { s with forbidRestart := true })
      (twin.update fun s => { s with forbidRestart := true }) :=
    ⟨{ rest.left with }, { rest.right with }, { rest.same with forbidden := rfl }, rest.outputs⟩
  unfold serviceStop
  revert forbidden
  generalize (run.update fun s => { s with forbidRestart := true }) = run
  generalize (twin.update fun s => { s with forbidRestart := true }) = twin
  intro rest
  dsimp only
  rw [← rest.same.state]
  have twins := rest.twins
  cases here : run.service.state with
  | stop | stopSigterm | stopSigkill | stopPost | finalSigterm | finalSigkill => exact .some rest
  | autoRestart =>
    refine .some (Twin.rest_of_dead (Twin.setState rest .dead) ?_)
    rw [state_serviceSetState]
    rfl
  | startPre | start | startPost | reload =>
    exact .some ((twins (by rw [here]; rfl)).enterSignal ans .stopSigterm true).rest
  | running | exited => exact .some ((twins (by rw [here]; rfl)).enterStop ans true).rest
  | dead | failed => exact .none

theorem reload (rest : Rest cfg now run twin) (ans : Answers) :
    Option.Rel (Rest cfg now) (serviceReload cfg ans run) (serviceReload cfg ans twin) := by
  unfold serviceReload
  rw [← rest.same.state]
  cases here : run.service.state with
  | running | exited =>
    exact .some ((rest.twins (by rw [here]; rfl)).enterReload ans).rest
  | dead | startPre | start | startPost | reload | stop | stopSigterm | stopSigkill | stopPost
  | finalSigterm | finalSigkill | failed | autoRestart => exact .none

theorem sigchld (single : Single cfg) (rest : Rest cfg now run twin) (placed : Placed run.service)
    (ans : Answers) {pid : Int32} (pos : 0 < pid) (code status : Int32) :
    Option.Rel (Rest cfg now) (serviceSigchldEvent cfg ans pid code status run)
      (serviceSigchldEvent cfg ans pid code status twin) := by
  by_cases held : run.service.state.live = true
  · exact rel_imp (fun _ _ twins => Twin.rest twins)
      ((rest.twins held).sigchldEvent single ans pos code status)
  · have down : run.service.state.keepsMain = false ∧ run.service.state.keepsControl = false := by
      cases here : run.service.state <;> simp [here, ServiceState.live] at held <;>
        exact ⟨rfl, rfl⟩
    have noMain : run.service.mainPid ≠ pid := by
      rw [(placed.main down.1).1]
      exact Int32.ne_of_lt pos
    have noControl : run.service.controlPid ≠ pid := by
      rw [placed.control down.2]
      exact Int32.ne_of_lt pos
    unfold serviceSigchldEvent
    rw [← rest.same.mainPid, ← rest.same.controlPid]
    simp only [noMain, noControl, if_false]
    exact .some rest

section

variable (rest : Rest cfg now run twin)
include rest

variable (ans : Answers)

theorem timerEvent :
    Option.Rel (Rest cfg now) (serviceTimerEvent cfg ans run) (serviceTimerEvent cfg ans twin) := by
  unfold serviceTimerEvent
  rw [← rest.same.state]
  have twins := rest.twins
  cases here : run.service.state with
  | startPre | start | stopPost =>
    exact .some ((twins (by rw [here]; rfl)).enterSignal ans .finalSigterm false).rest
  | startPost => exact .some ((twins (by rw [here]; rfl)).enterStop ans false).rest
  | reload =>
    exact .some (((twins (by rw [here]; rfl)).reloadFailed true).enterRunning ans true).rest
  | stop => exact .some ((twins (by rw [here]; rfl)).enterSignal ans .stopSigterm false).rest
  | stopSigterm =>
    dsimp only
    split
    · exact .some ((twins (by rw [here]; rfl)).enterSignal ans .stopSigkill false).rest
    · exact .some ((twins (by rw [here]; rfl)).enterStopPost ans false).rest
  | stopSigkill => exact .some ((twins (by rw [here]; rfl)).enterStopPost ans false).rest
  | finalSigterm =>
    dsimp only
    split
    · exact .some ((twins (by rw [here]; rfl)).enterSignal ans .finalSigkill false).rest
    · exact .some ((twins (by rw [here]; rfl)).enterDead ans false).rest
  | finalSigkill => exact .some ((twins (by rw [here]; rfl)).enterDead ans false).rest
  | autoRestart =>
    exact .some ((Twin.enterRestart rest ans).rest_of_dead (enterRestart_dead ans run))
  | dead | running | exited | failed => exact .none

theorem cgroupNotifyEvent :
    Rest cfg now (serviceCgroupNotifyEvent cfg ans run) (serviceCgroupNotifyEvent cfg ans twin) := by
  unfold serviceCgroupNotifyEvent controlPidGood
  rw [← rest.same.state, ← rest.same.controlPid]
  cases here : run.service.state with
  | running => exact ((rest.twins (by rw [here]; rfl)).enterRunning ans true).rest
  | stopSigterm | stopSigkill =>
    have twins := rest.twins (by rw [here]; rfl)
    simp only [twins.mainPidGood ans]
    split
    · exact (twins.enterStopPost ans true).rest
    · exact twins.rest
  | finalSigterm | finalSigkill =>
    have twins := rest.twins (by rw [here]; rfl)
    simp only [twins.mainPidGood ans]
    split
    · exact (twins.enterDead ans true).rest
    · exact twins.rest
  | dead | startPre | start | startPost | exited | reload | stop | stopPost | failed
  | autoRestart => exact rest

theorem notifyStatus (tags : List CString) :
    Rest cfg now (run.update (notifyStatus tags)) (twin.update (notifyStatus tags)) := by
  unfold Systemd.Services.notifyStatus
  split
  · exact ⟨{ rest.left with }, { rest.right with }, { rest.same with }, rest.outputs⟩
  · exact rest

theorem notifyMessage (pid : Int32) (tags : List CString) :
    Rest cfg now (serviceNotifyMessage cfg ans pid tags run)
      (serviceNotifyMessage cfg ans pid tags twin) := by
  have moved : Rest cfg now (run.update (notifyMainPid cfg ans tags))
      (twin.update (notifyMainPid cfg ans tags)) := by
    simp only [Run.update, notifyMainPid, ← rest.same.state]
    split
    · split
      · split
        · rename_i chosen _
          refine Twin.mono (Twin.setMainPid rest ans chosen) fun held => ?_
          simpa only [state_setMainPid] using held
        · exact rest
      · exact rest
    · exact rest
  have ready : Rest cfg now
      (if cfg.type = .notify ∧ (run.update (notifyMainPid cfg ans tags)).service.state = .start ∧
          CString.ofString "READY=1" ∈ tags then
        serviceEnterStartPost cfg ans (run.update (notifyMainPid cfg ans tags))
      else run.update (notifyMainPid cfg ans tags))
      (if cfg.type = .notify ∧ (twin.update (notifyMainPid cfg ans tags)).service.state = .start ∧
          CString.ofString "READY=1" ∈ tags then
        serviceEnterStartPost cfg ans (twin.update (notifyMainPid cfg ans tags))
      else twin.update (notifyMainPid cfg ans tags)) := by
    rw [← moved.same.state]
    split
    · rename_i starting
      exact ((moved.twins (by rw [starting.2.1]; rfl)).enterStartPost ans).rest
    · exact moved
  unfold serviceNotifyMessage
  rw [← rest.same.mainPid]
  split
  · exact rest
  · split
    · exact rest
    · exact ready.notifyStatus tags

theorem busNameOwnerChange (newOwner : Bool) :
    Rest cfg now (serviceBusNameOwnerChange cfg ans newOwner run)
      (serviceBusNameOwnerChange cfg ans newOwner twin) := by
  have changed : Rest cfg now (run.update fun s => { s with busNameGood := newOwner })
      (twin.update fun s => { s with busNameGood := newOwner }) :=
    ⟨{ rest.left with }, { rest.right with }, { rest.same with bus := fun _ => rfl }, rest.outputs⟩
  unfold serviceBusNameOwnerChange
  revert changed
  generalize (run.update fun s => { s with busNameGood := newOwner }) = run
  generalize (twin.update fun s => { s with busNameGood := newOwner }) = twin
  intro rest
  dsimp only
  rw [← rest.same.state]
  split
  · split
    · rename_i running
      exact ((rest.twins (by rw [running]; rfl)).enterRunning ans true).rest
    · split
      · rename_i starting
        exact ((rest.twins (by rw [starting.1]; rfl)).enterStartPost ans).rest
      · exact rest
  · exact rest

theorem busQueryPidDone (pid : Int32) :
    Rest cfg now (serviceBusQueryPidDone cfg ans pid run)
      (serviceBusQueryPidDone cfg ans pid twin) := by
  unfold serviceBusQueryPidDone
  rw [← rest.same.state, ← rest.same.mainPid]
  split
  · refine Twin.mono (Twin.setMainPid rest ans pid) fun held => ?_
    simpa only [Run.update, state_setMainPid] using held
  · exact rest

theorem resetFailed : Rest cfg now (serviceResetFailed run) (serviceResetFailed twin) := by
  have dead : Rest cfg now (if run.service.state = .failed then serviceSetState .dead run else run)
      (if twin.service.state = .failed then serviceSetState .dead twin else twin) := by
    rw [← rest.same.state]
    split
    · exact Twin.rest_of_dead (Twin.setState rest .dead) (by rw [state_serviceSetState]; rfl)
    · exact rest
  exact ⟨{ dead.left with }, { dead.right with }, { dead.same with failure := rfl }, dead.outputs⟩

end

theorem handle (single : Single cfg) {ans : Answers} (rest : Rest cfg ans.now run twin)
    (placed : Placed run.service) (event : Event) :
    Option.Rel (Rest cfg ans.now) (handle cfg ans event run) (handle cfg ans event twin) := by
  cases event with
  | start => exact rest.start placed
  | stop => exact rest.stop ans
  | reload => exact rest.reload ans
  | sigchld pid code status =>
    simp only [Systemd.Services.handle]
    split
    · rename_i pos
      have forgotten : Rest cfg ans.now (run.update (.unwatchPid pid))
          (twin.update (.unwatchPid pid)) :=
        ⟨{ rest.left with }, { rest.right with }, { rest.same with }, rest.outputs⟩
      exact forgotten.sigchld single ⟨placed.main, placed.control⟩ ans pos code status
    · exact .some rest
  | timer =>
    simp only [Systemd.Services.handle]
    rw [← rest.same.timer]
    split
    · exact timerEvent (Twin.disarm rest) ans
    · exact .some rest
  | cgroupEmpty => exact .some (rest.cgroupNotifyEvent ans)
  | notify pid tags => exact .some (rest.notifyMessage ans pid tags)
  | busNameOwner newOwner => exact .some (rest.busNameOwnerChange ans newOwner)
  | busPid pid => exact .some (rest.busQueryPidDone ans pid)
  | resetFailed => exact .some rest.resetFailed

end Rest

end

end Systemd.Services
