import Systemd.Units.Numbers

set_option autoImplicit false

namespace Systemd.Services

open Serialization (DualTimestamp parsePid)

inductive ServiceState where
  | dead
  | startPre
  | start
  | startPost
  | running
  | exited
  | reload
  | stop
  | stopSigterm
  | stopSigkill
  | stopPost
  | finalSigterm
  | finalSigkill
  | failed
  | autoRestart
  deriving DecidableEq

namespace ServiceState

def timed : ServiceState -> Bool
  | .startPre | .start | .startPost | .reload | .stop | .stopSigterm | .stopSigkill | .stopPost
  | .finalSigterm | .finalSigkill | .autoRestart => true
  | .dead | .running | .exited | .failed => false

def keepsMain : ServiceState -> Bool
  | .start | .startPost | .running | .reload | .stop | .stopSigterm | .stopSigkill => true
  | .dead | .startPre | .exited | .stopPost | .finalSigterm | .finalSigkill | .failed
  | .autoRestart => false

def keepsControl : ServiceState -> Bool
  | .startPre | .start | .startPost | .reload | .stop | .stopSigterm | .stopSigkill | .stopPost
  | .finalSigterm | .finalSigkill => true
  | .dead | .running | .exited | .failed | .autoRestart => false

end ServiceState

inductive ServiceType where
  | simple
  | forking
  | oneshot
  | dbus
  | notify
  deriving DecidableEq

inductive ServiceRestart where
  | no
  | onSuccess
  | onFailure
  | onAbort
  | always
  deriving DecidableEq

inductive ServiceExecCommand where
  | startPre
  | start
  | startPost
  | reload
  | stop
  | stopPost
  deriving DecidableEq

inductive NotifyAccess where
  | nobody
  | all
  | main
  deriving DecidableEq

inductive KillMode where
  | controlGroup
  | process
  | nothing
  deriving DecidableEq

structure ExecCommand where
  argv : List String
  ignore : Bool
  deriving DecidableEq

/-- The settings of the unit file that decide about the states of the service, and the process id of
the manager. -/
structure Config where
  type : ServiceType
  restart : ServiceRestart
  pidFile : Bool
  timeoutUsec : Nat
  remainAfterExit : Bool
  guessMainPid : Bool
  notifyAccess : NotifyAccess
  killMode : KillMode
  sendSigkill : Bool
  fragmentPath : Bool
  execCommand : ServiceExecCommand -> List ExecCommand
  managerPid : Int32

structure RateLimit where
  begin : Nat := 0
  num : Nat := 0
  deriving DecidableEq

structure ExecStatus where
  pid : Int32 := 0
  startTimestamp : DualTimestamp := ⟨0, 0⟩
  exitTimestamp : DualTimestamp := ⟨0, 0⟩
  code : Int32 := 0
  status : Int32 := 0

/-- A service as service_init leaves it. A command that is not set is an empty list, otherwise the
list is the command and those that follow it. The processes `watched` are those that the manager's
table maps to the service. -/
structure Service where
  state : ServiceState := .dead
  deserializedState : ServiceState := .dead
  mainExecStatus : ExecStatus := {}
  controlCommand : List ExecCommand := []
  mainCommand : List ExecCommand := []
  controlCommandId : Option ServiceExecCommand := none
  mainPid : Int32 := 0
  controlPid : Int32 := 0
  failure : Bool := false
  reloadFailure : Bool := false
  mainPidKnown : Bool := false
  mainPidAlien : Bool := false
  busNameGood : Bool := false
  forbidRestart : Bool := false
  statusText : Option CString := none
  ratelimit : RateLimit := {}
  timer : Bool := false
  watched : Finset Int32 := ∅

inductive SpawnAnswer where
  | forked (pid : Int32) (pos : 0 < pid)
  | noFds
  | failed

/-- How it went to send the signals for a state: whether the main and the control process got it or
were gone already, whether the control group had another process to kill, and whether the memory and
the timer for it were there. -/
structure KillAnswer where
  main : Bool
  control : Bool
  group : Bool
  memory : Bool
  timer : Bool

structure Answers where
  clock : DualTimestamp
  clockRuns : clock.isSet = true
  spawn : ServiceExecCommand -> SpawnAnswer
  kill : ServiceState -> KillAnswer
  watchTimer : Bool
  watchPid : Bool
  pidFile : Option Int32
  cgroupPid : Int32
  cgroupGood : Bool
  alive : Int32 -> Bool
  alien : Int32 -> Bool
  jobPending : Bool
  addJob : Bool

inductive Output where
  | entered (state : ServiceState)
  | spawned (id : ServiceExecCommand) (command : ExecCommand)
  | notSpawned (id : ServiceExecCommand) (command : ExecCommand)
  deriving DecidableEq

structure Run where
  service : Service
  outputs : List Output

def Run.update (run : Run) (change : Service -> Service) : Run :=
  { run with service := change run.service }

namespace Service

def withResult (success : Bool) (s : Service) : Service :=
  { s with failure := s.failure || !success }

def disarm (s : Service) : Service := { s with timer := false }

def arm (s : Service) : Service := { s with timer := true }

def watchPid (pid : Int32) (s : Service) : Service := { s with watched := insert pid s.watched }

def unwatchPid (pid : Int32) (s : Service) : Service := { s with watched := s.watched.erase pid }

def unwatchMainPid (s : Service) : Service := { s.unwatchPid s.mainPid with mainPid := 0 }

def unwatchControlPid (s : Service) : Service := { s.unwatchPid s.controlPid with controlPid := 0 }

def keepTimer (state : ServiceState) (s : Service) : Service :=
  if state.timed then s else s.disarm

def keepMain (state : ServiceState) (s : Service) : Service :=
  if state.keepsMain then s else { s.unwatchMainPid with mainCommand := [] }

def keepControl (state : ServiceState) (s : Service) : Service :=
  if state.keepsControl then s
  else { s.unwatchControlPid with controlCommand := [], controlCommandId := none }

def setState (state : ServiceState) (s : Service) : Service :=
  let s := { s with state := state }
  let s := ((s.keepTimer state).keepMain state).keepControl state
  { s with reloadFailure := false }

end Service

def serviceSetState (state : ServiceState) (run : Run) : Run :=
  ⟨run.service.setState state, run.outputs ++ [.entered state]⟩

def execStatusStart (clock : DualTimestamp) (pid : Int32) : ExecStatus :=
  { pid := pid, startTimestamp := clock }

def execStatusExit (clock : DualTimestamp) (pid code status : Int32) (old : ExecStatus) : ExecStatus :=
  let old : ExecStatus :=
    if (old.pid ≠ 0 ∧ old.pid ≠ pid) ∨ old.startTimestamp.realtime ≠ 0 then {} else old
  { old with pid := pid, exitTimestamp := clock, code := code, status := status }

def serviceSetMainPid (cfg : Config) (ans : Answers) (pid : Int32) (s : Service) :
    Option Service :=
  if pid ≤ 1 ∨ pid = cfg.managerPid then none
  else some { s with
    mainPid := pid
    mainPidKnown := true
    mainPidAlien := ans.alien pid
    mainExecStatus := execStatusStart ans.clock pid }

def Service.forgetMainPid (s : Service) : Service :=
  if s.mainPidKnown then { s.unwatchMainPid with mainPidKnown := false } else s

def adoptMainPid (cfg : Config) (ans : Answers) (pid : Int32) (s : Service) : Option Service :=
  (serviceSetMainPid cfg ans pid s).map fun s =>
    if ans.watchPid then s.watchPid pid else s

-- Whether service_load_pid_file returns 0 comes second.
def serviceLoadPidFile (cfg : Config) (ans : Answers) (s : Service) : Service × Bool :=
  match cfg.pidFile, ans.pidFile with
  | true, some pid =>
    if s.mainPidKnown ∧ pid = s.mainPid then (s, true)
    else
      let s := s.forgetMainPid
      match adoptMainPid cfg ans pid s with
      | some s => (s, ans.watchPid)
      | none => (s, false)
  | _, _ => (s, false)

-- Here and below none means that an assertion fails.
def serviceSearchMainPid (cfg : Config) (ans : Answers) (s : Service) : Option Service :=
  if s.mainPidKnown ∨ !cfg.guessMainPid then some s
  else if 0 < s.mainPid then none
  else if ans.cgroupPid ≤ 0 then some s
  else some ((adoptMainPid cfg ans ans.cgroupPid s).getD s)

def serviceSpawn (cfg : Config) (ans : Answers) (id : ServiceExecCommand)
    (command : ExecCommand) (timeout : Bool) (run : Run) : Run × Option Int32 :=
  match ans.spawn id with
  | .noFds =>
    (⟨if timeout then run.service.disarm else run.service, run.outputs ++ [.notSpawned id command]⟩, none)
  | .failed => (⟨run.service.disarm, run.outputs ++ [.notSpawned id command]⟩, none)
  | .forked pid _ =>
    (⟨{ run.service.watchPid pid with timer := timeout && decide (0 < cfg.timeoutUsec) },
      run.outputs ++ [.spawned id command]⟩, some pid)

def mainPidGood (ans : Answers) (s : Service) : Option Bool :=
  if s.mainPidKnown then
    some (if s.mainPidAlien then ans.alive s.mainPid else decide (0 < s.mainPid))
  else none

def controlPidGood (s : Service) : Bool := 0 < s.controlPid

def cldExited : Int32 := 1

def cldKilled : Int32 := 2

def cldDumped : Int32 := 3

def restartWanted (cfg : Config) (s : Service) : Bool :=
  match cfg.restart with
  | .no => false
  | .onSuccess => !s.failure
  | .onFailure => s.failure
  | .onAbort =>
    s.failure && (s.mainExecStatus.code == cldKilled || s.mainExecStatus.code == cldDumped)
  | .always => true

def Service.allowRestart (s : Service) : Service := { s with forbidRestart := false }

-- service_enter_dead with allow_restart = false.
def serviceStayDead (success : Bool) (run : Run) : Run :=
  let run := run.update (.withResult success)
  (serviceSetState (if run.service.failure then .failed else .dead) run).update .allowRestart

def serviceEnterDead (cfg : Config) (ans : Answers) (success : Bool) (run : Run) : Run :=
  let run := run.update (.withResult success)
  if !run.service.forbidRestart && restartWanted cfg run.service then
    if ans.watchTimer then
      (serviceSetState .autoRestart (run.update .arm)).update .allowRestart
    else serviceStayDead false run
  else serviceStayDead true run

-- Whether there is something to wait for, if the processes could be killed at all.
def killProcesses (cfg : Config) (ans : Answers) (state : ServiceState) (s : Service) :
    Option Bool :=
  let answer := ans.kill state
  let waitForMain := decide (0 < s.mainPid) && answer.main && !s.mainPidAlien
  let waitForControl := decide (0 < s.controlPid) && answer.control
  match cfg.killMode with
  | .nothing => some false
  | .process => some (waitForMain || waitForControl)
  | .controlGroup => if answer.memory then some (waitForMain || waitForControl || answer.group) else none

-- service_enter_signal, where `next` is what comes when there is nothing to wait for.
def enterSignalThen (cfg : Config) (ans : Answers) (state : ServiceState) (success : Bool)
    (next : Bool -> Run -> Run) (run : Run) : Run :=
  let run := run.update (.withResult success)
  match killProcesses cfg ans state run.service with
  | none => next false run
  | some false => next true run
  | some true =>
    if 0 < cfg.timeoutUsec then
      if (ans.kill state).timer then serviceSetState state (run.update .arm) else next false run
    else serviceSetState state run

def enterControl {R : Type} (cfg : Config) (ans : Answers) (id : ServiceExecCommand)
    (state : ServiceState) (entered absent failed : Run -> R) (run : Run) : R :=
  match cfg.execCommand id with
  | [] => absent (run.update fun s => { s.unwatchControlPid with controlCommand := [] })
  | command :: rest =>
    match serviceSpawn cfg ans id command true (run.update fun s =>
      { s.unwatchControlPid with
        controlCommand := command :: rest, controlCommandId := some id }) with
    | (run, some pid) => entered (serviceSetState state (run.update fun s => { s with controlPid := pid }))
    | (run, none) => failed run

section

variable (cfg : Config) (ans : Answers)

def enterFinalSignal (state : ServiceState) (success : Bool) (run : Run) : Run :=
  enterSignalThen cfg ans state success (serviceEnterDead cfg ans) run

def serviceEnterStopPost (success : Bool) (run : Run) : Run :=
  enterControl cfg ans .stopPost .stopPost id
    (enterFinalSignal cfg ans .finalSigterm true)
    (enterFinalSignal cfg ans .finalSigterm false)
    (run.update (.withResult success))

def serviceEnterSignal (state : ServiceState) (success : Bool) (run : Run) : Run :=
  if state = .stopSigterm ∨ state = .stopSigkill then
    enterSignalThen cfg ans state success (serviceEnterStopPost cfg ans) run
  else enterFinalSignal cfg ans state success run

def serviceEnterStop (success : Bool) (run : Run) : Run :=
  enterControl cfg ans .stop .stop id
    (serviceEnterSignal cfg ans .stopSigterm true)
    (serviceEnterSignal cfg ans .stopSigterm false)
    (run.update (.withResult success))

def serviceEnterRunning (success : Bool) (run : Run) : Run :=
  let run := run.update (.withResult success)
  if (mainPidGood ans run.service).getD ans.cgroupGood &&
      (run.service.busNameGood || cfg.type ≠ .dbus) then
    serviceSetState .running run
  else if cfg.remainAfterExit then serviceSetState .exited run
  else serviceEnterStop cfg ans true run

def serviceEnterStartPost (run : Run) : Run :=
  enterControl cfg ans .startPost .startPost id
    (serviceEnterRunning cfg ans true) (serviceEnterStop cfg ans false) run

def serviceEnterStart (run : Run) : Option Run :=
  match cfg.execCommand .start with
  | [] => none
  | command :: rest =>
    if rest ≠ [] ∧ cfg.type ≠ .oneshot then none
    else if cfg.type = .forking then
      match serviceSpawn cfg ans .start command true (run.update fun s =>
        { s.unwatchControlPid with
          controlCommandId := some .start
          controlCommand := command :: rest
          mainCommand := [] }) with
      | (run, some pid) =>
        some (serviceSetState .start (run.update fun s => { s with controlPid := pid }))
      | (run, none) => some (serviceEnterSignal cfg ans .finalSigterm false run)
    else
      match serviceSpawn cfg ans .start command
        (cfg.type = .dbus || cfg.type = .notify) (run.update fun s =>
        { s.unwatchMainPid with
          controlCommandId := none
          controlCommand := []
          mainCommand := command :: rest }) with
      | (run, some pid) =>
        let run := run.update fun s => (serviceSetMainPid cfg ans pid s).getD s
        if cfg.type = .simple then some (serviceEnterStartPost cfg ans run)
        else some (serviceSetState .start run)
      | (run, none) => some (serviceEnterSignal cfg ans .finalSigterm false run)

def serviceEnterStartPre (run : Run) : Option Run :=
  enterControl cfg ans .startPre .startPre some (serviceEnterStart cfg ans)
    (fun run => some (serviceEnterDead cfg ans false run)) run

-- The timer set for a pending job does not outlive the state that follows.
def serviceEnterRestart (run : Run) : Run :=
  if ans.jobPending && !ans.watchTimer then serviceStayDead false run
  else
    let run := serviceStayDead true (if ans.jobPending then run.update .arm else run)
    if ans.addJob then run else serviceStayDead false run

def serviceEnterReload (run : Run) : Run :=
  enterControl cfg ans .reload .reload id (serviceEnterRunning cfg ans true)
    (fun run => serviceEnterRunning cfg ans true
      (run.update fun s => { s with reloadFailure := true })) run

def serviceRunNextControl (success : Bool) (run : Run) : Option Run :=
  match run.service.controlCommand, run.service.controlCommandId with
  | _ :: command :: rest, some id =>
    if id = .start then none
    else
      match serviceSpawn cfg ans id command true ((run.update (.withResult success)).update
        fun s => { s.unwatchControlPid with controlCommand := command :: rest }) with
      | (run, some pid) => some (run.update fun s => { s with controlPid := pid })
      | (run, none) =>
        match run.service.state with
        | .startPre => some (serviceEnterSignal cfg ans .finalSigterm false run)
        | .stop => some (serviceEnterSignal cfg ans .stopSigterm false run)
        | .stopPost => some (serviceEnterDead cfg ans false run)
        | .reload => some (serviceEnterRunning cfg ans true
            (run.update fun s => { s with reloadFailure := true }))
        | _ => some (serviceEnterStop cfg ans false run)
  | _, _ => none

def serviceRunNextMain (success : Bool) (run : Run) : Option Run :=
  match run.service.mainCommand with
  | _ :: command :: rest =>
    if cfg.type ≠ .oneshot then none
    else
      match serviceSpawn cfg ans .start command false ((run.update (.withResult success)).update
        fun s => { s.unwatchMainPid with mainCommand := command :: rest }) with
      | (run, some pid) =>
        some (run.update fun s => (serviceSetMainPid cfg ans pid s).getD s)
      | (run, none) => some (serviceEnterStop cfg ans false run)
  | _ => none

end

end Systemd.Services
