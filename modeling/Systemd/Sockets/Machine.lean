import Systemd.Services.Events
import Systemd.Sockets.Ports

set_option autoImplicit false

namespace Systemd.Sockets

open Services (ExecCommand KillMode ignores isCleanExit more)

inductive SocketState where
  | dead
  | startPre
  | startPost
  | listening
  | running
  | stopPre
  | stopPreSigterm
  | stopPreSigkill
  | stopPost
  | finalSigterm
  | finalSigkill
  | failed
  deriving DecidableEq

namespace SocketState

def controlled : SocketState -> Bool
  | .startPre | .startPost | .stopPre | .stopPreSigterm | .stopPreSigkill | .stopPost
  | .finalSigterm | .finalSigkill => true
  | .dead | .listening | .running | .failed => false

def keepsFds : SocketState -> Bool
  | .startPost | .listening | .running | .stopPre | .stopPreSigterm | .stopPreSigkill => true
  | .dead | .startPre | .stopPost | .finalSigterm | .finalSigkill | .failed => false

def active : SocketState -> UnitActiveState
  | .dead => .inactive
  | .startPre | .startPost => .activating
  | .listening | .running => .active
  | .stopPre | .stopPreSigterm | .stopPreSigkill | .stopPost | .finalSigterm | .finalSigkill =>
    .deactivating
  | .failed => .failed

end SocketState

inductive SocketExecCommand where
  | startPre
  | startPost
  | stopPre
  | stopPost
  deriving DecidableEq

structure Config where
  accept : Bool
  maxConnections : Nat
  killMode : KillMode
  sendSigkill : Bool
  execCommand : SocketExecCommand -> List ExecCommand

/-- A socket unit. A command that is not set is an empty list, otherwise the list is the command and
those that follow it. -/
structure Socket where
  ports : List SocketPort
  state : SocketState := .dead
  deserializedState : SocketState := .dead
  controlCommand : List ExecCommand := []
  controlCommandId : Option SocketExecCommand := none
  controlPid : Int32 := 0
  failure : Bool := false
  timer : Bool := false
  nAccepted : UInt32 := 0
  nConnections : Nat := 0

inductive SpawnAnswer where
  | forked (pid : Int32) (pos : 0 < pid)
  | failed

/-- How it went to send the signals for a state: whether the control process got it or was gone
already, whether the control group had another process to kill, and whether the memory and the timer
for it were there. -/
structure KillAnswer where
  control : Bool
  group : Bool
  memory : Bool
  timer : Bool

/-- What the rest of the system answers to the calls made while one event is handled: also whether the
service can be used at all, whether a stop of the socket or a start of the service is pending already,
whether a new instance of the service got its name, and whether it took the connection. -/
structure Answers where
  spawn : SocketExecCommand -> SpawnAnswer
  kill : SocketState -> KillAnswer
  ports : PortAnswers
  serviceGood : Bool
  stopPending : Bool
  startPending : Bool
  addName : Bool
  setSocketFd : Bool
  addJob : Bool

structure Run where
  socket : Socket
  connected : Bool := false

def Run.update (run : Run) (change : Socket -> Socket) : Run :=
  { run with socket := change run.socket }

namespace Socket

def withResult (success : Bool) (s : Socket) : Socket :=
  { s with failure := s.failure || !success }

def arm (s : Socket) : Socket := { s with timer := true }

def disarm (s : Socket) : Socket := { s with timer := false }

def unwatchControlPid (s : Socket) : Socket := { s with controlPid := 0 }

def keepControl (state : SocketState) (s : Socket) : Socket :=
  if state.controlled then s
  else { s.disarm.unwatchControlPid with controlCommand := [], controlCommandId := none }

def keepWatches (state : SocketState) (s : Socket) : Socket :=
  if state = .listening then s else { s with ports := s.ports.map .unwatch }

def keepFds (state : SocketState) (s : Socket) : Socket :=
  if state.keepsFds then s else { s with ports := s.ports.map .close }

def setState (state : SocketState) (s : Socket) : Socket :=
  let s := { s with state := state }
  ((s.keepControl state).keepWatches state).keepFds state

end Socket

def socketSetState (state : SocketState) (run : Run) : Run := run.update (.setState state)

def socketSpawn (ans : Answers) (id : SocketExecCommand) (run : Run) : Run × Option Int32 :=
  match ans.spawn id with
  | .failed => (run.update .disarm, none)
  | .forked pid _ => (run.update .arm, some pid)

def socketEnterDead (success : Bool) (run : Run) : Run :=
  let run := run.update (.withResult success)
  socketSetState (if run.socket.failure then .failed else .dead) run

-- Whether there is something to wait for, if the processes could be killed at all.
def killProcesses (cfg : Config) (ans : Answers) (state : SocketState) (s : Socket) :
    Option Bool :=
  let answer := ans.kill state
  let waitForControl := decide (0 < s.controlPid) && answer.control
  match cfg.killMode with
  | .nothing => some false
  | .process => some waitForControl
  | .controlGroup => if answer.memory then some (waitForControl || answer.group) else none

-- socket_enter_signal, where `next` is what comes when there is nothing to wait for.
def enterSignalThen (cfg : Config) (ans : Answers) (state : SocketState) (success : Bool)
    (next : Bool -> Run -> Run) (run : Run) : Run :=
  let run := run.update (.withResult success)
  match killProcesses cfg ans state run.socket with
  | none => next false run
  | some false => next true run
  | some true =>
    if (ans.kill state).timer then socketSetState state (run.update .arm) else next false run

def enterControl (cfg : Config) (ans : Answers) (id : SocketExecCommand) (state : SocketState)
    (absent failed : Run -> Run) (run : Run) : Run :=
  let run := run.update fun s =>
    { s.unwatchControlPid with
      controlCommandId := some id, controlCommand := cfg.execCommand id }
  if run.socket.controlCommand = [] then absent run
  else
    match socketSpawn ans id run with
    | (run, some pid) => socketSetState state (run.update fun s => { s with controlPid := pid })
    | (run, none) => failed run

section

variable (cfg : Config) (ans : Answers)

def enterFinalSignal (state : SocketState) (success : Bool) (run : Run) : Run :=
  enterSignalThen cfg ans state success socketEnterDead run

def socketEnterStopPost (success : Bool) (run : Run) : Run :=
  enterControl cfg ans .stopPost .stopPost
    (enterFinalSignal cfg ans .finalSigterm true)
    (enterFinalSignal cfg ans .finalSigterm false) (run.update (.withResult success))

def socketEnterSignal (state : SocketState) (success : Bool) (run : Run) : Run :=
  if state = .stopPreSigterm ∨ state = .stopPreSigkill then
    enterSignalThen cfg ans state success (socketEnterStopPost cfg ans) run
  else enterFinalSignal cfg ans state success run

def socketEnterStopPre (success : Bool) (run : Run) : Run :=
  enterControl cfg ans .stopPre .stopPre (socketEnterStopPost cfg ans true)
    (socketEnterStopPost cfg ans false) (run.update (.withResult success))

def socketEnterListening (run : Run) : Run :=
  match socketWatchFds ans.ports run.socket.ports with
  | (ports, true) => socketSetState .listening (run.update fun s => { s with ports := ports })
  | (ports, false) => socketEnterStopPre cfg ans false (run.update fun s => { s with ports := ports })

def socketEnterStartPost (run : Run) : Run :=
  match socketOpenFds ans.ports run.socket.ports with
  | (ports, true) =>
    enterControl cfg ans .startPost .startPost (socketEnterListening cfg ans)
      (socketEnterStopPre cfg ans false) (run.update fun s => { s with ports := ports })
  | (ports, false) => socketEnterStopPre cfg ans false (run.update fun s => { s with ports := ports })

def socketEnterStartPre (run : Run) : Run :=
  enterControl cfg ans .startPre .startPre (socketEnterStartPost cfg ans)
    (socketEnterDead false) run

-- A connection that was accepted, if there is one, is not served while a stop is pending. The
-- sockets are only closed then.
def socketEnterRunning (connection : Bool) (run : Run) : Run :=
  if run.socket.state.active.isInactiveOrDeactivating || ans.stopPending then
    if connection then run
    else
      match socketWatchFds ans.ports (run.socket.ports.map .close) with
      | (ports, true) => run.update fun s => { s with ports := ports }
      | (ports, false) =>
        socketEnterStopPre cfg ans false (run.update fun s => { s with ports := ports })
  else if !connection then
    if ans.startPending || ans.addJob then socketSetState .running run
    else socketEnterStopPre cfg ans false run
  else if cfg.maxConnections ≤ run.socket.nConnections then run
  else if !ans.ports.instantiate || !ans.addName then
    socketEnterStopPre cfg ans false run
  else
    let run := run.update fun s => { s with nAccepted := s.nAccepted + 1 }
    if ans.setSocketFd then
      let run : Run :=
        { run with
          socket := { run.socket with nConnections := run.socket.nConnections + 1 }
          connected := true }
      if ans.addJob then run else socketEnterStopPre cfg ans false run
    else socketEnterStopPre cfg ans false run

def socketRunNext (success : Bool) (run : Run) : Option Run :=
  match run.socket.controlCommand, run.socket.controlCommandId with
  | _ :: command :: rest, some id =>
    match socketSpawn ans id ((run.update (.withResult success)).update fun s =>
      { s.unwatchControlPid with controlCommand := command :: rest }) with
    | (run, some pid) => some (run.update fun s => { s with controlPid := pid })
    | (run, none) =>
      match run.socket.state with
      | .startPost => some (socketEnterStopPre cfg ans false run)
      | .stopPost => some (socketEnterDead false run)
      | _ => some (socketEnterSignal cfg ans .finalSigterm false run)
  | _, _ => none

-- Here and below none means that an assertion fails.
def socketStart (run : Run) : Option Run :=
  match run.socket.state with
  | .stopPre | .stopPreSigkill | .stopPreSigterm | .stopPost | .finalSigterm | .finalSigkill => some run
  | .startPre | .startPost => some run
  | .dead | .failed =>
    if ans.serviceGood then
      some (socketEnterStartPre cfg ans (run.update fun s => { s with failure := false }))
    else some run
  | .listening | .running => if ans.serviceGood then none else some run

def socketStop (run : Run) : Option Run :=
  match run.socket.state with
  | .stopPre | .stopPreSigterm | .stopPreSigkill | .stopPost | .finalSigterm | .finalSigkill => some run
  | .startPre | .startPost => some (socketEnterSignal cfg ans .stopPreSigterm true run)
  | .listening | .running => some (socketEnterStopPre cfg ans true run)
  | .dead | .failed => none

/-- What epoll reports of a descriptor: input, for which the connection may be accepted or not, or
something unexpected. -/
inductive Traffic where
  | input (accepted : Bool)
  | unexpected

def socketFdEvent (port : SocketPort) (traffic : Traffic) (run : Run) : Run :=
  if run.socket.state ≠ .listening then run
  else
    match traffic with
    | .unexpected => socketEnterStopPre cfg ans false run
    | .input accepted =>
      if cfg.accept && port.listen.canAccept then
        if accepted then socketEnterRunning cfg ans true run
        else socketEnterStopPre cfg ans false run
      else socketEnterRunning cfg ans false run

-- No further commands for this step.
def controlGone (success : Bool) (run : Run) : Option Run :=
  match run.socket.state with
  | .startPre =>
    if success then some (socketEnterStartPost cfg ans run)
    else some (socketEnterSignal cfg ans .finalSigterm false run)
  | .startPost =>
    if success then some (socketEnterListening cfg ans run)
    else some (socketEnterStopPre cfg ans false run)
  | .stopPre | .stopPreSigterm | .stopPreSigkill => some (socketEnterStopPost cfg ans success run)
  | .stopPost | .finalSigterm | .finalSigkill => some (socketEnterDead success run)
  | .dead | .listening | .running | .failed => none

def socketSigchldEvent (pid code status : Int32) (run : Run) : Option Run :=
  if pid ≠ run.socket.controlPid then some run
  else
    let success := isCleanExit code status || ignores run.socket.controlCommand
    let run := run.update fun s => { s with controlPid := 0, failure := s.failure || !success }
    if more run.socket.controlCommand && success then socketRunNext cfg ans success run
    else
      controlGone cfg ans success
        (run.update fun s => { s with controlCommand := [], controlCommandId := none })

def socketTimerEvent (run : Run) : Option Run :=
  match run.socket.state with
  | .startPre => some (socketEnterSignal cfg ans .finalSigterm false run)
  | .startPost => some (socketEnterStopPre cfg ans false run)
  | .stopPre => some (socketEnterSignal cfg ans .stopPreSigterm false run)
  | .stopPreSigterm =>
    if cfg.sendSigkill then some (socketEnterSignal cfg ans .stopPreSigkill false run)
    else some (socketEnterStopPost cfg ans false run)
  | .stopPreSigkill => some (socketEnterStopPost cfg ans false run)
  | .stopPost => some (socketEnterSignal cfg ans .finalSigterm false run)
  | .finalSigterm =>
    if cfg.sendSigkill then some (socketEnterSignal cfg ans .finalSigkill false run)
    else some (socketEnterDead false run)
  | .finalSigkill => some (socketEnterDead false run)
  | .dead | .listening | .running | .failed => none

def socketNotifyServiceDead (run : Run) : Run :=
  if run.socket.state = .running then socketEnterListening cfg ans run else run

def socketResetFailed (run : Run) : Run :=
  let run := if run.socket.state = .failed then socketSetState .dead run else run
  run.update fun s => { s with failure := false }

end

inductive Event where
  | start
  | stop
  | sigchld (pid code status : Int32)
  | timer
  | traffic (port : Nat) (traffic : Traffic)
  | serviceDead
  | resetFailed

-- unit_start and unit_stop pass a request on if it makes sense. The kernel reports only processes,
-- only descriptors that are watched, and only a timer that is set, which elapses once.
def dispatch (cfg : Config) (ans : Answers) (event : Event) (s : Socket) : Option Run :=
  match event with
  | .start =>
    if s.state.active.isActiveOrReloading then some ⟨s, false⟩
    else socketStart cfg ans ⟨s, false⟩
  | .stop =>
    if s.state.active.isInactiveOrFailed then some ⟨s, false⟩
    else socketStop cfg ans ⟨s, false⟩
  | .sigchld pid code status =>
    if 0 < pid then socketSigchldEvent cfg ans pid code status ⟨s, false⟩ else some ⟨s, false⟩
  | .timer => if s.timer then socketTimerEvent cfg ans ⟨s.disarm, false⟩ else some ⟨s, false⟩
  | .traffic index traffic =>
    match s.ports[index]? with
    | some port =>
      if port.watched then some (socketFdEvent cfg ans port traffic ⟨s, false⟩)
      else some ⟨s, false⟩
    | none => some ⟨s, false⟩
  | .serviceDead => some (socketNotifyServiceDead cfg ans ⟨s, false⟩)
  | .resetFailed => some (socketResetFailed ⟨s, false⟩)

end Systemd.Sockets

namespace Systemd.Sockets

/-- A property `P` that the changes on the way down keep, and that gives `Q` in the states where the way
can end. -/
structure Passes (cfg : Config) (ans : Answers) (P Q : Run -> Prop) : Prop where
  flags : ∀ run failure timer, P run ->
    P (run.update fun s => { s with failure := failure, timer := timer })
  prepared : ∀ run id, P run -> P (run.update fun s =>
    { s.unwatchControlPid with
      controlCommandId := some id, controlCommand := cfg.execCommand id })
  dead : ∀ run state, state = .dead ∨ state = .failed -> P run -> Q (socketSetState state run)
  stopping : ∀ run state pid, state = .stopPre ∨ state = .stopPost -> 0 < pid -> P run ->
    Q (socketSetState state (run.update fun s => { s with controlPid := pid }))
  final : ∀ run, killProcesses cfg ans .finalSigterm run.socket = some true -> P run ->
    Q (socketSetState .finalSigterm run)

section

variable {cfg : Config} {ans : Answers}

theorem enterSignalThen_cases {B : Run -> Prop} {state : SocketState} {success : Bool}
    {next : Bool -> Run -> Run} {run : Run} (waits : killProcesses cfg ans state run.socket = some
      true -> B (socketSetState state ((run.update (.withResult success)).update .arm)))
    (continued : ∀ success', B (next success' (run.update (.withResult success)))) :
    B (enterSignalThen cfg ans state success next run) := by
  unfold enterSignalThen
  dsimp only
  split
  · exact continued false
  · exact continued true
  · rename_i waiting
    split
    · exact waits waiting
    · exact continued false

theorem enterControl_cases {B : Run -> Prop} {id : SocketExecCommand} {state : SocketState}
    {absent failed : Run -> Run} {run : Run}
    (entered : ∀ pid, 0 < pid -> B (socketSetState state (((run.update fun s =>
      { s.unwatchControlPid with
        controlCommandId := some id, controlCommand := cfg.execCommand id }).update .arm).update
      fun s => { s with controlPid := pid })))
    (absentB : B (absent (run.update fun s =>
      { s.unwatchControlPid with
        controlCommandId := some id, controlCommand := cfg.execCommand id })))
    (failedB : B (failed ((run.update fun s =>
      { s.unwatchControlPid with
        controlCommandId := some id, controlCommand := cfg.execCommand id }).update .disarm))) :
    B (enterControl cfg ans id state absent failed run) := by
  unfold enterControl
  dsimp only
  split
  · exact absentB
  · unfold socketSpawn
    cases ans.spawn id with
    | failed => exact failedB
    | forked pid pos => exact entered pid pos

end

namespace Passes

variable {cfg : Config} {ans : Answers} {P Q : Run -> Prop}

variable {run : Run}

section

variable (passes : Passes cfg ans P Q)
include passes

variable (success : Bool)

section

variable (held : P run)
include held

theorem withResult : P (run.update (.withResult success)) :=
  passes.flags run (run.socket.failure || !success) run.socket.timer held

theorem arm : P (run.update .arm) :=
  passes.flags run run.socket.failure true held

theorem disarm : P (run.update .disarm) :=
  passes.flags run run.socket.failure false held

theorem enterDead : Q (socketEnterDead success run) := by
  refine passes.dead _ _ ?_ (passes.withResult success held)
  split
  · exact .inr rfl
  · exact .inl rfl

theorem enterFinal : Q (enterFinalSignal cfg ans .finalSigterm success run) := by
  have marked := passes.withResult success held
  refine enterSignalThen_cases (fun waiting => ?_) fun success' => passes.enterDead success' marked
  exact passes.final _ waiting (passes.arm marked)

theorem enterStopPost : Q (socketEnterStopPost cfg ans success run) := by
  have prepared := passes.prepared _ .stopPost (passes.withResult success held)
  refine enterControl_cases (fun pid pos => ?_) ?_ ?_
  · exact passes.stopping _ _ pid (.inr rfl) pos (passes.arm prepared)
  · exact passes.enterFinal true prepared
  · exact passes.enterFinal false (passes.disarm prepared)

theorem enterStopPre : Q (socketEnterStopPre cfg ans success run) := by
  have prepared := passes.prepared _ .stopPre (passes.withResult success held)
  refine enterControl_cases (fun pid pos => ?_) ?_ ?_
  · exact passes.stopping _ _ pid (.inl rfl) pos (passes.arm prepared)
  · exact passes.enterStopPost true prepared
  · exact passes.enterStopPost false (passes.disarm prepared)

end

end

end Passes

end Systemd.Sockets
