import Systemd.Services.Machine

set_option autoImplicit false

namespace Systemd.Services

open Serialization (DualTimestamp parsePid)

def isCleanExit (code status : Int32) : Bool :=
  (code == cldExited && status == 0) ||
    (code == cldKilled && (status == 1 || status == 2 || status == 15 || status == 13))

def isCleanExitLsb (code status : Int32) : Bool :=
  isCleanExit code status || (code == cldExited && (status == 5 || status == 6))

-- Ten seconds and five starts.
def ratelimitInterval : Nat := 10000000

def ratelimitBurst : Nat := 5

def ratelimitTest (now : Nat) (r : RateLimit) : Bool × RateLimit :=
  if r.begin = 0 ∨ r.begin + ratelimitInterval < now then (true, { begin := now, num := 1 })
  else if r.num ≤ ratelimitBurst then (true, { r with num := r.num + 1 })
  else (false, r)

def Answers.now (ans : Answers) : Nat := ans.clock.monotonic.toNat

def tagValue (tags : List CString) (tag : String) : Option CString :=
  let name := (CString.ofString tag).bytes
  (tags.find? fun text => name.isPrefixOf text.bytes).map fun text =>
    .ofBuffer (text.bytes.drop name.length)

section

variable (cfg : Config) (ans : Answers)

def serviceStart (run : Run) : Option Run :=
  match run.service.state with
  | .stop | .stopSigterm | .stopSigkill | .stopPost | .finalSigterm | .finalSigkill => some run
  | .startPre | .start | .startPost => some run
  | .dead | .failed | .autoRestart =>
    match ratelimitTest ans.now run.service.ratelimit with
    | (false, _) => some run
    | (true, ratelimit) =>
      serviceEnterStartPre cfg ans (run.update fun s =>
        { s with
          ratelimit := ratelimit
          failure := false
          mainPidKnown := false
          mainPidAlien := false
          forbidRestart := false })
  | .running | .exited | .reload => none

def serviceStop (run : Run) : Option Run :=
  let run := run.update fun s => { s with forbidRestart := true }
  match run.service.state with
  | .stop | .stopSigterm | .stopSigkill | .stopPost | .finalSigterm | .finalSigkill => some run
  | .autoRestart => some (serviceSetState .dead run)
  | .startPre | .start | .startPost | .reload =>
    some (serviceEnterSignal cfg ans .stopSigterm true run)
  | .running | .exited => some (serviceEnterStop cfg ans true run)
  | .dead | .failed => none

def serviceReload (run : Run) : Option Run :=
  match run.service.state with
  | .running | .exited => some (serviceEnterReload cfg ans run)
  | _ => none

def ignores (commands : List ExecCommand) : Bool :=
  commands.head?.any ExecCommand.ignore

-- Whether there is another command to execute.
def more (commands : List ExecCommand) : Bool :=
  !commands.tail.isEmpty

-- The service exited, so the service is officially gone.
def mainGone (success : Bool) (run : Run) : Option Run :=
  match run.service.state with
  | .startPost | .reload | .stop => some run
  | .start =>
    if cfg.type = .oneshot then
      if success then some (serviceEnterStartPost cfg ans run)
      else some (serviceEnterSignal cfg ans .finalSigterm false run)
    else if cfg.type = .dbus ∨ cfg.type = .notify then
      some (serviceEnterRunning cfg ans success run)
    else none
  | .running => some (serviceEnterRunning cfg ans success run)
  | .stopSigterm | .stopSigkill =>
    if controlPidGood run.service then some run
    else some (serviceEnterStopPost cfg ans success run)
  | _ => none

def mainExited (pid code status : Int32) (success : Bool) (run : Run) : Option Run :=
  let success := success || ignores run.service.mainCommand
  let run := run.update fun s =>
    { s with
      mainPid := 0
      mainExecStatus := execStatusExit ans.clock pid code status s.mainExecStatus
      failure := s.failure || !success }
  if more run.service.mainCommand && success then serviceRunNextMain cfg ans success run
  else mainGone cfg ans success (run.update fun s => { s with mainCommand := [] })

-- service_load_pid_file and service_search_main_pid after a control process that did well.
def findMainPid (run : Run) : Option Run :=
  (serviceSearchMainPid cfg ans (serviceLoadPidFile cfg ans run.service).1).map fun s =>
    { run with service := s }

-- No further commands for this step.
def controlGone (success : Bool) (run : Run) : Option Run :=
  match run.service.state with
  | .startPre =>
    if success then serviceEnterStart cfg ans run
    else some (serviceEnterSignal cfg ans .finalSigterm false run)
  | .start =>
    if cfg.type ≠ .forking then none
    else if success then (findMainPid cfg ans run).map (serviceEnterStartPost cfg ans)
    else some (serviceEnterSignal cfg ans .finalSigterm false run)
  | .startPost | .reload =>
    (if success then findMainPid cfg ans run else some run).map fun run =>
      serviceEnterRunning cfg ans true
        (run.update fun s => { s with reloadFailure := !success })
  | .stop => some (serviceEnterSignal cfg ans .stopSigterm success run)
  | .stopSigterm | .stopSigkill =>
    if mainPidGood ans run.service = some true then some run
    else some (serviceEnterStopPost cfg ans success run)
  | .stopPost | .finalSigterm | .finalSigkill => some (serviceEnterDead cfg ans success run)
  | _ => none

def controlExited (success : Bool) (run : Run) : Option Run :=
  let success := success || ignores run.service.controlCommand
  let run := run.update fun s => { s with controlPid := 0, failure := s.failure || !success }
  if more run.service.controlCommand && success then serviceRunNextControl cfg ans success run
  else
    controlGone cfg ans success
      (run.update fun s => { s with controlCommand := [], controlCommandId := none })

def serviceSigchldEvent (pid code status : Int32) (run : Run) : Option Run :=
  let success :=
    if cfg.fragmentPath then isCleanExit code status else isCleanExitLsb code status
  if run.service.mainPid = pid then
    match serviceLoadPidFile cfg ans run.service with
    | (s, true) => some { run with service := s }
    | (s, false) => mainExited cfg ans pid code status success { run with service := s }
  else if run.service.controlPid = pid then controlExited cfg ans success run
  else some run

def serviceTimerEvent (run : Run) : Option Run :=
  match run.service.state with
  | .startPre | .start => some (serviceEnterSignal cfg ans .finalSigterm false run)
  | .startPost => some (serviceEnterStop cfg ans false run)
  | .reload => some (serviceEnterRunning cfg ans true
      (run.update fun s => { s with reloadFailure := true }))
  | .stop => some (serviceEnterSignal cfg ans .stopSigterm false run)
  | .stopSigterm =>
    if cfg.sendSigkill then some (serviceEnterSignal cfg ans .stopSigkill false run)
    else some (serviceEnterStopPost cfg ans false run)
  | .stopSigkill => some (serviceEnterStopPost cfg ans false run)
  | .stopPost => some (serviceEnterSignal cfg ans .finalSigterm false run)
  | .finalSigterm =>
    if cfg.sendSigkill then some (serviceEnterSignal cfg ans .finalSigkill false run)
    else some (serviceEnterDead cfg ans false run)
  | .finalSigkill => some (serviceEnterDead cfg ans false run)
  | .autoRestart => some (serviceEnterRestart ans run)
  | .dead | .running | .exited | .failed => none

def serviceCgroupNotifyEvent (run : Run) : Run :=
  let gone := mainPidGood ans run.service ≠ some true ∧ controlPidGood run.service = false
  match run.service.state with
  | .running => serviceEnterRunning cfg ans true run
  | .stopSigterm | .stopSigkill =>
    if gone then serviceEnterStopPost cfg ans true run else run
  | .finalSigterm | .finalSigkill => if gone then serviceEnterDead cfg ans true run else run
  | _ => run

def acceptsMainPid : ServiceState -> Bool
  | .start | .startPost | .running | .reload => true
  | _ => false

def notifyMainPid (tags : List CString) (s : Service) : Service :=
  match tagValue tags "MAINPID=" with
  | some text =>
    if acceptsMainPid s.state then
      match parsePid text with
      | some pid => (serviceSetMainPid cfg ans pid s).getD s
      | none => s
    else s
  | none => s

def notifyStatus (tags : List CString) (s : Service) : Service :=
  match tagValue tags "STATUS=" with
  | some text => { s with statusText := if text.bytes = [] then none else some text }
  | none => s

def serviceNotifyMessage (pid : Int32) (tags : List CString) (run : Run) : Run :=
  if cfg.notifyAccess = .nobody then run
  else if cfg.notifyAccess = .main ∧ pid ≠ run.service.mainPid then run
  else
    let run := run.update (notifyMainPid cfg ans tags)
    let run :=
      if cfg.type = .notify ∧ run.service.state = .start ∧ CString.ofString "READY=1" ∈ tags then
        serviceEnterStartPost cfg ans run
      else run
    run.update (notifyStatus tags)

def serviceBusNameOwnerChange (newOwner : Bool) (run : Run) : Run :=
  let run := run.update fun s => { s with busNameGood := newOwner }
  if cfg.type = .dbus then
    if run.service.state = .running then serviceEnterRunning cfg ans true run
    else if run.service.state = .start ∧ newOwner then serviceEnterStartPost cfg ans run
    else run
  else run

def serviceBusQueryPidDone (pid : Int32) (run : Run) : Run :=
  if run.service.mainPid ≤ 0 ∧ acceptsMainPid run.service.state then
    run.update fun s => (serviceSetMainPid cfg ans pid s).getD s
  else run

def serviceResetFailed (run : Run) : Run :=
  let run := if run.service.state = .failed then serviceSetState .dead run else run
  run.update fun s => { s with failure := false }

end

inductive Event where
  | start
  | stop
  | reload
  | sigchld (pid code status : Int32)
  | timer
  | cgroupEmpty
  | notify (pid : Int32) (tags : List CString)
  | busNameOwner (newOwner : Bool)
  | busPid (pid : Int32)
  | resetFailed

-- The kernel reports only processes, and only a timer that is set. It elapses once. The table forgets
-- a process before its exit is handled.
def handle (cfg : Config) (ans : Answers) (event : Event) (run : Run) : Option Run :=
  match event with
  | .start => serviceStart cfg ans run
  | .stop => serviceStop cfg ans run
  | .reload => serviceReload cfg ans run
  | .sigchld pid code status =>
    if 0 < pid then
      serviceSigchldEvent cfg ans pid code status (run.update (.unwatchPid pid))
    else some run
  | .timer =>
    if run.service.timer then serviceTimerEvent cfg ans (run.update .disarm) else some run
  | .cgroupEmpty => some (serviceCgroupNotifyEvent cfg ans run)
  | .notify pid tags => some (serviceNotifyMessage cfg ans pid tags run)
  | .busNameOwner newOwner => some (serviceBusNameOwnerChange cfg ans newOwner run)
  | .busPid pid => some (serviceBusQueryPidDone cfg ans pid run)
  | .resetFailed => some (serviceResetFailed run)

def handleAll (cfg : Config) : List (Answers × Event) -> Run -> Option Run
  | [], run => some run
  | (ans, event) :: rest, run => do
    let run ← handle cfg ans event run
    handleAll cfg rest run

def Chronological : Nat -> List (Answers × Event) -> Prop
  | _, [] => True
  | now, (ans, _) :: rest => now ≤ ans.now ∧ Chronological ans.now rest

end Systemd.Services
