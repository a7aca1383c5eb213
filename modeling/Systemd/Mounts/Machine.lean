import Systemd.Sockets.Machine

set_option autoImplicit false

namespace Systemd.Mounts

open Services (KillMode isCleanExit)
open Sockets (SpawnAnswer KillAnswer)

inductive MountState where
  | dead
  | mounting
  | mountingDone
  | mounted
  | remounting
  | unmounting
  | mountingSigterm
  | mountingSigkill
  | remountingSigterm
  | remountingSigkill
  | unmountingSigterm
  | unmountingSigkill
  | failed
  deriving DecidableEq

namespace MountState

def controlled : MountState -> Bool
  | .mounting | .mountingDone | .remounting | .unmounting | .mountingSigterm | .mountingSigkill
  | .remountingSigterm | .remountingSigkill | .unmountingSigterm | .unmountingSigkill => true
  | .dead | .mounted | .failed => false

def active : MountState -> UnitActiveState
  | .dead => .inactive
  | .mounting => .activating
  | .mountingDone | .mounted => .active
  | .remounting | .remountingSigterm | .remountingSigkill => .reloading
  | .unmounting | .mountingSigterm | .mountingSigkill | .unmountingSigterm | .unmountingSigkill =>
    .deactivating
  | .failed => .failed

end MountState

inductive MountExecCommand where
  | mount
  | unmount
  | remount
  deriving DecidableEq

structure MountParameters where
  what : Option CString := none
  options : Option CString := none
  fstype : Option CString := none
  passno : Int := 0

structure Config where
  fromFragment : Bool
  killMode : KillMode
  sendSigkill : Bool

structure Mount where
  parametersEtcFstab : MountParameters := {}
  parametersProcSelfMountinfo : MountParameters := {}
  fromEtcFstab : Bool := false
  fromProcSelfMountinfo : Bool := false
  -- These are used while looking for mount points that vanished or got added.
  isMounted : Bool := false
  justMounted : Bool := false
  justChanged : Bool := false
  failure : Bool := false
  reloadFailure : Bool := false
  state : MountState := .dead
  controlCommandId : Option MountExecCommand := none
  controlPid : Int32 := 0
  timer : Bool := false

structure Answers where
  spawn : MountExecCommand -> SpawnAnswer
  kill : MountState -> KillAnswer

structure StateCall where
  old : MountState
  new : MountState
  reloadSuccess : Bool
  deriving DecidableEq

structure Run where
  mount : Mount
  calls : List StateCall := []

def Run.update (run : Run) (change : Mount -> Mount) : Run :=
  { run with mount := change run.mount }

namespace Mount

def withResult (success : Bool) (m : Mount) : Mount :=
  { m with failure := m.failure || !success }

def arm (m : Mount) : Mount := { m with timer := true }

def disarm (m : Mount) : Mount := { m with timer := false }

def unwatchControlPid (m : Mount) : Mount := { m with controlPid := 0 }

def setState (state : MountState) (m : Mount) : Mount :=
  let m := { m with state := state, reloadFailure := false }
  if state.controlled then m
  else { m.disarm.unwatchControlPid with controlCommandId := none }

end Mount

def mountSetState (state : MountState) (run : Run) : Run where
  mount := run.mount.setState state
  calls :=
    run.calls ++
      [{ old := run.mount.state, new := state, reloadSuccess := !run.mount.reloadFailure }]

def mountSpawn (ans : Answers) (id : MountExecCommand) (run : Run) : Run × Option Int32 :=
  match ans.spawn id with
  | .failed => (run.update .disarm, none)
  | .forked pid _ => (run.update .arm, some pid)

def mountEnterDead (success : Bool) (run : Run) : Run :=
  let run := run.update (.withResult success)
  mountSetState (if run.mount.failure then .failed else .dead) run

def mountEnterMounted (success : Bool) (run : Run) : Run :=
  mountSetState .mounted (run.update (.withResult success))

-- Whether there is something to wait for, if the processes could be killed at all.
def killProcesses (cfg : Config) (ans : Answers) (state : MountState) (m : Mount) :
    Option Bool :=
  let answer := ans.kill state
  let waitForControl := decide (0 < m.controlPid) && answer.control
  match cfg.killMode with
  | .nothing => some false
  | .process => some waitForControl
  | .controlGroup => if answer.memory then some (waitForControl || answer.group) else none

section

variable (cfg : Config) (ans : Answers)

def mountEnterSignal (state : MountState) (success : Bool) (run : Run) : Run :=
  let run := run.update (.withResult success)
  let next :=
    if state = .remountingSigterm ∨ state = .remountingSigkill then mountEnterMounted
    else mountEnterDead
  match killProcesses cfg ans state run.mount with
  | none => next false run
  | some false => next true run
  | some true =>
    if (ans.kill state).timer then mountSetState state (run.update .arm) else next false run

def enterControl (id : MountExecCommand) (state : MountState) (failed : Run -> Run) (run : Run) :
    Run :=
  let run := run.update fun m => { m.unwatchControlPid with controlCommandId := some id }
  match mountSpawn ans id run with
  | (run, some pid) => mountSetState state (run.update fun m => { m with controlPid := pid })
  | (run, none) => failed run

def mountEnterUnmounting (success : Bool) (run : Run) : Run :=
  enterControl ans .unmount .unmounting (mountEnterMounted false)
    (run.update (.withResult success))

def mountEnterMounting (run : Run) : Run :=
  if cfg.fromFragment || run.mount.fromEtcFstab then
    enterControl ans .mount .mounting (mountEnterDead false) run
  else
    mountEnterDead false (run.update fun m => { m with controlCommandId := some .mount })

def mountEnterMountingDone (run : Run) : Run :=
  mountSetState .mountingDone run

def remountFailed (run : Run) : Run :=
  mountEnterMounted true (run.update fun m => { m with reloadFailure := true })

def mountEnterRemounting (success : Bool) (run : Run) : Run :=
  let run := run.update (.withResult success)
  if cfg.fromFragment || run.mount.fromEtcFstab then
    enterControl ans .remount .remounting remountFailed run
  else
    remountFailed (run.update fun m => { m with controlCommandId := some .remount })

inductive Reply where
  | ok
  | ealready
  | eagain
  | enoexec
  deriving DecidableEq

-- Here and below none means that an assertion fails.
def mountStart (run : Run) : Option (Run × Reply) :=
  match run.mount.state with
  | .unmounting | .unmountingSigterm | .unmountingSigkill | .mountingSigterm | .mountingSigkill =>
    some (run, .eagain)
  | .mounting => some (run, .ok)
  | .dead | .failed =>
    some (mountEnterMounting cfg ans (run.update fun m => { m with failure := false }), .ok)
  | _ => none

def mountStop (run : Run) : Option (Run × Reply) :=
  match run.mount.state with
  | .unmounting | .unmountingSigkill | .unmountingSigterm | .mountingSigterm | .mountingSigkill =>
    some (run, .ok)
  | .mounting | .mountingDone | .mounted | .remounting | .remountingSigterm | .remountingSigkill =>
    some (mountEnterUnmounting ans true run, .ok)
  | .dead | .failed => none

def mountReload (run : Run) : Option (Run × Reply) :=
  match run.mount.state with
  | .mountingDone => some (run, .eagain)
  | .mounted => some (mountEnterRemounting cfg ans true run, .ok)
  | _ => none

-- unit_start(), unit_stop() and unit_reload() pass a request on if it makes sense.
def unitStart (condition : Bool) (run : Run) : Option (Run × Reply) :=
  if run.mount.state.active.isActiveOrReloading then
    some (run, .ealready)
  else if run.mount.state.active ≠ .activating ∧ condition = false then
    some (run, .ealready)
  else
    mountStart cfg ans run

def unitStop (run : Run) : Option (Run × Reply) :=
  if run.mount.state.active.isInactiveOrFailed then some (run, .ealready)
  else mountStop ans run

def unitReload (run : Run) : Option (Run × Reply) :=
  if run.mount.state.active = .reloading then some (run, .ealready)
  else if run.mount.state.active ≠ .active then some (run, .enoexec)
  else mountReload cfg ans run

-- We check if the kernel still knows about the mount.
def enterKnown (success : Bool) (run : Run) : Run :=
  if run.mount.fromProcSelfMountinfo then mountEnterMounted success run
  else mountEnterDead success run

def controlGone (success : Bool) (run : Run) : Option Run :=
  match run.mount.state with
  | .mounting | .mountingDone | .mountingSigkill | .mountingSigterm =>
    some (if success then mountEnterMounted true run else enterKnown false run)
  | .remounting | .remountingSigkill | .remountingSigterm =>
    some (enterKnown true (run.update fun m => { m with reloadFailure := !success }))
  | .unmounting | .unmountingSigkill | .unmountingSigterm =>
    some (if success then mountEnterDead true run else enterKnown false run)
  | .dead | .mounted | .failed => none

def mountSigchldEvent (pid code status : Int32) (run : Run) : Option Run :=
  if pid ≠ run.mount.controlPid then some run
  else
    let success := isCleanExit code status
    controlGone success (run.update fun m =>
      { m with controlPid := 0, failure := m.failure || !success, controlCommandId := none })

def mountTimerEvent (run : Run) : Option Run :=
  match run.mount.state with
  | .mounting | .mountingDone => some (mountEnterSignal cfg ans .mountingSigterm false run)
  | .remounting => some (remountFailed run)
  | .unmounting => some (mountEnterSignal cfg ans .unmountingSigterm false run)
  | .mountingSigterm =>
    some (if cfg.sendSigkill then mountEnterSignal cfg ans .mountingSigkill false run
      else enterKnown false run)
  | .remountingSigterm =>
    some (if cfg.sendSigkill then mountEnterSignal cfg ans .remountingSigkill false run
      else enterKnown false run)
  | .unmountingSigterm =>
    some (if cfg.sendSigkill then mountEnterSignal cfg ans .unmountingSigkill false run
      else enterKnown false run)
  | .mountingSigkill | .remountingSigkill | .unmountingSigkill => some (enterKnown false run)
  | .dead | .mounted | .failed => none

def mountResetFailed (run : Run) : Run :=
  let run := if run.mount.state = .failed then mountSetState .dead run else run
  run.update fun m => { m with failure := false }

end

inductive UnitEvent where
  | start (condition : Bool)
  | stop
  | reload
  | sigchld (pid code status : Int32)
  | timer
  | resetFailed

-- The kernel reports only processes, and only a timer that is set, which elapses once.
def dispatch (cfg : Config) (ans : Answers) (event : UnitEvent) (m : Mount) : Option Run :=
  match event with
  | .start condition => (unitStart cfg ans condition { mount := m }).map Prod.fst
  | .stop => (unitStop ans { mount := m }).map Prod.fst
  | .reload => (unitReload cfg ans { mount := m }).map Prod.fst
  | .sigchld pid code status =>
    if 0 < pid then mountSigchldEvent pid code status { mount := m } else some { mount := m }
  | .timer =>
    if m.timer then mountTimerEvent cfg ans { mount := m.disarm } else some { mount := m }
  | .resetFailed => some (mountResetFailed { mount := m })

end Systemd.Mounts
