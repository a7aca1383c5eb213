import Systemd.Engine.Run
import Systemd.Mounts.Listing

set_option autoImplicit false

namespace Systemd.Automounts

open Mounts

inductive AutomountState where
  | dead
  | waiting
  | running
  | failed
  deriving DecidableEq

def AutomountState.live : AutomountState -> Bool
  | .waiting | .running => true
  | .dead | .failed => false

structure Automount where
  state : AutomountState := .dead
  failure : Bool := false
  -- Whether pipe_fd is open.
  pipe : Bool := false
  tokens : List UInt32 := []

structure MountJob where
  id : JobId
  type : JobType
  state : JobState := .waiting
  deriving DecidableEq

structure Answer where
  token : UInt32
  ready : Bool
  automount : AutomountState
  stopQueued : Bool
  mount : MountState
  job : Option MountJob
  asked : Option JobId

structure System where
  automount : Automount := {}
  -- Whether a job is installed that stops the automount unit.
  stopQueued : Bool := false
  mount : Mount
  job : Option MountJob := none
  currentJobId : JobId := 0
  -- The requests so far, the job that was queued for each of them, and how they were answered.
  received : List UInt32 := []
  asked : UInt32 -> Option JobId := fun _ => none
  answers : List Answer := []

def System.answer (s : System) (ready : Bool) (token : UInt32) : Answer where
  token
  ready
  automount := s.automount.state
  stopQueued := s.stopQueued
  mount := s.mount.state
  job := s.job
  asked := s.asked token

-- The tokens stay where they are if the autofs mount cannot be opened for the ioctls.
def automountSendReady (opened ready : Bool) (s : System) : System :=
  if opened then
    { s with
      automount := { s.automount with tokens := [] }
      answers := s.answers ++ s.automount.tokens.map (s.answer ready) }
  else s

section

variable (opened : Bool)

def unmountAutofs (s : System) : System :=
  if s.automount.pipe then
    let s := automountSendReady opened false s
    { s with automount := { s.automount with pipe := false } }
  else s

-- The job that stops the automount unit is done once it is down.
def automountSetState (state : AutomountState) (s : System) : System :=
  let s := { s with automount := { s.automount with state := state } }
  if state.live then s else { unmountAutofs opened s with stopQueued := false }

def automountEnterDead (success : Bool) (s : System) : System :=
  let failure := s.automount.failure || !success
  automountSetState opened (if failure then .failed else .dead)
    { s with automount := { s.automount with failure := failure } }

def automountEnterWaiting (set : Bool) (s : System) : System :=
  let s := { s with automount := { s.automount with tokens := [] } }
  if set then
    automountSetState opened .waiting { s with automount := { s.automount with pipe := true } }
  else automountEnterDead opened false s

inductive Stat where
  | failed
  | autofs
  | other

def replaceJob (type : JobType) (s : System) : System :=
  { s with
    job := some { id := s.currentJobId, type := type }
    currentJobId := s.currentJobId + 1 }

-- What the job was queued for is left to the one it is merged into.
def inherit (old : JobId) (s : System) : System :=
  { s with
    asked := fun token => if s.asked token = some old then some s.currentJobId else s.asked token }

/-- A transaction with a job of this type for the mount unit: a job that is installed already is kept
if it is just what the transaction wants, otherwise it is merged if it can be. -/
def installJob (type : JobType) (several : Bool) (s : System) : System :=
  match s.job with
  | none => replaceJob type s
  | some job =>
    if job.type = type ∧ several = false then s
    else
      match jobTypeMerge type job.type with
      | some merged => replaceJob merged (inherit job.id s)
      | none => replaceJob type s

def automountEnterRunning (token : UInt32) (stat : Stat) (start : Option Bool) (s : System) : System :=
  if !s.automount.state.live || s.stopQueued then
    automountSendReady opened false s
  else
    match stat, start with
    | .failed, _ | .autofs, none => automountEnterDead opened false s
    | .other, _ => automountSetState opened .running s
    | .autofs, some several =>
      let s := installJob .start several s
      automountSetState opened .running
        { s with asked := Function.update s.asked token (s.job.map MountJob.id) }

-- Here and below none means that an assertion fails, or that the event cannot happen.
def automountStart (refused set : Bool) (s : System) : Option System :=
  if s.automount.state.live || refused then some s
  else if s.automount.pipe then none
  else
    some (automountEnterWaiting opened set { s with automount := { s.automount with failure := false } })

def automountStop (s : System) : System :=
  if s.automount.state.live then automountEnterDead opened true s else s

def automountResetFailed (s : System) : System :=
  let s := if s.automount.state = .failed then automountSetState opened .dead s else s
  { s with automount := { s.automount with failure := false } }

inductive Packet where
  | invalid
  | unknown
  | missingDirect (token : UInt32) (stat : Stat) (start : Option Bool)

-- The pipe is watched while the unit is live. No token is 0, and none is used twice.
def automountFdEvent (packet : Packet) (s : System) : Option System :=
  if s.automount.state.live = false then none
  else
    match packet with
    | .invalid => some (automountEnterDead opened false s)
    | .unknown => some s
    | .missingDirect token stat start =>
      if token = 0 ∨ token ∈ s.received then none
      else
        some (automountEnterRunning opened token stat start
          { s with
            automount := { s.automount with tokens := token :: s.automount.tokens }
            received := token :: s.received })

def ready : MountState -> Bool
  | .mounted | .remounting => true
  | _ => false

def failing : MountState -> Bool
  | .dead | .unmounting | .mountingSigterm | .mountingSigkill | .remountingSigterm
  | .remountingSigkill | .unmountingSigterm | .unmountingSigkill | .failed => true
  | _ => false

def mountNotifyAutomount (s : System) : System :=
  if ready s.mount.state then automountSendReady opened true s
  else if failing s.mount.state then automountSendReady opened false s
  else s

end

-- job_finish_and_invalidate() makes a start job of a restart job that is done.
def jobFinish (result : JobResult) (job : MountJob) : Option MountJob :=
  if result = .done ∧ (job.type = .restart ∨ job.type = .tryRestart) then
    some { job with type := .start, state := .waiting }
  else none

def unitNotify (state : UnitActiveState) (success : Bool) (job : MountJob) : Option MountJob :=
  let ended : JobResult := if state = .failed then .failed else .done
  match job.type with
  | .start | .verifyActive =>
    if state.isActiveOrReloading then jobFinish .done job
    else if job.state = .running ∧ state.isInactiveOrFailed then jobFinish ended job
    else some job
  | .reload | .reloadOrStart =>
    if job.state = .running ∧ state = .active then jobFinish (if success then .done else .failed) job
    else if job.state = .running ∧ state.isInactiveOrFailed then jobFinish ended job
    else some job
  | .stop | .restart | .tryRestart =>
    if state.isInactiveOrFailed then jobFinish .done job
    else if job.state = .running ∧ state ≠ .deactivating then jobFinish .failed job
    else some job

def hear (opened : Bool) (s : System) (call : StateCall) : System :=
  let s := mountNotifyAutomount opened { s with mount := { s.mount with state := call.new } }
  { s with job := s.job.bind (unitNotify call.new.active call.reloadSuccess) }

def follow (opened : Bool) (s : System) (run : Run) : System :=
  { run.calls.foldl (hear opened) s with mount := run.mount }

def operation (type : JobType) (state : UnitActiveState) : JobType × RunStep :=
  match type with
  | .start => (.start, .call .start true)
  | .verifyActive =>
    (.verifyActive, .settled <|
      if state.isActiveOrReloading then .ealready
      else if state = .activating then .eagain
      else .enoexec)
  | .stop => (.stop, .call .stop true)
  | .reload => (.reload, .call .reload false)
  | .reloadOrStart =>
    if state = .active then (.reload, .call .reload false) else (.start, .call .start true)
  | .restart =>
    if state = .inactive ∨ state = .failed ∨ state = .activating then (.start, .call .start false)
    else (.restart, .call .stop false)
  | .tryRestart =>
    if state = .inactive ∨ state = .failed ∨ state = .deactivating then
      (.tryRestart, .settled .enoexec)
    else if state = .activating then (.start, .call .start false)
    else (.restart, .call .stop false)

def replyErrno : Reply -> Option Errno
  | .ok => none
  | .ealready => some .ealready
  | .eagain => some .eagain
  | .enoexec => some .enoexec

def unitEvent (condition : Bool) : UnitCall -> UnitEvent
  | .start => .start condition
  | .stop => .stop
  | .reload => .reload

def unitCall (cfg : Config) (answers : Answers) (condition : Bool) (op : UnitCall) (run : Run) :
    Option (Run × Reply) :=
  match op with
  | .start => unitStart cfg answers condition run
  | .stop => unitStop answers run
  | .reload => unitReload cfg answers run

def jobReturned (result : Option Errno) (job : MountJob) : Option MountJob :=
  match result with
  | none => some job
  | some .ealready => jobFinish .done job
  | some .enoexec => jobFinish .skipped job
  | some .eagain => some { job with state := .waiting }
  | some _ => jobFinish .failed job

def jobRunEnd (id : JobId) (result : Option Errno) (s : System) : System :=
  { s with job := s.job.bind fun job => if job.id = id then jobReturned result job else some job }

def jobRunAndInvalidate (cfg : Config) (opened : Bool) (answers : Answers) (condition : Bool)
    (s : System) : Option System :=
  match s.job with
  | none => none
  | some job =>
    if job.state ≠ .waiting then some s
    else
      let (type, step) := operation job.type s.mount.state.active
      let s := { s with job := some { job with type := type, state := .running } }
      match step with
      | .returned _ => some s
      | .settled errno => some (jobRunEnd job.id (some errno) s)
      | .call op _ =>
        (unitCall cfg answers condition op { mount := s.mount }).map fun (run, reply) =>
          jobRunEnd job.id (replyErrno reply) (follow opened s run)

def mountFdEvent (opened : Bool) (lines : List MountLine) (readable : Bool) (s : System) : System :=
  let mount := described true true lines s.mount
  if readable then
    let s := follow opened s (followTable mount)
    { s with mount := resetFlags s.mount }
  else { s with mount := resetFlags mount }

inductive Event where
  | fdEvent (packet : Packet)
  | startAutomount (refused set : Bool)
  | stopAutomount
  | resetFailed
  | stopQueued (queued : Bool)
  | installJob (type : JobType) (several : Bool)
  -- The job is cancelled, or a job that it depends on fails, or it times out.
  | dropJob
  | runJob (answers : Answers) (condition : Bool)
  | unitEvent (answers : Answers) (event : UnitEvent)
  | mountFdEvent (lines : List MountLine) (readable : Bool)

def take (cfg : Config) (opened : Bool) : Event -> System -> Option System
  | .fdEvent packet, s => automountFdEvent opened packet s
  | .startAutomount refused set, s => automountStart opened refused set s
  | .stopAutomount, s => some (automountStop opened s)
  | .resetFailed, s => some (automountResetFailed opened s)
  | .stopQueued queued, s => some { s with stopQueued := queued }
  | .installJob type several, s => some (installJob type several s)
  | .dropJob, s => some { s with job := none }
  | .runJob answers condition, s => jobRunAndInvalidate cfg opened answers condition s
  | .unitEvent answers event, s => (dispatch cfg answers event s.mount).map (follow opened s)
  | .mountFdEvent lines readable, s => some (mountFdEvent opened lines readable s)

/-- What the units find when they are loaded again: the lines for the mount point, which unit comes
first, whether they can watch what they have to, and whether the job can be queued again. -/
structure Reload where
  fstab : List MountLine
  mountinfo : List MountLine
  mountFirst : Bool
  automountWatched : Bool
  mountWatched : Bool
  jobRestored : Bool

def automountColdplug (opened : Bool) (state : AutomountState) (watched : Bool) (s : System) :
    Option System :=
  if state = .dead then some s
  else if state.live && !s.automount.pipe then none
  else if watched then some (automountSetState opened state s)
  else some s

def mountColdplugFrom (state : MountState) (watched : Bool) (m : Mount) : Option Run :=
  if state = .dead then some (mountColdplug m)
  else if state.controlled then
    if 0 < m.controlPid && watched then some (mountSetState state { mount := m.arm }) else none
  else some (mountSetState state { mount := m })

def restoreJob (job : Option MountJob) (s : System) : System :=
  match job with
  | some job => replaceJob job.type (inherit job.id s)
  | none => s

def unitColdplug (opened : Bool) (reload : Reload) (state : MountState) (job : Option MountJob)
    (s : System) : System :=
  match mountColdplugFrom state reload.mountWatched s.mount with
  | some run =>
    let s := follow opened s run
    if reload.jobRestored then restoreJob job s else s
  | none => s

def reloaded (reload : Reload) (old s : System) : System :=
  let mount := described true false reload.mountinfo (described false false reload.fstab {})
  { s with
    automount :=
      { failure := old.automount.failure, pipe := old.automount.pipe, tokens := old.automount.tokens }
    stopQueued := false
    mount :=
      { mount with
        failure := old.mount.failure
        controlPid := old.mount.controlPid
        controlCommandId := old.mount.controlCommandId }
    job := none }

-- What was serialized is what was the case before the old units were freed.
def managerReload (opened : Bool) (reload : Reload) (s : System) : Option System :=
  let freed := unmountAutofs opened s
  let coldplug := automountColdplug opened s.automount.state reload.automountWatched
  let mountColdplug := unitColdplug opened reload s.mount.state s.job
  if reload.mountFirst then coldplug (mountColdplug (reloaded reload s freed))
  else (coldplug (reloaded reload s freed)).map mountColdplug

end Systemd.Automounts
