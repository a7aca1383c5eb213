import Systemd.Basic.CString
import Systemd.Engine.JobType

set_option autoImplicit false

namespace Systemd.Triggers

inductive PathState where
  | dead
  | waiting
  | running
  | failed
  deriving DecidableEq

def PathState.active : PathState -> UnitActiveState
  | .dead => .inactive
  | .waiting | .running => .active
  | .failed => .failed

inductive PathType where
  | pathExists
  | pathExistsGlob
  | directoryNotEmpty
  | pathChanged
  deriving DecidableEq

def PathType.level : PathType -> Bool
  | .pathExists | .pathExistsGlob | .directoryNotEmpty => true
  | .pathChanged => false

structure PathSpec where
  path : CString
  type : PathType
  watched : Bool := false
  previousExists : Bool := false
  deriving DecidableEq

structure PathUnit (U : Type) where
  specs : List PathSpec
  unit : Option U := none
  state : PathState := .dead
  failure : Bool := false
  inotifyTriggered : Bool := false
  deriving DecidableEq

inductive DirectoryAnswer where
  | empty
  | occupied
  | enoent
  | failed
  deriving DecidableEq

structure Files where
  access : CString -> Bool
  globExists : CString -> Bool
  dirIsEmpty : CString -> DirectoryAnswer

/-- What the rest of the system answers to the calls made while one event is handled: the files at the
first and at the second check, which of the paths can be watched before and after the unit is asked
for, and whether a stop of the path unit itself is pending. -/
structure PathAnswers where
  files : Files
  watch : Nat -> Bool
  filesAgain : Files
  stopPending : Bool
  addJob : Bool
  watchAgain : Nat -> Bool
  unitLoaded : Bool

/-- A path unit while it handles an event, how many START jobs for its unit it has queued, and whether
it has reported a state of its own. -/
structure PathRun (U : Type) where
  path : PathUnit U
  started : Nat := 0
  notified : Bool := false

def PathSpec.unwatch (s : PathSpec) : PathSpec := { s with watched := false }

-- A path that cannot be watched ends the loop; those behind it are left as they are.
def watchSpecs (watch : Nat -> Bool) : List PathSpec -> List PathSpec × Bool
  | [] => ([], true)
  | s :: rest =>
    if watch 0 then
      let (rest, watched) := watchSpecs (fun index => watch (index + 1)) rest
      ({ s with watched := true } :: rest, watched)
    else
      (s.unwatch :: rest, false)

def PathSpec.check (files : Files) (initial : Bool) (s : PathSpec) : PathSpec × Bool :=
  match s.type with
  | .pathExists => (s, files.access s.path)
  | .pathExistsGlob => (s, files.globExists s.path)
  | .directoryNotEmpty =>
    (s, !(files.dirIsEmpty s.path = .enoent || files.dirIsEmpty s.path = .empty))
  | .pathChanged =>
    ({ s with previousExists := files.access s.path },
      !initial && files.access s.path != s.previousExists)

def checkSpecs (files : Files) (initial : Bool) : List PathSpec -> List PathSpec × Bool
  | [] => ([], false)
  | s :: rest =>
    let (s, good) := s.check files initial
    if good then
      (s :: rest, true)
    else
      let (rest, good) := checkSpecs files initial rest
      (s :: rest, good)

section

variable {U : Type}

def PathRun.update (run : PathRun U) (change : PathUnit U -> PathUnit U) : PathRun U :=
  { run with path := change run.path }

def PathRun.withSpecs (run : PathRun U) (specs : List PathSpec) : PathRun U :=
  run.update fun p => { p with specs := specs }

def PathUnit.unwatch (p : PathUnit U) : PathUnit U :=
  { p with specs := p.specs.map .unwatch }

def pathWatch (watch : Nat -> Bool) (run : PathRun U) : PathRun U × Bool :=
  let (specs, watched) := watchSpecs watch run.path.specs
  (run.withSpecs specs, watched)

def pathCheckGood (files : Files) (initial : Bool) (run : PathRun U) : PathRun U × Bool :=
  let (specs, good) := checkSpecs files initial run.path.specs
  (run.withSpecs specs, good)

def PathUnit.setState (state : PathState) (p : PathUnit U) : PathUnit U :=
  let p := { p with state := state }
  if state ≠ .waiting ∧ (state ≠ .running ∨ p.inotifyTriggered) then p.unwatch else p

def pathSetState (state : PathState) (run : PathRun U) : PathRun U :=
  { run.update (.setState state) with notified := true }

def pathEnterDead (success : Bool) (run : PathRun U) : PathRun U :=
  let run := run.update fun p => { p with failure := p.failure || !success }
  pathSetState (if run.path.failure then .failed else .dead) run

def pathEnterRunning (ans : PathAnswers) (run : PathRun U) : PathRun U :=
  if ans.stopPending then
    run
  else if ans.addJob then
    let run := { run with started := run.started + 1 }
    let run := run.update fun p => { p with inotifyTriggered := false }
    let (run, watched) := pathWatch ans.watchAgain run
    if watched then pathSetState .running run else pathEnterDead false run
  else
    pathEnterDead false run

def pathEnterWaiting (ans : PathAnswers) (initial recheck : Bool) (run : PathRun U) :
    PathRun U :=
  let (run, good) := if recheck then pathCheckGood ans.files initial run else (run, false)
  if good then
    pathEnterRunning ans run
  else
    let (run, watched) := pathWatch ans.watch run
    if watched then
      let (run, good) := if recheck then pathCheckGood ans.filesAgain false run else (run, false)
      if good then pathEnterRunning ans run else pathSetState .waiting run
    else
      pathEnterDead false run

-- path_mkdir makes directories, which is a change of the files before the first check.
def pathStart (ans : PathAnswers) (run : PathRun U) : Option (PathRun U) :=
  if run.path.state ≠ .dead ∧ run.path.state ≠ .failed then
    none
  else if ans.unitLoaded then
    some (pathEnterWaiting ans true true (run.update fun p => { p with failure := false }))
  else
    some run

def pathStop (run : PathRun U) : Option (PathRun U) :=
  if run.path.state ≠ .waiting ∧ run.path.state ≠ .running then
    none
  else
    some (pathEnterDead true run)

/-- What was read from an inotify descriptor: nothing, since the poll event was a wrong one or the read
failed, or events for the path at a place of the list, one of them perhaps about the path itself. -/
inductive InotifyRead where
  | failed
  | events (place : Nat) (primary : Bool)

def pathFdEvent (ans : PathAnswers) (read : InotifyRead) (run : PathRun U) : PathRun U :=
  if run.path.state ≠ .waiting ∧ run.path.state ≠ .running then
    run
  else
    match read with
    | .failed => pathEnterDead false run
    | .events place primary =>
      match run.path.specs[place]? with
      | none => pathEnterDead false run
      | some s =>
        let run := run.update fun p => { p with inotifyTriggered := true }
        if s.type = .pathChanged ∧ primary then
          pathEnterRunning ans run
        else
          pathEnterWaiting ans false true run

-- The part of path_unit_notify for one path of the unit.
def pathUnitNotified (ans : PathAnswers) (ns : UnitActiveState) (run : PathRun U) : PathRun U :=
  if run.path.state = .running ∧ ns = .inactive then
    pathEnterWaiting ans false run.path.inotifyTriggered run
  else
    run

variable (state : PathState) (success : Bool) (run : PathRun U) (specs : List PathSpec)

@[simp] theorem PathRun.withSpecs_started : (run.withSpecs specs).started = run.started := rfl

@[simp] theorem PathRun.withSpecs_state : (run.withSpecs specs).path.state = run.path.state := rfl

@[simp] theorem PathRun.withSpecs_unit : (run.withSpecs specs).path.unit = run.path.unit := rfl

@[simp] theorem PathRun.withSpecs_inotifyTriggered :
    (run.withSpecs specs).path.inotifyTriggered = run.path.inotifyTriggered := rfl

@[simp] theorem PathRun.withSpecs_specs : (run.withSpecs specs).path.specs = specs := rfl

@[simp] theorem PathRun.withSpecs_twice (others : List PathSpec) :
    (run.withSpecs specs).withSpecs others = run.withSpecs others := rfl

@[simp] theorem pathSetState_state : (pathSetState state run).path.state = state := by
  unfold pathSetState PathRun.update PathUnit.setState
  dsimp only
  split <;> rfl

@[simp] theorem pathSetState_started : (pathSetState state run).started = run.started := rfl

@[simp] theorem pathSetState_notified : (pathSetState state run).notified = true := rfl

@[simp] theorem pathSetState_unit : (pathSetState state run).path.unit = run.path.unit := by
  unfold pathSetState PathRun.update PathUnit.setState
  dsimp only
  split <;> rfl

@[simp] theorem pathEnterDead_unit : (pathEnterDead success run).path.unit = run.path.unit := by
  simp [pathEnterDead, PathRun.update]

@[simp] theorem pathEnterDead_failed : (pathEnterDead false run).path.state = .failed := by
  simp [pathEnterDead, PathRun.update]

@[simp] theorem pathEnterDead_notified : (pathEnterDead success run).notified = true := rfl

@[simp] theorem pathEnterDead_started : (pathEnterDead success run).started = run.started := rfl

theorem pathEnterRunning_cases (ans : PathAnswers) (run : PathRun U) :
    (ans.stopPending = true ∧ pathEnterRunning ans run = run) ∨
      (ans.stopPending = false ∧ pathEnterRunning ans run = pathEnterDead false run) ∨
        (ans.stopPending = false ∧
          ∃ specs,
            let asked : PathRun U :=
              { path := { run.path with specs := specs, inotifyTriggered := false }
                started := run.started + 1
                notified := run.notified }
            pathEnterRunning ans run = pathSetState .running asked ∨
              pathEnterRunning ans run = pathEnterDead false asked) := by
  unfold pathEnterRunning pathWatch
  dsimp only
  split
  next stopping => exact .inl ⟨stopping, rfl⟩
  next free =>
    have free : ans.stopPending = false := by simpa using free
    split
    next =>
      refine .inr (.inr ⟨free, ?_⟩)
      split
      next => exact ⟨_, .inl rfl⟩
      next => exact ⟨_, .inr rfl⟩
    next => exact .inr (.inl ⟨free, rfl⟩)

theorem pathEnterWaiting_cases (ans : PathAnswers) (initial recheck : Bool) (run : PathRun U) :
    ∃ specs,
      (recheck = true ∧
          pathEnterWaiting ans initial recheck run = pathEnterRunning ans (run.withSpecs specs)) ∨
        pathEnterWaiting ans initial recheck run = pathEnterDead false (run.withSpecs specs) ∨
          pathEnterWaiting ans initial recheck run = pathSetState .waiting (run.withSpecs specs) := by
  cases recheck with
  | false =>
    simp only [pathEnterWaiting, pathWatch, Bool.false_eq_true, if_false, false_and, false_or]
    split
    next => exact ⟨_, .inr rfl⟩
    next => exact ⟨_, .inl rfl⟩
  | true =>
    simp only [pathEnterWaiting, pathWatch, pathCheckGood, if_true, PathRun.withSpecs_specs,
      PathRun.withSpecs_twice, true_and]
    split
    next => exact ⟨_, .inl rfl⟩
    next =>
      split
      next =>
        split
        next => exact ⟨_, .inl rfl⟩
        next => exact ⟨_, .inr (.inr rfl)⟩
      next => exact ⟨_, .inr (.inl rfl)⟩

end

end Systemd.Triggers
