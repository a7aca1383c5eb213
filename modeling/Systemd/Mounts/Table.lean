import Systemd.Basic.PathNames
import Systemd.Mounts.Machine
import Systemd.Units.Registry

set_option autoImplicit false

namespace Systemd.Mounts

-- The places of the mount_table.
def apiMountPoints : List CString :=
  ["/proc", "/sys", "/dev", "/dev/shm", "/dev/pts", "/run", "/sys/fs/cgroup",
    "/sys/fs/cgroup/systemd"].map CString.ofString

def ignorePaths : List CString :=
  ["/sys/fs/selinux", "/selinux", "/proc/bus/usb"].map CString.ofString

def mountPointIsApi (path : CString) : Bool :=
  apiMountPoints.any (fun place => pathEqual path.bytes place.bytes) ||
    pathStartswith path.bytes (CString.ofString "/sys/fs/cgroup/").bytes

def mountPointIgnore (path : CString) : Bool :=
  ignorePaths.any fun place => pathEqual path.bytes place.bytes

def isPath (path : CString) : Bool :=
  path.bytes.contains '/'.toUInt8

structure MountLine where
  what : CString
  place : CString
  options : CString
  fstype : CString
  passno : Int

def MountLine.skipped (line : MountLine) : Bool :=
  mountPointIsApi line.place || mountPointIgnore line.place || line.fstype = .ofString "autofs" ||
    !isPath line.place

def unitOf (place : CString) : CString :=
  unitNameFromPath place UnitType.mount.suffix

structure MountManager where
  unitsByType : List CString := []
  mount : CString -> Mount := fun _ => {}
  loadQueue : List CString := []
  -- The number of names of the other units.
  otherNames : Nat := 0

def MountManager.update (m : MountManager) (unit : CString) (change : Mount -> Mount) : MountManager :=
  { m with mount := Function.update m.mount unit (change (m.mount unit)) }

-- The checks of unit_add_name() on the first name of a unit without instance.
def unitAddName (m : MountManager) (unit : CString) : Option RegistryErrno :=
  if unitNameIsTemplate unit ∨ unitNameIsValid unit false = false ∨
      unitNameToInstance unit ≠ some none then
    some .einval
  else if m.unitsByType.length + m.otherNames ≥ managerMaxNames then
    some .e2big
  else
    none

def unitNew (m : MountManager) (unit : CString) : MountManager :=
  { m with
    unitsByType := unit :: m.unitsByType
    mount := Function.update m.mount unit {}
    loadQueue := unit :: m.loadQueue }

def MountLine.parameters (line : MountLine) : MountParameters :=
  { what := some line.what, options := some line.options, fstype := some line.fstype,
    passno := line.passno }

def fromMountinfoLine (line : MountLine) (setFlags : Bool) (m : Mount) : Mount :=
  { m with
    isMounted := setFlags || m.isMounted
    justMounted := if setFlags then !m.fromProcSelfMountinfo else m.justMounted
    justChanged :=
      if setFlags then m.parametersProcSelfMountinfo.options ≠ some line.options else m.justChanged
    fromProcSelfMountinfo := true
    parametersProcSelfMountinfo := line.parameters }

def fromEtcFstabLine (line : MountLine) (m : Mount) : Mount :=
  { m with fromEtcFstab := true, parametersEtcFstab := line.parameters }

def mountAddOne (m : MountManager) (line : MountLine) (fromProcSelfMountinfo setFlags : Bool) :
    MountManager × Option RegistryErrno :=
  if line.skipped then
    (m, none)
  else
    let unit := unitOf line.place
    match if unit ∈ m.unitsByType then none else unitAddName m unit with
    | some r => (m, some r)
    | none =>
      let m := if unit ∈ m.unitsByType then m else unitNew m unit
      (m.update unit fun mount =>
        if fromProcSelfMountinfo then fromMountinfoLine line setFlags mount
        else fromEtcFstabLine line mount, none)

-- r keeps the last error.
def readLine (fromProcSelfMountinfo setFlags : Bool) (soFar : MountManager × Option RegistryErrno)
    (line : MountLine) : MountManager × Option RegistryErrno :=
  let (m, k) := mountAddOne soFar.1 line fromProcSelfMountinfo setFlags
  (m, k.or soFar.2)

def mountLoadProcSelfMountinfo (m : MountManager) (lines : List MountLine) (setFlags : Bool) :
    MountManager × Option RegistryErrno :=
  lines.foldl (readLine true setFlags) (m, none)

def resetFlags (m : Mount) : Mount :=
  { m with isMounted := false, justMounted := false, justChanged := false }

-- One round of the loop of mount_fd_event() in front of the reset of the flags.
def followTable (m : Mount) : Run :=
  if m.isMounted = false then
    -- This has just been unmounted.
    let run : Run := { mount := { m with fromProcSelfMountinfo := false } }
    match m.state with
    | .mounted => mountEnterDead true run
    | state => mountSetState state run
  else if m.justMounted || m.justChanged then
    match m.state with
    | .dead | .failed => mountEnterMounted true { mount := m }
    | .mounting => mountEnterMountingDone { mount := m }
    | state => mountSetState state { mount := m }
  else
    { mount := m }

def followUnit (m : MountManager) (unit : CString) : MountManager :=
  m.update unit fun mount => resetFlags (followTable mount).mount

-- The units that the loading of other units brings in.
def pullIn (m : MountManager) (unit : CString) : MountManager :=
  if unit ∈ m.unitsByType then m else unitNew m unit

def managerDispatchLoadQueue (m : MountManager) (pulled : List CString) : MountManager :=
  { pulled.foldl pullIn m with loadQueue := [] }

def mountFdEvent (pulled : List CString) (m : MountManager) (lines : List MountLine) :
    MountManager × Bool :=
  let (m, r) := mountLoadProcSelfMountinfo m lines true
  if r.isSome then
    (m.unitsByType.foldl (fun m unit => m.update unit resetFlags) m, false)
  else
    let m := managerDispatchLoadQueue m pulled
    (m.unitsByType.foldl followUnit m, true)

-- mount_coldplug() without a state from before a reload.
def mountColdplug (m : Mount) : Run :=
  if m.fromProcSelfMountinfo then mountSetState .mounted { mount := m } else { mount := m }

def mountEnumerate (fstab table : List MountLine) (pulled : List CString) : MountManager :=
  let m := (fstab.foldl (readLine false false) ({}, none)).1
  let m := (mountLoadProcSelfMountinfo m table false).1
  let m := managerDispatchLoadQueue m pulled
  m.unitsByType.foldl (fun m unit => m.update unit fun mount => (mountColdplug mount).mount) m

structure System where
  manager : MountManager
  table : List MountLine
  -- Whether mount_fd_event() has read the table since it changed.
  processed : Bool

inductive Event where
  | tableChanged (table : List MountLine)
  | fdEvent (pulled : List CString)
  | unitEvent (unit : CString) (ans : Answers) (event : UnitEvent)
  | load (pulled : List CString)
  | otherNames (count : Nat)

def take (cfg : CString -> Config) : Event -> System -> Option System
  | .tableChanged table, s => some { s with table := table, processed := false }
  | .fdEvent pulled, s =>
    let (manager, success) := mountFdEvent pulled s.manager s.table
    some { s with manager, processed := s.processed || success }
  | .unitEvent unit ans event, s =>
    if unit ∈ s.manager.unitsByType then
      (dispatch (cfg unit) ans event (s.manager.mount unit)).map fun run =>
        { s with manager := s.manager.update unit fun _ => run.mount }
    else
      none
  | .load pulled, s => some { s with manager := managerDispatchLoadQueue s.manager pulled }
  | .otherNames count, s => some { s with manager := { s.manager with otherNames := count } }

def listing (table : List MountLine) (unit : CString) : List MountLine :=
  table.filter fun line => !line.skipped && unitOf line.place = unit

def Listed (table : List MountLine) (unit : CString) : Prop :=
  ∃ line ∈ table, line.skipped = false ∧ unitOf line.place = unit

/-- A mount unit agrees with the mount table, once the table has been read and no process of the unit
can change it any more. -/
def Follows (unit : CString) (s : System) : Prop :=
  unit ∈ s.manager.unitsByType -> (s.manager.mount unit).controlPid = 0 -> s.processed = true ->
    ((s.manager.mount unit).state = .mounted ↔ Listed s.table unit) ∧
      (¬Listed s.table unit ->
        (s.manager.mount unit).state = .dead ∨ (s.manager.mount unit).state = .failed)

def booted (fstab table : List MountLine) (pulled : List CString) : System where
  manager := mountEnumerate fstab table pulled
  table
  processed := true

def Readable (fstab table : List MountLine) : Prop :=
  (mountLoadProcSelfMountinfo (fstab.foldl (readLine false false) ({}, none)).1 table false).2 = none

end Systemd.Mounts
