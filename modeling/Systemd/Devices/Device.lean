import Systemd.Mounts.Table
import Systemd.Services.Reload
import Systemd.Shared.Followers

set_option autoImplicit false

namespace Systemd.Devices

open Sharing

inductive DeviceState where
  | dead
  | plugged
  deriving DecidableEq

abbrev UnitId := Nat

structure Device where
  id : Option CString := none
  names : List CString := []
  -- Whether the load state is still UNIT_STUB.
  stub : Bool := true
  state : DeviceState := .dead

/-- The device units of a manager and the names that lead to them. `sharing` has d->sysfs of each unit,
the lists of the units with the same one, and the table devices_by_sysfs. -/
structure DeviceManager where
  device : UnitId -> Device
  live : List UnitId
  units : NameTable UnitId
  loadQueue : List UnitId
  sharing : Shared UnitId CString
  -- The number of names of the other units.
  otherNames : Nat
  -- The address of the next unit. Addresses are not used twice.
  nextUnit : UnitId

namespace DeviceManager

def update (m : DeviceManager) (u : UnitId) (change : Device -> Device) : DeviceManager :=
  { m with device := Function.update m.device u (change (m.device u)) }

def sysfs (m : DeviceManager) (u : UnitId) : Option CString := m.sharing.key u

def empty : DeviceManager where
  device := fun _ => {}
  live := []
  units := []
  loadQueue := []
  sharing := .empty
  otherNames := 0
  nextUnit := 0

end DeviceManager

inductive Fault where
  | assertion
  | freedMemory
  deriving DecidableEq

def unitOf (path : CString) : CString := unitNameFromPath path UnitType.device.suffix

-- The list that goes on is found under the path of its first unit.
def deviceUnsetSysfs (m : DeviceManager) (d : UnitId) : Except Fault DeviceManager :=
  match m.sharing.leave (fun _ first => first) d with
  | none => .error .freedMemory
  | some sharing => .ok { m with sharing := sharing }

def deviceSetState (m : DeviceManager) (d : UnitId) (state : DeviceState) : DeviceManager :=
  m.update d fun device => { device with state := state }

def unitNew (m : DeviceManager) : DeviceManager × UnitId :=
  ({ m with
      device := Function.update m.device m.nextUnit {}
      live := m.nextUnit :: m.live
      nextUnit := m.nextUnit + 1 }, m.nextUnit)

-- Device units have no instances.
def unitAddName (m : DeviceManager) (u : UnitId) (name : CString) :
    DeviceManager × Option RegistryErrno :=
  if unitNameIsTemplate name ∨ unitNameIsValid name false = false ∨
      unitNameToInstance name ≠ some none then
    (m, some .einval)
  else if m.units.length + m.otherNames ≥ managerMaxNames then (m, some .e2big)
  else if name ∈ (m.device u).names then (m, none)
  else if (m.units.get name).isSome then (m, some .eexist)
  else
    ({ m.update u fun device =>
        { device with names := name :: device.names, id := device.id.or (some name) } with
      units := m.units ++ [(name, u)] }, none)

def deviceAddEscapedName (m : DeviceManager) (u : UnitId) (dn : CString) :
    DeviceManager × Option RegistryErrno :=
  match unitAddName m u (unitOf dn) with
  | (m, some .eexist) => (m, none)
  | result => result

-- Units that have not been loaded yet are not asked to give up what they hold.
def unitFree (m : DeviceManager) (u : UnitId) : Except Fault DeviceManager := do
  let m ← if (m.device u).stub then .ok m else deviceUnsetSysfs m u
  .ok
    { m with
      units := (m.device u).names.foldl (fun units name => units.removeValue name u) m.units
      live := m.live.erase u
      loadQueue := m.loadQueue.erase u }

def pullIn (m : DeviceManager) (name : CString) : Except Fault DeviceManager :=
  if (m.units.get name).isSome then .ok m
  else
    let (m, u) := unitNew m
    match unitAddName m u name with
    | (m, some _) => unitFree m u
    | (m, none) => .ok { m with loadQueue := u :: m.loadQueue }

def loadUnit (m : DeviceManager) (u : UnitId) : DeviceManager :=
  m.update u fun device => { device with stub := false }

-- Loading a unit may pull in device units, which are loaded in turn.
def managerDispatchLoadQueue (m : DeviceManager) (pulled : List CString) :
    Except Fault DeviceManager := do
  let m ← pulled.foldlM pullIn m
  .ok { m.loadQueue.foldl loadUnit m with loadQueue := [] }

/-- What manager_load_unit() makes of a word of SYSTEMD_WANTS. If there is no unit of that name yet, it
loads one, and with it all that wait to be loaded. -/
inductive Want where
  | known
  | loaded (pulled : List CString) (otherNames : Nat)
  | refused (r : RegistryErrno)

/-- A link to a device node, and whether stat() finds something other than the device in its place. -/
structure DeviceLink where
  path : CString
  stale : Bool

structure UdevDevice where
  syspath : CString
  devnode : Option CString
  devlinks : List DeviceLink
  systemdAlias : Option CString := none
  wants : List Want := []

def addAlias (m : DeviceManager) (u : UnitId) (dev : UdevDevice) :
    Except Fault (DeviceManager × Option RegistryErrno) :=
  match dev.systemdAlias with
  | none => .ok (m, none)
  | some path =>
    if !Mounts.isPath path then .ok (m, none)
    else if !pathIsAbsolute path.bytes then .error .assertion
    else .ok (deviceAddEscapedName m u path)

def addWants (m : DeviceManager) : List Want -> Except Fault (DeviceManager × Option RegistryErrno)
  | [] => .ok (m, none)
  | .known :: rest => addWants m rest
  | .refused r :: _ => .ok (m, some r)
  | .loaded pulled otherNames :: rest => do
    let m ← managerDispatchLoadQueue m pulled
    addWants { m with otherNames := otherNames } rest

-- What device_update_unit() reads of the main object only.
def addProperties (m : DeviceManager) (u : UnitId) (dev : UdevDevice) :
    Except Fault (DeviceManager × Option RegistryErrno) := do
  let (m, r) ← addAlias m u dev
  match r with
  | some r => .ok (m, some r)
  | none => addWants m dev.wants

def setSysfs (m : DeviceManager) (u : UnitId) (sysfs : CString) : Except Fault DeviceManager :=
  if (m.sysfs u).isSome then .ok m
  else
    match m.sharing.join u sysfs with
    | none => .error .freedMemory
    | some sharing => .ok { m with sharing := sharing }

-- The end of device_update_unit() once there is a unit. A unit that is new does not outlive an error.
def fillUnit (m : DeviceManager) (u : UnitId) (dev : UdevDevice) (main delete : Bool) :
    Except Fault (DeviceManager × Option RegistryErrno) := do
  let m ← setSysfs m u dev.syspath
  let (m, r) ← if main then addProperties m u dev else .ok (m, none)
  if r.isSome && delete then do
    let m ← unitFree m u
    .ok (m, r)
  else .ok (m, r)

def deviceUpdateUnit (m : DeviceManager) (dev : UdevDevice) (path : CString) (main : Bool) :
    Except Fault (DeviceManager × Option RegistryErrno) :=
  match m.units.get (unitOf path) with
  | some u =>
    if (m.sysfs u).any fun sysfs => !pathEqual sysfs.bytes dev.syspath.bytes then
      .ok (m, some .eexist)
    else fillUnit m u dev main false
  | none =>
    let (m, u) := unitNew m
    match deviceAddEscapedName m u path with
    | (m, some r) => do
      let m ← unitFree m u
      .ok (m, some r)
    | (m, none) => fillUnit { m with loadQueue := u :: m.loadQueue } u dev main true

-- The lists are walked by their pointers, and no list is longer than there are units.
def sameSysfs (m : DeviceManager) (first : Option UnitId) : List UnitId :=
  walk m.sharing.links.next m.live.length first

def startswithSys (id : CString) : Bool := (CString.ofString "sys-").bytes.isPrefixOf id.bytes

def leads (m : DeviceManager) (u : UnitId) : Bool := (m.device u).id.any startswithSys

def deviceFollowing (m : DeviceManager) (u : UnitId) : Option UnitId :=
  following m.sharing.links (leads m) m.live.length u

def DeviceLink.followed (link : DeviceLink) : Bool :=
  !pathStartswith link.path.bytes (CString.ofString "/dev/block/").bytes &&
    !pathStartswith link.path.bytes (CString.ofString "/dev/char/").bytes && !link.stale

def UdevDevice.others (dev : UdevDevice) : List CString :=
  dev.devnode.toList ++ (dev.devlinks.filter DeviceLink.followed).map DeviceLink.path

def removeAll (sysfs : CString) : Nat -> DeviceManager -> Except Fault (DeviceManager × Bool)
  | 0, m => .ok (m, false)
  | bound + 1, m =>
    match m.sharing.get sysfs with
    | none => .error .freedMemory
    | some none => .ok (m, true)
    | some (some d) => do
      let m ← deviceUnsetSysfs m d
      removeAll sysfs bound (deviceSetState m d .dead)

def deviceProcessRemovedDevice (m : DeviceManager) (dev : UdevDevice) : Except Fault DeviceManager :=
  (removeAll dev.syspath (m.live.length + 1) m).map Prod.fst

end Systemd.Devices
