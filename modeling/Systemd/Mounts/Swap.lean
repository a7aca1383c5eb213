import Systemd.Basic.PathNames
import Systemd.Shared.Reached
import Systemd.Units.Registry

set_option autoImplicit false

namespace Systemd.Swaps

inductive SwapState where
  | dead
  | activating
  | active
  | deactivating
  | activatingSigterm
  | activatingSigkill
  | deactivatingSigterm
  | deactivatingSigkill
  | failed
  deriving DecidableEq

structure SwapParameters where
  what : Option CString
  priority : Int
  noauto : Bool
  nofail : Bool
  handle : Bool

structure Swap where
  what : Option CString
  parametersEtcFstab : SwapParameters
  parametersProcSwaps : SwapParameters
  fromEtcFstab : Bool
  fromProcSwaps : Bool
  failure : Bool
  -- Both flags are used while looking for swaps that came up or went away.
  isActive : Bool
  justActivated : Bool
  state : SwapState

def swapInit : Swap :=
  let parameters : SwapParameters :=
    { what := none, priority := -1, noauto := false, nofail := false, handle := false }
  { what := none
    parametersEtcFstab := parameters
    parametersProcSwaps := parameters
    fromEtcFstab := false
    fromProcSwaps := false
    failure := false
    isActive := false
    justActivated := false
    state := .dead }

structure SwapManager where
  unitsByType : List CString
  swap : CString -> Swap
  swapsByProcSwaps : CString -> List CString
  loadQueue : List CString
  -- The number of names of the other units.
  otherNames : Nat

namespace SwapManager

def update (m : SwapManager) (unit : CString) (change : Swap -> Swap) : SwapManager :=
  { m with swap := Function.update m.swap unit (change (m.swap unit)) }

def empty : SwapManager where
  unitsByType := []
  swap := fun _ => swapInit
  swapsByProcSwaps := fun _ => []
  loadQueue := []
  otherNames := 0

end SwapManager

def unitOf (what : CString) : CString :=
  unitNameFromPath what UnitType.swap.suffix

def swapUnsetProcSwaps (m : SwapManager) (unit : CString) : SwapManager :=
  match (m.swap unit).parametersProcSwaps.what with
  | none => m
  | some device =>
    { m.update unit fun s => { s with parametersProcSwaps.what := none } with
      swapsByProcSwaps :=
        Function.update m.swapsByProcSwaps device ((m.swapsByProcSwaps device).erase unit) }

-- The checks of unit_add_name() on the first name of a unit without instance.
def unitAddName (m : SwapManager) (unit : CString) : Option RegistryErrno :=
  if unitNameIsTemplate unit ∨ unitNameIsValid unit false = false ∨
      unitNameToInstance unit ≠ some none then
    some .einval
  else if m.unitsByType.length + m.otherNames ≥ managerMaxNames then
    some .e2big
  else
    none

def unitNew (m : SwapManager) (unit what : CString) : SwapManager :=
  { m with
    unitsByType := unit :: m.unitsByType
    swap := Function.update m.swap unit { swapInit with what := some what }
    loadQueue := unit :: m.loadQueue }

def fromProcSwapsLine (device : CString) (priority : Int) (noauto nofail handle setFlags : Bool)
    (s : Swap) : Swap :=
  { s with
    parametersProcSwaps :=
      { what := some (s.parametersProcSwaps.what.getD device), priority, noauto, nofail, handle }
    isActive := setFlags || s.isActive
    justActivated := if setFlags then !s.fromProcSwaps else s.justActivated
    fromProcSwaps := true }

def fromEtcFstabLine (what : CString) (priority : Int) (noauto nofail handle : Bool) (s : Swap) :
    Swap :=
  { s with
    parametersEtcFstab := { what := some what, priority, noauto, nofail, handle }
    fromEtcFstab := true }

-- The chain of the swaps which share the same kernel swap device.
def chainProcSwaps (m : SwapManager) (unit device : CString) : SwapManager :=
  if (m.swap unit).parametersProcSwaps.what = none then
    { m with
      swapsByProcSwaps :=
        Function.update m.swapsByProcSwaps device (unit :: m.swapsByProcSwaps device) }
  else
    m

-- The unit is known to be another name of another device.
def Swap.elsewhere (s : Swap) (device : CString) : Bool :=
  s.fromProcSwaps && s.parametersProcSwaps.what.any fun what => !pathEqual what.bytes device.bytes

def swapAddOne (m : SwapManager) (what : CString) (whatProcSwaps : Option CString) (priority : Int)
    (noauto nofail handle setFlags : Bool) : SwapManager × Option RegistryErrno :=
  let unit := unitOf what
  if unit ∈ m.unitsByType ∧ whatProcSwaps.any (m.swap unit).elsewhere then
    (m, some .eexist)
  else
    match if unit ∈ m.unitsByType then none else unitAddName m unit with
    | some r => (m, some r)
    | none =>
      let m := if unit ∈ m.unitsByType then m else unitNew m unit what
      match whatProcSwaps with
      | some device =>
        ((chainProcSwaps m unit device).update unit
          (fromProcSwapsLine device priority noauto nofail handle setFlags), none)
      | none => (m.update unit (fromEtcFstabLine what priority noauto nofail handle), none)

structure DeviceLink where
  path : CString
  stale : Bool

structure UdevDevice where
  devnode : Option CString
  links : List DeviceLink

inductive Backing where
  | file
  | unknownDevice
  | device (d : UdevDevice)

structure SwapLine where
  device : CString
  priority : Int
  backing : Backing

def DeviceLink.followed (link : DeviceLink) : Bool :=
  !pathStartswith link.path.bytes (CString.ofString "/dev/block/").bytes && !link.stale

def UdevDevice.names (d : UdevDevice) : List CString :=
  d.devnode.toList ++ (d.links.filter DeviceLink.followed).map DeviceLink.path

def SwapLine.names (line : SwapLine) : List CString :=
  match line.backing with
  | .device d => d.names ++ [line.device]
  | .file | .unknownDevice => [line.device]

-- r keeps the last error.
def addName (line : SwapLine) (setFlags : Bool) (soFar : SwapManager × Option RegistryErrno)
    (what : CString) : SwapManager × Option RegistryErrno :=
  let (m, k) :=
    swapAddOne soFar.1 what (some line.device) line.priority false false false setFlags
  (m, k.or soFar.2)

def swapProcessNewSwap (m : SwapManager) (line : SwapLine) (setFlags : Bool) :
    SwapManager × Option RegistryErrno :=
  match line.backing with
  | .unknownDevice => (m, some .enomem)
  | .file | .device _ => line.names.foldl (addName line setFlags) (m, none)

def swapLoadProcSwaps (m : SwapManager) (lines : List SwapLine) (setFlags : Bool) :
    SwapManager × Option RegistryErrno :=
  lines.foldl
    (fun soFar line =>
      let (m, k) := swapProcessNewSwap soFar.1 line setFlags
      (m, k.or soFar.2))
    (m, none)

def swapSetState (m : SwapManager) (unit : CString) (state : SwapState) : SwapManager :=
  m.update unit fun s => { s with state }

def swapEnterDead (m : SwapManager) (unit : CString) (success : Bool) : SwapManager :=
  let m := m.update unit fun s => { s with failure := s.failure || !success }
  swapSetState m unit (if (m.swap unit).failure then .failed else .dead)

def swapEnterActive (m : SwapManager) (unit : CString) (success : Bool) : SwapManager :=
  swapSetState (m.update unit fun s => { s with failure := s.failure || !success }) unit .active

def resetFlags (m : SwapManager) (unit : CString) : SwapManager :=
  m.update unit fun s => { s with isActive := false, justActivated := false }

def followSwap (m : SwapManager) (unit : CString) : SwapManager :=
  let s := m.swap unit
  let m :=
    if s.isActive = false then
      -- This has just been deactivated.
      let m := swapUnsetProcSwaps (m.update unit fun s => { s with fromProcSwaps := false }) unit
      match s.state with
      | .active => swapEnterDead m unit true
      | state => swapSetState m unit state
    else if s.justActivated then
      match s.state with
      | .dead | .failed => swapEnterActive m unit true
      | state => swapSetState m unit state
    else
      m
  resetFlags m unit

structure PulledIn where
  unit : CString
  what : CString

def pullIn (m : SwapManager) (pulled : PulledIn) : SwapManager :=
  if pulled.unit ∈ m.unitsByType then m else unitNew m pulled.unit pulled.what

def managerDispatchLoadQueue (m : SwapManager) (pulled : List PulledIn) : SwapManager :=
  { pulled.foldl pullIn m with loadQueue := [] }

def swapFdEvent (pulled : List PulledIn) (m : SwapManager) (lines : List SwapLine) : SwapManager × Bool :=
  let (m, r) := swapLoadProcSwaps m lines true
  if r.isSome then
    (m.unitsByType.foldl resetFlags m, false)
  else
    let m := managerDispatchLoadQueue m pulled
    (m.unitsByType.foldl followSwap m, true)

-- A unit that has not been loaded yet is not asked to give up its kernel swap device.
def unitFree (m : SwapManager) (unit : CString) : SwapManager :=
  let m := if unit ∈ m.loadQueue then m else swapUnsetProcSwaps m unit
  { m with
    unitsByType := m.unitsByType.erase unit
    swap := Function.update m.swap unit swapInit
    loadQueue := m.loadQueue.erase unit }

inductive Event where
  | addOne (what : CString) (whatProcSwaps : Option CString) (priority : Int)
      (noauto nofail handle : Bool)
  | setState (unit : CString) (state : SwapState) (failure : Bool)
  | unitFree (unit : CString)
  | load (pulled : List PulledIn)
  | otherNames (count : Nat)
  | fdEvent (pulled : List PulledIn) (lines : List SwapLine)

def take : Event -> SwapManager -> Option SwapManager
  | .addOne what whatProcSwaps priority noauto nofail handle, m =>
    some (swapAddOne m what whatProcSwaps priority noauto nofail handle false).1
  | .setState unit state failure, m =>
    if unit ∈ m.unitsByType then
      some (swapSetState (m.update unit fun s => { s with failure }) unit state)
    else
      none
  | .unitFree unit, m => if unit ∈ m.unitsByType then some (unitFree m unit) else none
  | .load pulled, m => some (managerDispatchLoadQueue m pulled)
  | .otherNames count, m => some { m with otherNames := count }
  | .fdEvent pulled lines, m => some (swapFdEvent pulled m lines).1

abbrev Reachable : SwapManager -> Prop :=
  Steps.Reached .empty take fun _ _ => True

def denoted (lines : List SwapLine) : List CString :=
  lines.flatMap fun line => line.names.map unitOf

def Swap.Down (s : Swap) : Prop :=
  (s.state = .dead ∨ s.state = .failed) ∧ s.fromProcSwaps = false

structure Followed (pulled : List PulledIn) (m : SwapManager) (lines : List SwapLine) : Prop where
  activated : ∀ unit ∈ m.unitsByType, unit ∈ denoted lines -> (m.swap unit).Down ->
    ((swapFdEvent pulled m lines).1.swap unit).state = .active
  left : ∀ unit ∈ m.unitsByType, unit ∉ denoted lines -> (m.swap unit).state = .active ->
    ((swapFdEvent pulled m lines).1.swap unit).state ≠ .active
  repeated : ∀ later, ∀ unit ∈ (swapFdEvent pulled m lines).1.unitsByType,
    ((swapFdEvent later (swapFdEvent pulled m lines).1 lines).1.swap unit).state =
      ((swapFdEvent pulled m lines).1.swap unit).state

end Systemd.Swaps
