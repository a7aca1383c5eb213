import Systemd.Mounts.Listing
import Systemd.Mounts.ProcSwaps
import Systemd.Services.Reload

set_option autoImplicit false

namespace Systemd.Coldplug

open Serialization (ItemKey parsePid printNat yesNo)
open Services (parseBoolean)
open Mounts (MountState MountExecCommand MountLine MountManager)
open Swaps (SwapState SwapLine SwapManager PulledIn)

/-- What is different about the two types of units that follow a table of the kernel. `present` is the
state of a unit that is in the table. -/
structure TableType (S C : Type) where
  dead : S
  present : S
  apart : present ≠ dead
  controlled : S -> Bool
  uncontrolled : controlled present = false
  states : List S
  stateText : S -> String
  commands : List C
  commandText : C -> String

structure TableUnit (S C : Type) where
  state : S
  deserializedState : S
  failure : Bool
  controlPid : Int32
  controlCommandId : Option C
  fromTable : Bool

inductive ColdplugError where
  | badMessage
  | other
  deriving DecidableEq

def itemKeys : List ItemKey := [.state, .failure, .controlPid, .controlCommand]

def itemKey (key : CString) : Option ItemKey := itemKeys.find? fun name => name.text = key

namespace TableType

variable {S C : Type} (T : TableType S C)

def init : TableUnit S C where
  state := T.dead
  deserializedState := T.dead
  failure := false
  controlPid := 0
  controlCommandId := none
  fromTable := false

def stateFromString (text : CString) : Option S :=
  T.states.find? fun state => .ofString (T.stateText state) = text

def commandFromString (text : CString) : Option C :=
  T.commands.find? fun id => .ofString (T.commandText id) = text

def serialize (u : TableUnit S C) : List (ItemKey × CString) :=
  [(.state, .ofString (T.stateText u.state)), (.failure, .ofString (yesNo u.failure))] ++
    (if 0 < u.controlPid then [(.controlPid, printNat u.controlPid.toInt.toNat)] else []) ++
    (u.controlCommandId.map fun id => (.controlCommand, .ofString (T.commandText id))).toList

-- A value that does not parse, or a key that is not known, changes nothing.
def deserializeItem (key value : CString) (u : TableUnit S C) : TableUnit S C :=
  match itemKey key with
  | some .state =>
    ((T.stateFromString value).map fun state => { u with deserializedState := state }).getD u
  | some .failure => ((parseBoolean value).map fun b => { u with failure := b || u.failure }).getD u
  | some .controlPid => ((parsePid value).map fun pid => { u with controlPid := pid }).getD u
  | some .controlCommand =>
    ((T.commandFromString value).map fun id => { u with controlCommandId := some id }).getD u
  | _ => u

def setState (state : S) (u : TableUnit S C) : TableUnit S C :=
  let u := { u with state := state }
  if T.controlled state then u else { u with controlPid := 0, controlCommandId := none }

variable [DecidableEq S]

def coldplug (watched : Bool) (u : TableUnit S C) : TableUnit S C × Option ColdplugError :=
  let newState :=
    if u.deserializedState ≠ u.state then u.deserializedState
    else if u.fromTable then T.present
    else T.dead
  if newState = u.state then (u, none)
  else if T.controlled newState then
    if u.controlPid ≤ 0 then (u, some .badMessage)
    else if watched then (T.setState newState u, none)
    else (u, some .other)
  else (T.setState newState u, none)

end TableType

def mountType : TableType MountState MountExecCommand where
  dead := .dead
  present := .mounted
  apart := by decide
  controlled := MountState.controlled
  uncontrolled := rfl
  states :=
    [.dead, .mounting, .mountingDone, .mounted, .remounting, .unmounting, .mountingSigterm,
      .mountingSigkill, .remountingSigterm, .remountingSigkill, .unmountingSigterm, .unmountingSigkill,
      .failed]
  stateText := fun
    | .dead => "dead"
    | .mounting => "mounting"
    | .mountingDone => "mounting-done"
    | .mounted => "mounted"
    | .remounting => "remounting"
    | .unmounting => "unmounting"
    | .mountingSigterm => "mounting-sigterm"
    | .mountingSigkill => "mounting-sigkill"
    | .remountingSigterm => "remounting-sigterm"
    | .remountingSigkill => "remounting-sigkill"
    | .unmountingSigterm => "unmounting-sigterm"
    | .unmountingSigkill => "unmounting-sigkill"
    | .failed => "failed"
  commands := [.mount, .unmount, .remount]
  commandText := fun
    | .mount => "ExecMount"
    | .unmount => "ExecUnmount"
    | .remount => "ExecRemount"

inductive SwapExecCommand where
  | activate
  | deactivate
  deriving DecidableEq

def swapControlled : SwapState -> Bool
  | .activating | .activatingSigterm | .activatingSigkill | .deactivating | .deactivatingSigterm
  | .deactivatingSigkill => true
  | .dead | .active | .failed => false

def swapType : TableType SwapState SwapExecCommand where
  dead := .dead
  present := .active
  apart := by decide
  controlled := swapControlled
  uncontrolled := rfl
  states :=
    [.dead, .activating, .active, .deactivating, .activatingSigterm, .activatingSigkill,
      .deactivatingSigterm, .deactivatingSigkill, .failed]
  stateText := fun
    | .dead => "dead"
    | .activating => "activating"
    | .active => "active"
    | .deactivating => "deactivating"
    | .activatingSigterm => "activating-sigterm"
    | .activatingSigkill => "activating-sigkill"
    | .deactivatingSigterm => "deactivating-sigterm"
    | .deactivatingSigkill => "deactivating-sigkill"
    | .failed => "failed"
  commands := [.activate, .deactivate]
  commandText := fun
    | .activate => "ExecActivate"
    | .deactivate => "ExecDeactivate"

def mountSerialize := mountType.serialize

def mountDeserializeItem := mountType.deserializeItem

def mountColdplug := mountType.coldplug

def swapSerialize := swapType.serialize

def swapDeserializeItem := swapType.deserializeItem

def swapColdplug := swapType.coldplug

@[ext]
structure Units (S C : Type) where
  unitsByType : List CString
  unit : CString -> TableUnit S C
  -- The number of names of the units of other types.
  otherNames : Nat

-- The checks of unit_add_name() on the first name of a unit without instance, among `count` names.
def refused (name : CString) (count : Nat) : Bool :=
  unitNameIsTemplate name || !unitNameIsValid name false || unitNameToInstance name ≠ some none ||
    count ≥ managerMaxNames

namespace Units

variable {S C : Type} (T : TableType S C)

def managerLoadUnit (m : Units S C) (name : CString) : Units S C × Bool :=
  if name ∈ m.unitsByType then (m, true)
  else if refused name (m.unitsByType.length + m.otherNames) then (m, false)
  else
    ({ m with
        unitsByType := name :: m.unitsByType
        unit := Function.update m.unit name T.init }, true)

def update (m : Units S C) (name : CString) (change : TableUnit S C -> TableUnit S C) : Units S C :=
  { m with unit := Function.update m.unit name (change (m.unit name)) }

end Units

/-- What happens to the units of one type while others are loaded and the serialization is read. -/
inductive Step where
  -- Units of other types take more names.
  | otherNames (count : Nat)
  | pulledIn (name : CString)
  | record (name : CString) (items : List (ItemKey × CString))
  -- The record of a unit of another type cannot be read.
  | unreadable

section

variable {S C : Type} (T : TableType S C)

def managerDeserialize : List Step -> Units S C -> Units S C × Bool
  | [], m => (m, true)
  | .otherNames count :: rest, m =>
    managerDeserialize rest { m with otherNames := m.otherNames + count }
  | .pulledIn name :: rest, m => managerDeserialize rest (m.managerLoadUnit T name).1
  | .record name items :: rest, m =>
    match m.managerLoadUnit T name with
    | (m, false) => (m, false)
    | (m, true) =>
      managerDeserialize rest
        (m.update name fun u => items.foldl (fun u item => T.deserializeItem item.1.text item.2 u) u)
  | .unreadable :: _, m => (m, false)

variable [DecidableEq S]

-- The order does not matter: a unit is set up from its own fields.
def managerColdplug (watched : CString -> Bool) (m : Units S C) : Units S C :=
  { m with
    unit := fun name =>
      if name ∈ m.unitsByType then (T.coldplug (watched name) (m.unit name)).1 else m.unit name }

def startUp (enumerated : Units S C) (serialization : List Step) (watched : CString -> Bool) : Units S C :=
  managerColdplug T watched (managerDeserialize T serialization enumerated).1

end

/-- What the manager comes across before it reads the table: the names of other units, and units that
others pull in. -/
structure Early (A B : Type) where
  otherNames : Nat
  pulled : List A
  fstab : List B

-- mount_enumerate(), if /etc/fstab can be opened.
def mountEnumerate (early : Early CString MountLine) (table : List MountLine) :
    Units MountState MountExecCommand :=
  let m := early.pulled.foldl Mounts.pullIn { otherNames := early.otherNames : MountManager }
  let m := (early.fstab.foldl (Mounts.readLine false false) (m, none)).1
  let m := (Mounts.mountLoadProcSelfMountinfo m table false).1
  { unitsByType := m.unitsByType
    unit := fun name => { mountType.init with fromTable := (m.mount name).fromProcSelfMountinfo }
    otherNames := m.otherNames }

structure FstabSwap where
  what : CString
  priority : Int
  noauto : Bool
  nofail : Bool
  handle : Bool

def addFstabSwap (m : SwapManager) (line : FstabSwap) : SwapManager :=
  (Swaps.swapAddOne m line.what none line.priority line.noauto line.nofail line.handle false).1

def swapEnumerate (early : Early PulledIn FstabSwap) (table : List SwapLine) :
    Units SwapState SwapExecCommand :=
  let m := early.pulled.foldl Swaps.pullIn { SwapManager.empty with otherNames := early.otherNames }
  let m := early.fstab.foldl addFstabSwap m
  let m := (Swaps.swapLoadProcSwaps m table false).1
  { unitsByType := m.unitsByType
    unit := fun name => { swapType.init with fromTable := (m.swap name).fromProcSwaps }
    otherNames := m.otherNames }

end Systemd.Coldplug
