import Systemd.Units.Path
import Systemd.Units.Relink

set_option autoImplicit false

namespace Systemd

open Option Function

inductive UnitType where
  | service
  | socket
  | target
  | device
  | mount
  | automount
  | snapshot
  | timer
  | swap
  | path
  deriving DecidableEq

namespace UnitType

def all : List UnitType :=
  [.service, .socket, .target, .device, .mount, .automount, .snapshot, .timer, .swap, .path]

def suffix : UnitType -> CString
  | .service => .ofString ".service"
  | .socket => .ofString ".socket"
  | .target => .ofString ".target"
  | .device => .ofString ".device"
  | .mount => .ofString ".mount"
  | .automount => .ofString ".automount"
  | .snapshot => .ofString ".snapshot"
  | .timer => .ofString ".timer"
  | .swap => .ofString ".swap"
  | .path => .ofString ".path"

def noAlias : UnitType -> Bool
  | .mount | .automount | .snapshot | .swap => true
  | _ => false

def noInstances : UnitType -> Bool
  | .device | .mount | .automount | .snapshot | .swap => true
  | _ => false

end UnitType

def unitNameMax : Nat := 256

def managerMaxNames : Nat := 131072

def endswith (name suffix : List UInt8) : Bool :=
  suffix.isSuffixOf name

def unitNameToType (name : CString) : Option UnitType :=
  UnitType.all.find? fun t => endswith name.bytes t.suffix.bytes

def unitNameIsValidNoType (name : CString) (templateOk : Bool) : Bool :=
  if name.bytes.length ≥ unitNameMax then
    false
  else
    match strrchr name.bytes '.'.toUInt8 with
    | none => false
    | some e =>
      if e = 0 then
        false
      else if (name.bytes.take e).all (fun byte => byte ∈ '@'.toUInt8 :: validChars) then
        match strchr (name.bytes.take e) '@'.toUInt8 with
        | some position => position ≠ 0 && (templateOk || position + 1 ≠ e)
        | none => true
      else
        false

def unitNameIsValid (name : CString) (templateOk : Bool) : Bool :=
  match unitNameToType name with
  | none => false
  | some _ => unitNameIsValidNoType name templateOk

def unitNameIsTemplate (name : CString) : Bool :=
  match strchr name.bytes '@'.toUInt8 with
  | none => false
  | some position => (name.bytes.drop (position + 1)).head? = some '.'.toUInt8

-- The callers have found the name to be a template, so both searches succeed.
def unitNameReplaceInstance (name part : CString) : Option CString :=
  match strchr name.bytes '@'.toUInt8, strrchr name.bytes '.'.toUInt8 with
  | some position, some e =>
    some (.ofBuffer (name.bytes.take (position + 1) ++ part.bytes ++ name.bytes.drop e))
  | _, _ => none

-- none stands for a failing assertion, some none for a name without an instance part.
def unitNameToInstance (name : CString) : Option (Option CString) :=
  match strchr name.bytes '@'.toUInt8 with
  | none => some none
  | some position =>
    match strrchr name.bytes '.'.toUInt8 with
    | none => none
    | some e =>
      if position < e then
        some (some (.ofBuffer ((name.bytes.drop (position + 1)).take (e - position - 1))))
      else
        none

/-- The unit table: one entry for each name, in the order in which the names were put. -/
abbrev NameTable (U : Type) := List (CString × U)

namespace NameTable

variable {U : Type}

def get (table : NameTable U) (name : CString) : Option U :=
  (table.find? fun entry => entry.1 = name).map Prod.snd

-- hashmap_replace returns 0 if it found the key; none stands for the failing assertion on that.
def replace (table : NameTable U) (name : CString) (u : U) : Option (NameTable U) :=
  if (table.get name).isSome then
    some (table.map fun entry => if entry.1 = name then (name, u) else entry)
  else
    none

def removeValue [DecidableEq U] (table : NameTable U) (name : CString) (u : U) : NameTable U :=
  if table.get name = some u then table.filter fun entry => entry.1 ≠ name else table

end NameTable

structure Registry (U : Type) where
  alive : U -> Bool
  type : U -> Option UnitType
  id : U -> Option CString
  instancePart : U -> Option CString
  names : U -> Option (OrderedSet CString)
  loadState : U -> UnitLoadState
  mergedInto : U -> Option U
  hasJob : U -> Bool
  activeState : U -> UnitActiveState
  dependencies : Links U
  units : NameTable U

inductive RegistryErrno where
  | einval
  | eexist
  | enoent
  | e2big
  | enomem
  deriving DecidableEq

inductive NameAllocation where
  | copy
  | instanceCopy
  | nameEntry
  | tableEntry
  deriving DecidableEq

namespace Registry

variable {U : Type} [DecidableEq U]

def empty : Registry U where
  alive := fun _ => false
  type := fun _ => none
  id := fun _ => none
  instancePart := fun _ => none
  names := fun _ => none
  loadState := fun _ => .stub
  mergedInto := fun _ => none
  hasJob := fun _ => false
  activeState := fun _ => .inactive
  dependencies := fun _ _ => none
  units := []

def unitNew (m : Registry U) (u : U) : Option (Registry U) :=
  if m.alive u then
    none
  else
    some
      { m with
        alive := update m.alive u true
        type := update m.type u none
        id := update m.id u none
        instancePart := update m.instancePart u none
        names := update m.names u (some .empty)
        loadState := update m.loadState u .stub
        mergedInto := update m.mergedInto u none
        hasJob := update m.hasJob u false
        activeState := update m.activeState u .inactive
        dependencies := update m.dependencies u fun _ => none }

-- A template name is completed with the instance of the unit.
def completeName (m : Registry U) (u : U) (text : CString) :
    Option (Except RegistryErrno CString) :=
  if unitNameIsTemplate text then
    match m.instancePart u with
    | none => some (.error .einval)
    | some part => (unitNameReplaceInstance text part).map .ok
  else
    some (.ok text)

-- The checks of unit_add_name; the result is the type and the instance part of the name.
def checkName (allocates : NameAllocation -> Bool) (m : Registry U) (u : U) (name : CString) :
    Option (Except RegistryErrno (UnitType × Option CString)) :=
  if unitNameIsValid name false = false then
    some (.error .einval)
  else
    match unitNameToType name, unitNameToInstance name with
    | some t, some part =>
      if m.type u ≠ none ∧ some t ≠ m.type u then
        some (.error .einval)
      else if part.isSome ∧ allocates .instanceCopy = false then
        some (.error .enomem)
      else if part.isSome ∧ t.noInstances then
        some (.error .einval)
      else if m.type u ≠ none ∧ (m.instancePart u).isSome ≠ part.isSome then
        some (.error .einval)
      else if t.noAlias ∧ (∃ set, m.names u = some set ∧ set.members ≠ [] ∧ name ∉ set) then
        some (.error .eexist)
      else if m.units.length ≥ managerMaxNames then
        some (.error .e2big)
      else
        some (.ok (t, part))
    | _, _ => none

-- The name is known to be new to the unit, and is put into the table.
def enterName (allocates : NameAllocation -> Bool) (m : Registry U) (u : U) (name : CString)
    (set : OrderedSet CString) : Except RegistryErrno (Registry U) :=
  match m.units.get name with
  | some other =>
    if other = u then
      .ok { m with names := update m.names u (some (set.put name)) }
    else
      .error .eexist
  | none =>
    if allocates .tableEntry then
      .ok
        { m with
          names := update m.names u (some (set.put name))
          units := m.units ++ [(name, u)] }
    else
      .error .enomem

def adoptName (m : Registry U) (u : U) (name : CString) (t : UnitType) (part : Option CString) :
    Registry U :=
  if m.type u = none then
    { m with
      type := update m.type u (some t)
      id := update m.id u (some name)
      instancePart := update m.instancePart u part }
  else
    m

def unitAddName (allocates : NameAllocation -> Bool) (m : Registry U) (u : U) (text : CString) :
    Option (Registry U × Except RegistryErrno Unit) :=
  if m.alive u = false then
    none
  else
    (completeName m u text).bind fun completed =>
      match completed with
      | .error e => some (m, .error e)
      | .ok name =>
        if allocates .copy = false then
          some (m, .error .enomem)
        else
          (checkName allocates m u name).bind fun checked =>
            match checked with
            | .error e => some (m, .error e)
            | .ok (t, part) =>
              match m.names u with
              | none => none
              | some set =>
                if name ∈ set then
                  some (m, .ok ())
                else if allocates .nameEntry = false then
                  some (m, .error .enomem)
                else
                  match enterName allocates m u name set with
                  | .error e => some (m, .error e)
                  | .ok m => some (adoptName m u name t part, .ok ())

def unitChooseId (allocates : NameAllocation -> Bool) (m : Registry U) (u : U) (text : CString) :
    Option (Registry U × Except RegistryErrno Unit) :=
  if m.alive u = false then
    none
  else
    (completeName m u text).bind fun completed =>
      match completed with
      | .error e => some (m, .error e)
      | .ok name =>
        if unitNameIsTemplate text ∧ allocates .copy = false then
          some (m, .error .enomem)
        else if ∃ set, m.names u = some set ∧ name ∈ set then
          (unitNameToInstance name).map fun part =>
            if part.isSome ∧ allocates .instanceCopy = false then
              (m, .error .enomem)
            else
              ({ m with
                  id := update m.id u (some name)
                  instancePart := update m.instancePart u part }, .ok ())
        else
          some (m, .error .enoent)

-- none stands for a chain longer than the fuel, a missing target or a freed unit.
def unitFollowMerge (m : Registry U) : Nat -> U -> Option U
  | 0, _ => none
  | fuel + 1, u =>
    if m.alive u = false then
      none
    else if m.loadState u = .merged then
      (m.mergedInto u).bind (unitFollowMerge m fuel)
    else
      some u

def unitAddDependency (allocates : AddAllocation -> Bool) (fuel : Nat) (m : Registry U) (u : U)
    (d : UnitDependency) (other : U) (addReference : Bool) :
    Option (Registry U × Except RegistryErrno Unit) :=
  (unitFollowMerge m fuel u).bind fun u =>
    (unitFollowMerge m fuel other).bind fun other =>
      if u = other then
        some (m, .ok ())
      else
        match m.dependencies.addDependency allocates u d other addReference with
        | .ok links => some ({ m with dependencies := links }, .ok ())
        | .error links => some ({ m with dependencies := links }, .error .enomem)

def setMembers {V : Type} : Option (OrderedSet V) -> List V
  | none => []
  | some set => set.members

def mergeNames (m : Registry U) (u other : U) : Option (Registry U) :=
  let names := OrderedSet.completeMove (m.names u) (m.names other)
  ((setMembers names).foldlM (fun table name => NameTable.replace table name u) m.units).map
    fun units =>
      { m with
        names := update (update m.names u names) other none
        id := update m.id other none
        units := units }

def unitIsInactiveOrFailed : UnitActiveState -> Bool
  | .inactive | .failed => true
  | _ => false

def canMergeAway (m : Registry U) (other : U) : Bool :=
  (m.loadState other = .stub || m.loadState other = .error) && !m.hasJob other &&
    unitIsInactiveOrFailed (m.activeState other)

-- The done() hook of the unit type releases nothing that the registry keeps.
def mergeUnits (fuel : Nat) (m : Registry U) (u other : U) : Option (Registry U) :=
  (mergeNames m u other).bind fun m =>
    (m.dependencies.mergeAllDependencies m.alive fuel u other).map fun links =>
      { m with
        dependencies := links
        loadState := update m.loadState other .merged
        mergedInto := update m.mergedInto other (some u) }

def unitMerge (fuel : Nat) (m : Registry U) (u other : U) :
    Option (Registry U × Except RegistryErrno Unit) :=
  if m.alive u = false ∨ m.type u = none then
    none
  else
    (unitFollowMerge m fuel other).bind fun other =>
      if other = u then
        some (m, .ok ())
      else if m.type u ≠ m.type other then
        some (m, .error .einval)
      else if (m.instancePart u).isSome ≠ (m.instancePart other).isSome then
        some (m, .error .einval)
      else if canMergeAway m other = false then
        some (m, .error .eexist)
      else
        (mergeUnits fuel m u other).map fun m => (m, .ok ())

def unitFree (fuel : Nat) (m : Registry U) (u : U) : Option (Registry U) :=
  if m.alive u = false then
    none
  else
    let units := (setMembers (m.names u)).foldl (fun table name => NameTable.removeValue table name u)
      m.units
    (m.dependencies.freeAllDependencies m.alive fuel u).map fun links =>
      { m with
        alive := update m.alive u false
        type := update m.type u none
        id := update m.id u none
        names := update m.names u none
        dependencies := links
        units := units }

-- What the rest of the manager does to a unit: loading it, running jobs and changing its state.
def unitProgress (m : Registry U) (u : U) (loadState : UnitLoadState) (hasJob : Bool)
    (activeState : UnitActiveState) : Option (Registry U) :=
  if m.alive u = false ∨ m.loadState u = .merged ∨ loadState = .merged then
    none
  else
    some
      { m with
        loadState := update m.loadState u loadState
        hasJob := update m.hasJob u hasJob
        activeState := update m.activeState u activeState }

end Registry

inductive Call (U : Type) where
  | new (u : U)
  | addName (allocates : NameAllocation -> Bool) (u : U) (name : CString)
  | chooseId (allocates : NameAllocation -> Bool) (u : U) (name : CString)
  | addDependency (allocates : AddAllocation -> Bool) (u : U) (d : UnitDependency) (other : U)
      (addReference : Bool)
  | merge (u other : U)
  | free (u : U)
  | progress (u : U) (loadState : UnitLoadState) (hasJob : Bool) (activeState : UnitActiveState)

namespace Registry

variable {U : Type} [DecidableEq U]

-- none stands for a call that never returns, aborts, or touches memory that was freed.
def exec (fuel : Nat) (m : Registry U) : Call U -> Option (Registry U)
  | .new u => unitNew m u
  | .addName allocates u name => (unitAddName allocates m u name).map Prod.fst
  | .chooseId allocates u name => (unitChooseId allocates m u name).map Prod.fst
  | .addDependency allocates u d other addReference =>
    (unitAddDependency allocates fuel m u d other addReference).map Prod.fst
  | .merge u other => (unitMerge fuel m u other).map Prod.fst
  | .free u => unitFree fuel m u
  | .progress u loadState hasJob activeState => unitProgress m u loadState hasJob activeState

/-- The states some sequence of calls leads to from an empty manager, with a condition on each
call in the state it is made in. -/
inductive ReachableBy (allowed : Nat -> Registry U -> Call U -> Prop) : Registry U -> Prop where
  | start : ReachableBy allowed empty
  | call {m m' : Registry U} (reached : ReachableBy allowed m) (call : Call U) (fuel : Nat)
      (permitted : allowed fuel m call) (run : exec fuel m call = some m') : ReachableBy allowed m'

section

variable {allowed : Nat -> Registry U -> Call U -> Prop}
  [∀ fuel m call, Decidable (allowed fuel m call)]

def execAllowed (allowed : Nat -> Registry U -> Call U -> Prop)
    [∀ fuel m call, Decidable (allowed fuel m call)] (fuel : Nat) (m : Registry U) :
    List (Call U) -> Option (Registry U)
  | [] => some m
  | call :: rest =>
    if allowed fuel m call then
      (exec fuel m call).bind fun m => execAllowed allowed fuel m rest
    else
      none

variable {calls : List (Call U)}

theorem reachable_of_execAllowed {fuel : Nat} {m m' : Registry U} (reached : ReachableBy allowed m)
    (run : execAllowed allowed fuel m calls = some m') : ReachableBy allowed m' := by
  induction calls generalizing m with
  | nil =>
    simp only [execAllowed, some.injEq] at run
    exact run ▸ reached
  | cons call rest ih =>
    rw [execAllowed] at run
    split_ifs at run with permitted
    obtain ⟨middle, first, later⟩ := bind_eq_some_iff.mp run
    exact ih (.call reached call fuel permitted first) later

theorem reachable_of_check {fuel : Nat} {check : Registry U -> Bool}
    (run : (execAllowed allowed fuel empty calls).map check = some true) :
    ∃ m, ReachableBy allowed m ∧ check m = true := by
  obtain ⟨m, result, passed⟩ := map_eq_some_iff.mp run
  exact ⟨m, reachable_of_execAllowed .start result, passed⟩

end

section

variable {m m' : Registry U} {u : U}

omit [DecidableEq U] in
theorem unitFollowMerge_spec {fuel : Nat} {target : U} (run : unitFollowMerge m fuel u = some target) :
    m.alive target = true ∧ m.loadState target ≠ .merged := by
  induction fuel generalizing u with
  | zero => simp [unitFollowMerge] at run
  | succ fuel ih =>
    rw [unitFollowMerge] at run
    split_ifs at run with dead merged
    · obtain ⟨next, -, rest⟩ := bind_eq_some_iff.mp run
      exact ih rest
    · cases run
      exact ⟨by simpa using dead, merged⟩

structure NamesOnly (m m' : Registry U) : Prop where
  alive : m'.alive = m.alive
  loadState : m'.loadState = m.loadState
  mergedInto : m'.mergedInto = m.mergedInto
  dependencies : m'.dependencies = m.dependencies

omit [DecidableEq U] in
theorem NamesOnly.refl (m : Registry U) : NamesOnly m m := ⟨rfl, rfl, rfl, rfl⟩

theorem enterName_namesOnly {allocates : NameAllocation -> Bool} {name : CString}
    {set : OrderedSet CString} (run : enterName allocates m u name set = .ok m') : NamesOnly m m' := by
  unfold enterName at run
  split at run
  · split_ifs at run
    cases run
    exact ⟨rfl, rfl, rfl, rfl⟩
  · split_ifs at run
    cases run
    exact ⟨rfl, rfl, rfl, rfl⟩

theorem adoptName_namesOnly (m : Registry U) (u : U) (name : CString) (t : UnitType)
    (part : Option CString) : NamesOnly m (adoptName m u name t part) := by
  unfold adoptName
  split_ifs <;> exact ⟨rfl, rfl, rfl, rfl⟩

end

variable {m m' : Registry U} {text : CString} {allocates : NameAllocation -> Bool} {u other : U}
  {result : Except RegistryErrno Unit} {fuel : Nat}

section

variable (run : unitAddName allocates m u text = some (m', result))
include run

theorem unitAddName_outcome :
    (∃ e, result = .error e ∧ m' = m) ∨
      (result = .ok () ∧ m.alive u = true ∧ ∃ name t part set,
        completeName m u text = some (.ok name) ∧
        checkName allocates m u name = some (.ok (t, part)) ∧ m.names u = some set ∧
        (name ∈ set ∧ m' = m ∨ name ∉ set ∧ ∃ entered,
          enterName allocates m u name set = .ok entered ∧ m' = adoptName entered u name t part)) := by
  by_cases dead : m.alive u = false
  · rw [unitAddName, if_pos dead] at run
    cases run
  rw [unitAddName, if_neg dead] at run
  obtain ⟨completed, complete, run⟩ := bind_eq_some_iff.mp run
  cases completed with
  | error e =>
    cases run
    exact .inl ⟨e, rfl, rfl⟩
  | ok name =>
    simp only at run
    by_cases memory : allocates .copy = false
    · rw [if_pos memory] at run
      cases run
      exact .inl ⟨_, rfl, rfl⟩
    rw [if_neg memory] at run
    obtain ⟨checked, check, run⟩ := bind_eq_some_iff.mp run
    cases checked with
    | error e =>
      cases run
      exact .inl ⟨e, rfl, rfl⟩
    | ok found =>
      obtain ⟨t, part⟩ := found
      cases names : m.names u with
      | none => simp [names] at run
      | some set =>
        simp only [names] at run
        split_ifs at run with known memory'
        · cases run
          exact .inr ⟨rfl, by simpa using dead, name, t, part, set, complete, check, rfl,
            .inl ⟨known, rfl⟩⟩
        · cases run
          exact .inl ⟨_, rfl, rfl⟩
        · cases enter : enterName allocates m u name set with
          | error e =>
            rw [enter] at run
            cases run
            exact .inl ⟨e, rfl, rfl⟩
          | ok entered =>
            rw [enter] at run
            cases run
            exact .inr ⟨rfl, by simpa using dead, name, t, part, set, complete, check, rfl,
              .inr ⟨known, entered, enter, rfl⟩⟩

theorem unitAddName_cases :
    m' = m ∨ ∃ name t part set entered, completeName m u text = some (.ok name) ∧
      checkName allocates m u name = some (.ok (t, part)) ∧ m.names u = some set ∧ name ∉ set ∧
      enterName allocates m u name set = .ok entered ∧ m' = adoptName entered u name t part ∧
      m.alive u = true := by
  rcases unitAddName_outcome run with ⟨e, -, same⟩ |
    ⟨-, alive, name, t, part, set, complete, check, names, ⟨-, same⟩ | ⟨new, entered, enter, rfl⟩⟩
  · exact .inl same
  · exact .inl same
  · exact .inr ⟨name, t, part, set, entered, complete, check, names, new, enter, rfl, alive⟩

theorem unitAddName_namesOnly : NamesOnly m m' := by
  rcases unitAddName_cases run with rfl | ⟨name, t, part, set, entered, -, -, -, -, enter, rfl, -⟩
  · exact .refl _
  · have first := enterName_namesOnly enter
    have second := adoptName_namesOnly entered u name t part
    exact ⟨second.alive.trans first.alive, second.loadState.trans first.loadState,
      second.mergedInto.trans first.mergedInto, second.dependencies.trans first.dependencies⟩

end

theorem unitChooseId_cases (run : unitChooseId allocates m u text = some (m', result)) :
    m' = m ∨ ∃ name part set, m.names u = some set ∧ name ∈ set ∧
      unitNameToInstance name = some part ∧
      m' = { m with
        id := update m.id u (some name)
        instancePart := update m.instancePart u part } := by
  by_cases dead : m.alive u = false
  · rw [unitChooseId, if_pos dead] at run
    cases run
  rw [unitChooseId, if_neg dead] at run
  obtain ⟨completed, complete, run⟩ := bind_eq_some_iff.mp run
  cases completed with
  | error e =>
    cases run
    exact .inl rfl
  | ok name =>
    simp only at run
    by_cases memory : unitNameIsTemplate text ∧ allocates .copy = false
    · rw [if_pos memory] at run
      cases run
      exact .inl rfl
    rw [if_neg memory] at run
    by_cases known : ∃ set, m.names u = some set ∧ name ∈ set
    · rw [if_pos known] at run
      obtain ⟨part, instanceOf, run⟩ := map_eq_some_iff.mp run
      obtain ⟨set, names, mem⟩ := known
      split_ifs at run
      · cases run
        exact .inl rfl
      · cases run
        exact .inr ⟨name, part, set, names, mem, instanceOf, rfl⟩
    · rw [if_neg known] at run
      cases run
      exact .inl rfl

theorem unitChooseId_namesOnly (run : unitChooseId allocates m u text = some (m', result)) :
    NamesOnly m m' := by
  rcases unitChooseId_cases run with rfl | ⟨name, part, set, -, -, -, rfl⟩
  · exact .refl _
  · exact ⟨rfl, rfl, rfl, rfl⟩

theorem unitAddDependency_links {allocates : AddAllocation -> Bool} {d : UnitDependency}
    {addReference : Bool}
    (run : unitAddDependency allocates fuel m u d other addReference = some (m', result)) :
    ∃ links, m' = { m with dependencies := links } := by
  obtain ⟨source, -, run⟩ := bind_eq_some_iff.mp run
  obtain ⟨target, -, run⟩ := bind_eq_some_iff.mp run
  by_cases same : source = target
  · rw [if_pos same] at run
    cases run
    exact ⟨m.dependencies, rfl⟩
  rw [if_neg same] at run
  cases outcome : m.dependencies.addDependency allocates source d target addReference with
  | ok links =>
    rw [outcome] at run
    cases run
    exact ⟨links, rfl⟩
  | error links =>
    rw [outcome] at run
    cases run
    exact ⟨links, rfl⟩

def mergeTarget (fuel : Nat) (m : Registry U) (u other : U) : Option U :=
  (unitFollowMerge m fuel other).bind fun other =>
    if other ≠ u ∧ m.type u = m.type other ∧
        (m.instancePart u).isSome = (m.instancePart other).isSome ∧ canMergeAway m other = true then
      some other
    else
      none

theorem unitMerge_cases (run : unitMerge fuel m u other = some (m', result)) :
    (m' = m ∧ mergeTarget fuel m u other = none) ∨ ∃ target,
      mergeTarget fuel m u other = some target ∧ m.alive u = true ∧ m.type u ≠ none ∧
      mergeUnits fuel m u target = some m' := by
  unfold unitMerge at run
  split_ifs at run with impossible
  obtain ⟨target, follow, run⟩ := bind_eq_some_iff.mp run
  simp only [not_or, Bool.not_eq_false] at impossible
  split_ifs at run with same types parts busy
  · cases run
    exact .inl ⟨rfl, by simp [mergeTarget, follow, same]⟩
  · cases run
    exact .inl ⟨rfl, by simp [mergeTarget, follow, types]⟩
  · cases run
    exact .inl ⟨rfl, by simp [mergeTarget, follow, parts]⟩
  · cases run
    exact .inl ⟨rfl, by simp [mergeTarget, follow, busy]⟩
  · obtain ⟨merged, units, run⟩ := map_eq_some_iff.mp run
    cases run
    refine .inr ⟨target, ?_, impossible.1, impossible.2, units⟩
    simp only [mergeTarget, follow, bind_some]
    rw [if_pos]
    exact ⟨same, not_not.mp types, not_not.mp parts, by simpa using busy⟩

theorem mergeTarget_spec {target : U} (run : mergeTarget fuel m u other = some target) :
    target ≠ u ∧ m.alive target = true ∧ m.loadState target ≠ .merged ∧
      m.type u = m.type target ∧ (m.instancePart u).isSome = (m.instancePart target).isSome := by
  obtain ⟨found, follow, checks⟩ := bind_eq_some_iff.mp run
  simp only [ite_none_right_eq_some, some.injEq] at checks
  obtain ⟨⟨distinct, types, parts, -⟩, rfl⟩ := checks
  obtain ⟨alive, live⟩ := unitFollowMerge_spec follow
  exact ⟨distinct, alive, live, types, parts⟩

theorem mergeUnits_cases (run : mergeUnits fuel m u other = some m') :
    ∃ renamed links, mergeNames m u other = some renamed ∧
      m.dependencies.mergeAllDependencies m.alive fuel u other = some links ∧
      m' = { renamed with
        dependencies := links
        loadState := update m.loadState other .merged
        mergedInto := update m.mergedInto other (some u) } := by
  obtain ⟨renamed, names, run⟩ := bind_eq_some_iff.mp run
  obtain ⟨links, merge, rfl⟩ := map_eq_some_iff.mp run
  obtain ⟨units, table, rfl⟩ := map_eq_some_iff.mp names
  exact ⟨_, links, names, merge, rfl⟩

theorem mergeUnits_dependencies (run : mergeUnits fuel m u other = some m') :
    m.dependencies.mergeAllDependencies m.alive fuel u other = some m'.dependencies ∧
      m'.alive = m.alive ∧ m'.loadState = update m.loadState other .merged := by
  obtain ⟨renamed, links, names, merge, rfl⟩ := mergeUnits_cases run
  obtain ⟨units, table, rfl⟩ := map_eq_some_iff.mp names
  exact ⟨merge, rfl, rfl⟩

end Registry

end Systemd
