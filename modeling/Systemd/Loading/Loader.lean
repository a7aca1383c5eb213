import Systemd.Config.ConfFiles
import Systemd.Shared.Program
import Systemd.Units.ControlGroup

set_option autoImplicit false

namespace Systemd.Loading

open Function

inductive LoadErrno where
  | registry (e : RegistryErrno)
  | eloop
  -- What else the system may say.
  | system (code : Nat)
  deriving DecidableEq

def enoent : LoadErrno := .registry .enoent

def einval : LoadErrno := .registry .einval

/-- What a line of a unit file or an init script, or the type of a unit, does to the names of units. -/
inductive Directive where
  | names (words : List CString)
  | provides (name : CString)
  | dependencies (d : UnitDependency) (words : List CString)
  | unit (name : CString)
  -- The unit cannot be loaded without it.
  | needs (d : UnitDependency) (name : CString)

/-- A unit file or an init script. The specifiers in its names are replaced as the id says. -/
structure Contents where
  nullOrEmpty : Bool
  directives : Option CString -> List Directive
  result : Except LoadErrno Unit

inductive Entry where
  | file (contents : Contents)
  | link (target : CString)
  | fails (e : LoadErrno)

structure Loader (U : Type) where
  registry : Registry U
  loadQueue : List U
  fragmentPath : U -> Option CString

def Loader.empty {U : Type} : Loader U where
  registry := .empty
  loadQueue := []
  fragmentPath := fun _ => none

/-- The file system, the paths that are searched, and what the types of units do to a unit that was
found. A unit is allocated at the address. The fuel bounds the loops of a call. -/
structure Host (U : Type) where
  unitPath : List CString
  sysvinitPath : List CString
  unitPathCache : Option (CString -> Bool)
  openNoFollow : CString -> Entry
  openDirectory : CString -> Except LoadErrno (List CString)
  openScript : CString -> Except LoadErrno Contents
  extras : Loader U -> U -> List Directive × Except LoadErrno Unit
  reloading : Bool
  address : Loader U -> U
  fuel : Nat

abbrev Load (U A : Type) := Program (Loader U) LoadErrno A

def isPath (p : CString) : Bool := decide ('/'.toUInt8 ∈ p.bytes)

def fileName (p : CString) : CString := .ofBuffer (ConfFiles.fileNameFromPath p.bytes)

def killSlashes (p : CString) : CString := .ofBuffer (pathKillSlashes p.bytes)

def join (dir name : CString) : CString := (dir.append slashString).append name

def fileInSameDir (path filename : CString) : CString :=
  if pathIsAbsolute filename.bytes then
    filename
  else
    match strrchr path.bytes '/'.toUInt8 with
    | none => filename
    | some e => .ofBuffer (path.bytes.take (e + 1) ++ filename.bytes)

def unitNameToPrefix (name : CString) : CString :=
  match strchr name.bytes '@'.toUInt8 with
  | some position => .ofBuffer (name.bytes.take position)
  | none =>
    match strrchr name.bytes '.'.toUInt8 with
    | some e => .ofBuffer (name.bytes.take e)
    | none => name

structure Found where
  contents : Contents
  filename : CString
  names : OrderedSet CString
  id : Option CString

def followMax : Nat := 8

section

variable {U : Type}

-- The number counts down from FOLLOW_MAX.
def openFollow (h : Host U) : Nat -> CString -> OrderedSet CString -> Option CString ->
    Except LoadErrno Found
  | 0, _, _, _ => .error .eloop
  | c + 1, filename, names, id =>
    let filename := killSlashes filename
    let name := fileName filename
    let valid := unitNameIsValid name true
    let names := if valid then names.put name else names
    let id := if valid then some name else id
    match h.openNoFollow filename with
    | .file contents => .ok ⟨contents, filename, names, id⟩
    | .fails e => .error e
    | .link target => openFollow h c (fileInSameDir filename target) names id

def cached (h : Host U) (path : CString) : Bool :=
  match h.unitPathCache with
  | none => true
  | some cache => cache path

-- The names that were collected in one directory are dropped before the next one is searched.
def searchPath (h : Host U) (path : CString) : List CString -> Except LoadErrno (Option Found)
  | [] => .ok none
  | dir :: rest =>
    let filename := join dir path
    let r := if cached h filename then openFollow h followMax filename .empty none else .error enoent
    match r with
    | .ok found => .ok (some found)
    | .error e => if e = enoent then searchPath h path rest else .error e

def findFile (h : Host U) (path : CString) : Except LoadErrno (Option Found) :=
  if pathIsAbsolute path.bytes then
    match openFollow h followMax path .empty none with
    | .ok found => .ok (some found)
    | .error e => if e = enoent then .ok none else .error e
  else
    searchPath h path h.unitPath

end

section

variable {U : Type} [DecidableEq U]

open Program

def registryCall (call : Registry U -> Option (Registry U × Except RegistryErrno Unit)) : Load U Unit :=
  fun l => (call l.registry).map fun ended =>
    (ended.2.mapError .registry, { l with registry := ended.1 })

-- There is enough memory.
def unitAddName (u : U) (text : CString) : Load U Unit :=
  registryCall fun m => m.unitAddName (fun _ => true) u text

def unitChooseId (u : U) (text : CString) : Load U Unit :=
  registryCall fun m => m.unitChooseId (fun _ => true) u text

def unitMerge (h : Host U) (u other : U) : Load U Unit :=
  registryCall fun m => m.unitMerge h.fuel u other

def unitAddDependency (h : Host U) (u : U) (d : UnitDependency) (other : U) : Load U Unit :=
  registryCall fun m => m.unitAddDependency (fun _ => true) h.fuel u d other true

def unitFollowMerge (h : Host U) (u : U) : Load U U :=
  fun l => (l.registry.unitFollowMerge h.fuel u).map fun target => (.ok target, l)

def setLoadState (u : U) (loadState : UnitLoadState) : Load U Unit :=
  change fun l =>
    { l with
      registry := { l.registry with
        loadState := update l.registry.loadState u loadState } }

def setFragmentPath (u : U) (path : Option CString) : Load U Unit :=
  change fun l => { l with fragmentPath := update l.fragmentPath u path }

-- A failing assertion cuts the program off.
def orAbort {A : Type} : Option A -> Load U A
  | some a => pure a
  | none => abort

def unitNew (h : Host U) : Load U U :=
  fun l => (l.registry.unitNew (h.address l)).map fun m =>
    (.ok (h.address l),
      { l with registry := m, fragmentPath := update l.fragmentPath (h.address l) none })

def unitFree (h : Host U) (u : U) : Load U Unit :=
  fun l => (l.registry.unitFree h.fuel u).map fun m =>
    (.ok (), { l with registry := m, loadQueue := l.loadQueue.filter (· ≠ u) })

def unitAddToLoadQueue (u : U) : Load U Unit :=
  change fun l => { l with loadQueue := u :: l.loadQueue }

def unitMergeByName (h : Host U) (u : U) (text : CString) : Load U Unit := do
  let l ← read
  match ← orAbort (l.registry.completeName u text) with
  | .error e => fail (.registry e)
  | .ok name =>
    match l.registry.units.get name with
    | none => unitAddName u name
    | some other => unitMerge h u other

-- The flag tells whether the unit was known before.
def managerLoadUnitPrepare (h : Host U) (name path : Option CString) : Load U (U × Bool) := do
  if path.any (!isPath ·) then
    fail einval
  else
    let name ← orAbort (name.or (path.map fileName))
    if unitNameIsValid name false = false then
      fail einval
    else
      let l ← read
      match l.registry.units.get name with
      | some u => pure (u, true)
      | none =>
        let u ← unitNew h
        setFragmentPath u path
        match ← attempt (unitAddName u name) with
        | .error e =>
          unitFree h u
          fail e
        | .ok () =>
          unitAddToLoadQueue u
          pure (u, false)

-- manager_load_unit() while the load queue is being dispatched, when dispatching it does nothing.
def loadUnitLater (h : Host U) (name path : Option CString) : Load U U := do
  let (u, known) ← managerLoadUnitPrepare h name path
  if known then pure u else unitFollowMerge h u

def resolveTemplate (u : U) (name : CString) : Load U CString := do
  if unitNameIsTemplate name then
    let l ← read
    let id ← orAbort (l.registry.id u)
    let part := (l.registry.instancePart u).getD (unitNameToPrefix id)
    orAbort (unitNameReplaceInstance name part)
  else
    pure name

def unitAddDependencyByName (h : Host U) (u : U) (d : UnitDependency) (name : CString)
    (path : Option CString) : Load U Unit := do
  let name ← resolveTemplate u name
  let other ← loadUnitLater h (some name) path
  unitAddDependency h u d other

def runDirective (h : Host U) (u : U) : Directive -> Load U Unit
  | .names words => untilFails words (unitMergeByName h u)
  | .provides name => do
    let _ ← attempt (unitAddName u name)
    pure ()
  | .dependencies d words => untilFails words fun word => unitAddDependencyByName h u d word none
  | .unit name => do
    let _ ← attempt (loadUnitLater h (some name) none)
    pure ()
  | .needs d name => unitAddDependencyByName h u d name none

def orFail (result : Except LoadErrno Unit) : Load U Unit :=
  match result with
  | .ok () => pure ()
  | .error e => fail e

def configParse (h : Host U) (u : U) (contents : Contents) : Load U Unit := do
  let l ← read
  forEach (contents.directives (l.registry.id u)) (runDirective h u)
  orFail contents.result

def readContents (h : Host U) (u : U) (contents : Contents) : Load U Unit :=
  if contents.nullOrEmpty then
    setLoadState u .masked
  else do
    configParse h u contents
    setLoadState u .loaded

-- The result is the unit that has the names in the end. After a switch the id is left alone.
def mergeByNames (h : Host U) (u : U) (id : Option CString) : List CString -> Load U U
  | [] => pure u
  | k :: names => do
    match ← attempt (unitMergeByName h u k) with
    | .ok () =>
      if id = some k then
        let _ ← attempt (unitChooseId u k)
        mergeByNames h u id names
      else
        mergeByNames h u id names
    | .error e =>
      let l ← read
      match l.registry.units.get k with
      | none => fail e
      | some other =>
        unitMerge h other u
        mergeByNames h other none names

def loadFromPath (h : Host U) (u : U) (path : CString) : Load U Unit :=
  match findFile h path with
  | .error e => fail e
  | .ok none => pure ()
  | .ok (some found) => do
    let merged ← mergeByNames h u found.id found.names.members
    if merged ≠ u then
      setLoadState u .merged
    else
      readContents h u found.contents
      setFragmentPath u (some found.filename)

-- The loops over other names stop once the unit is no stub any more.
def whileStub (u : U) (load : Load U Unit) : Load U Unit := do
  let l ← read
  if l.registry.loadState u = .stub then load else pure ()

def unitNames (u : U) : Load U (List CString) := do
  let l ← read
  pure (Registry.setMembers (l.registry.names u))

def unitLoadFragment (h : Host U) (u : U) : Load U Unit := do
  let l ← read
  let id ← orAbort (l.registry.id u)
  loadFromPath h u id
  let names ← unitNames u
  forEach (names.filter (· ≠ id)) fun t => whileStub u (loadFromPath h u t)
  whileStub u do
    let l ← read
    match l.fragmentPath u with
    | none => pure ()
    | some path =>
      loadFromPath h u path
      whileStub u (setFragmentPath u none)
  whileStub u do
    let l ← read
    if (l.registry.instancePart u).isSome then
      let k ← orAbort (unitNameTemplate id)
      loadFromPath h u k
      let names ← unitNames u
      forEach (names.filter (· ≠ id)) fun t => whileStub u do
        let k ← orAbort (unitNameTemplate t)
        loadFromPath h u k
    else
      pure ()

-- A cached path is not among the directories that are looked into.
def iterateDir (h : Host U) (u : U) (path : CString) (d : UnitDependency) : Load U Unit :=
  if cached h path then
    match h.openDirectory path with
    | .error e => if e = enoent then pure () else fail e
    | .ok entries =>
      forEach (entries.filter fun entry => !ConfFiles.ignoreFile entry.bytes) fun entry => do
        let _ ← attempt (unitAddDependencyByName h u d entry (some (join path entry)))
        pure ()
  else
    pure ()

def processDir (h : Host U) (u : U) (unitPath name suffix : CString) (d : UnitDependency) :
    Load U Unit := do
  iterateDir h u ((join unitPath name).append suffix) d
  let l ← read
  if (l.registry.instancePart u).isSome then
    let template ← orAbort (unitNameTemplate name)
    iterateDir h u ((join unitPath template).append suffix) d
  else
    pure ()

def unitLoadDropin (h : Host U) (u : U) : Load U Unit := do
  let names ← unitNames u
  forEach names fun t =>
    forEach h.unitPath fun p => do
      processDir h u p t (.ofString ".wants") .wants
      processDir h u p t (.ofString ".requires") .requires

def dropin (h : Host U) (u : U) : Load U Unit := do
  let owner ← unitFollowMerge h u
  unitLoadDropin h owner

def addExtras (h : Host U) (u : U) : Load U Unit := do
  let l ← read
  if l.registry.loadState u = .loaded then
    forEach (h.extras l u).1 (runDirective h u)
    orFail (h.extras l u).2
  else
    pure ()

-- The path of an init script is that of the service less its suffix, in the directory of scripts.
def serviceLoadSysvPath (h : Host U) (u : U) (path : CString) : Load U Unit :=
  match h.openScript path with
  | .error e => if e = enoent then pure () else fail e
  | .ok contents => readContents h u contents

def serviceLoadSysvName (h : Host U) (u : U) (name : CString) : Load U Unit :=
  forEach h.sysvinitPath fun p =>
    whileStub u (serviceLoadSysvPath h u
      (.ofBuffer ((join p name).bytes.take ((join p name).bytes.length - 8))))

def serviceLoadSysv (h : Host U) (u : U) : Load U Unit := do
  let l ← read
  let id ← orAbort (l.registry.id u)
  serviceLoadSysvName h u id
  forEach ((Registry.setMembers (l.registry.names u)).filter (· ≠ id)) fun t =>
    whileStub u (serviceLoadSysvName h u t)

def failIfStub (u : U) : Load U Unit := whileStub u (fail enoent)

def serviceLoad (h : Host U) (u : U) : Load U Unit := do
  unitLoadFragment h u
  whileStub u (serviceLoadSysv h u)
  failIfStub u
  dropin h u
  addExtras h u

def unitLoadFragmentAndDropin (h : Host U) (u : U) : Load U Unit := do
  unitLoadFragment h u
  failIfStub u
  dropin h u

def unitLoadFragmentAndDropinOptional (h : Host U) (u : U) : Load U Unit := do
  unitLoadFragment h u
  whileStub u (setLoadState u .loaded)
  dropin h u

-- A snapshot is only loaded if it comes out of a serialization.
def snapshotLoad (h : Host U) (u : U) : Load U Unit :=
  if h.reloading then setLoadState u .loaded else fail enoent

def load (h : Host U) (u : U) : UnitType -> Load U Unit
  | .service => serviceLoad h u
  | .snapshot => snapshotLoad h u
  | .socket | .target | .timer | .path => do
    unitLoadFragmentAndDropin h u
    addExtras h u
  | .device | .mount | .automount | .swap => do
    unitLoadFragmentAndDropinOptional h u
    addExtras h u

def loadOrFail (h : Host U) (u : U) : Load U Unit := do
  let l ← read
  let t ← orAbort (l.registry.type u)
  load h u t
  failIfStub u

def unitLoad (h : Host U) (u : U) : Load U Unit := do
  change fun l => { l with loadQueue := l.loadQueue.filter (· ≠ u) }
  let l ← read
  if l.registry.type u = none then
    fail einval
  else if l.registry.loadState u ≠ .stub then
    pure ()
  else
    match ← attempt (loadOrFail h u) with
    | .ok () =>
      let l ← read
      if (l.registry.loadState u = .merged) ↔ (l.registry.mergedInto u).isSome then
        pure ()
      else
        abort
    | .error e =>
      setLoadState u .error
      fail e

def managerDispatchLoadQueue (h : Host U) : Nat -> Load U Unit
  | 0 => abort
  | fuel + 1 => do
    let l ← read
    match l.loadQueue with
    | [] => pure ()
    | u :: _ =>
      let _ ← attempt (unitLoad h u)
      managerDispatchLoadQueue h fuel

def managerLoadUnit (h : Host U) (name path : Option CString) : Load U U := do
  let (u, known) ← managerLoadUnitPrepare h name path
  if known then
    pure u
  else
    managerDispatchLoadQueue h h.fuel
    unitFollowMerge h u

end

end Systemd.Loading
