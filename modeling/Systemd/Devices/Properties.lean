import Systemd.Basic.Quoted
import Systemd.Devices.Device

set_option autoImplicit false

namespace Systemd.Devices

open Sharing List

/-- What the udev monitor delivers: the paths of a device and its properties as they are. Those of the model
of the device are left out: they become the description of the unit, of which nothing is asked. -/
structure Delivery where
  action : Option CString
  syspath : CString
  devnode : Option CString
  devlinks : List DeviceLink
  systemdReady : Option CString
  systemdAlias : Option CString
  systemdWants : Option CString

def Delivery.wanted (d : Delivery) : List CString :=
  ((d.systemdWants.map fun wants => wordsQuoted wants.bytes).getD []).map fun w => w.1.copied

-- What manager_load_unit() makes of a word depends on more than the device.
def Delivery.device (d : Delivery) (load : CString -> Want) : UdevDevice where
  syspath := d.syspath
  devnode := d.devnode
  devlinks := d.devlinks
  systemdAlias := d.systemdAlias
  wants := d.wanted.map load

def Delivery.removes (d : Delivery) (action : CString) : Bool :=
  action = .ofString "remove" ||
    d.systemdReady.any fun ready => Services.parseBoolean ready = some false

def assertedUpdateUnit (m : DeviceManager) (dev : UdevDevice) (path : CString) (main : Bool) :
    Except Fault (DeviceManager × Option RegistryErrno) :=
  if !pathIsAbsolute path.bytes then .error .assertion else deviceUpdateUnit m dev path main

def assertedUpdateOther (dev : UdevDevice) (m : DeviceManager) (path : CString) :
    Except Fault DeviceManager :=
  (assertedUpdateUnit m dev path false).map Prod.fst

def assertedProcessNewDevice (m : DeviceManager) (dev : UdevDevice) (pulled : List CString) :
    Except Fault DeviceManager := do
  let (m, _) ← assertedUpdateUnit m dev dev.syspath true
  let m ← dev.others.foldlM (assertedUpdateOther dev) m
  let m ← managerDispatchLoadQueue m pulled
  match m.sharing.get dev.syspath with
  | none => .error .freedMemory
  | some l => .ok ((sameSysfs m l).foldl (fun m d => deviceSetState m d .plugged) m)

def assertedFdEvent (m : DeviceManager) (d : Delivery) (load : CString -> Want) (pulled : List CString) :
    Except Fault DeviceManager :=
  match d.action with
  | none => .ok m
  | some action =>
    if d.removes action then deviceProcessRemovedDevice m (d.device load)
    else assertedProcessNewDevice m (d.device load) pulled

structure Delivery.Absolute (d : Delivery) : Prop where
  syspath : pathIsAbsolute d.syspath.bytes = true
  devnode : ∀ node ∈ d.devnode, pathIsAbsolute node.bytes = true
  devlinks : ∀ link ∈ d.devlinks, pathIsAbsolute link.path.bytes = true

def RelativeAlias (systemdAlias : Option CString) : Prop :=
  ∃ path ∈ systemdAlias, Mounts.isPath path = true ∧ pathIsAbsolute path.bytes = false

/-- There is a unit of the path that is of this device or of none yet, or there is room for one, and the list
it is to be put into is there. -/
def Reached (m : DeviceManager) (path : CString) : Prop :=
  match m.units.get (unitOf path) with
  | some u =>
    match m.sysfs u with
    | some sysfs => pathEqual sysfs.bytes path.bytes = true
    | none => (m.sharing.get path).isSome = true
  | none =>
    (unitNameIsTemplate (unitOf path) = false ∧ unitNameIsValid (unitOf path) false = true ∧
      unitNameToInstance (unitOf path) = some none ∧ m.units.length + m.otherNames < managerMaxNames) ∧
    ((m.sysfs m.nextUnit).isSome = true ∨ (m.sharing.get path).isSome = true)

section

variable {A B : Type}

def Unasserted (x : Except Fault A) : Prop :=
  x ≠ .error .assertion

theorem unasserted_ok (value : A) : Unasserted (.ok value) := by
  intro failed
  cases failed

theorem unasserted_freed : Unasserted (.error .freedMemory : Except Fault A) := by
  intro failed
  cases failed

theorem bind_asserted (x : Except Fault A) (f : A -> Except Fault B) :
    (x >>= f) = .error .assertion ↔
      x = .error .assertion ∨ ∃ value, x = .ok value ∧ f value = .error .assertion := by
  cases x with
  | error fault => simp [bind, Except.bind]
  | ok value => simp [bind, Except.bind]

variable {x : Except Fault A}

theorem Unasserted.bind (first : Unasserted x) {f : A -> Except Fault B}
    (rest : ∀ value, Unasserted (f value)) : Unasserted (x >>= f) := by
  intro failed
  rw [bind_asserted] at failed
  rcases failed with failed | ⟨value, -, failed⟩
  · exact first failed
  · exact rest value failed

theorem Unasserted.map (first : Unasserted x) (f : A -> B) : Unasserted (x.map f) := by
  cases x with
  | error fault => exact fun failed => first (by cases failed; rfl)
  | ok value => exact unasserted_ok _

theorem unasserted_foldlM {f : B -> A -> Except Fault B} {items : List A}
    (step : ∀ item ∈ items, ∀ state, Unasserted (f state item)) (state : B) :
    Unasserted (items.foldlM f state) := by
  induction items generalizing state with
  | nil => exact unasserted_ok state
  | cons item items ih =>
    rw [foldlM_cons]
    refine (step item mem_cons_self state).bind fun state => ih ?_ state
    exact fun item found => step item (mem_cons_of_mem _ found)

end

variable (m : DeviceManager) (dev : UdevDevice)

variable (u : UnitId) (sysfs : CString)

theorem unasserted_unsetSysfs : Unasserted (deviceUnsetSysfs m u) := by
  unfold deviceUnsetSysfs
  split
  next => exact unasserted_freed
  next => exact unasserted_ok _

theorem unasserted_unitFree : Unasserted (unitFree m u) := by
  unfold unitFree
  dsimp only
  split
  next => exact unasserted_ok _
  next => exact (unasserted_unsetSysfs m u).bind fun _ => unasserted_ok _

theorem unasserted_pullIn (name : CString) : Unasserted (pullIn m name) := by
  unfold pullIn
  split
  next => exact unasserted_ok _
  next =>
    dsimp only
    split
    next => exact unasserted_unitFree _ _
    next => exact unasserted_ok _

theorem unasserted_dispatch (pulled : List CString) : Unasserted (managerDispatchLoadQueue m pulled) :=
  (unasserted_foldlM (fun name _ m => unasserted_pullIn m name) m).bind fun _ => unasserted_ok _

theorem unasserted_addWants (wants : List Want) : Unasserted (addWants m wants) := by
  induction wants generalizing m with
  | nil => exact unasserted_ok _
  | cons want rest ih =>
    cases want with
    | known => exact ih m
    | refused r => exact unasserted_ok _
    | loaded pulled otherNames => exact (unasserted_dispatch m pulled).bind fun _ => ih _

theorem unasserted_setSysfs : Unasserted (setSysfs m u sysfs) := by
  unfold setSysfs
  split
  next => exact unasserted_ok _
  next =>
    split
    next => exact unasserted_freed
    next => exact unasserted_ok _

theorem addProperties_asserted :
    addProperties m u dev = .error .assertion ↔ RelativeAlias dev.systemdAlias := by
  have last : addProperties m u dev = .error .assertion ↔ addAlias m u dev = .error .assertion := by
    unfold addProperties
    rw [bind_asserted]
    constructor
    · rintro (failed | ⟨⟨m', r⟩, -, failed⟩)
      · exact failed
      · cases r with
        | some r => exact absurd failed (unasserted_ok _)
        | none => exact absurd failed (unasserted_addWants m' dev.wants)
    · exact Or.inl
  rw [last]
  unfold addAlias RelativeAlias
  cases dev.systemdAlias with
  | none => simp
  | some path =>
    cases isPath : Mounts.isPath path with
    | false => simp [isPath]
    | true => cases absolute : pathIsAbsolute path.bytes <;> simp [isPath, absolute]

theorem unasserted_finish (u : UnitId) (result : DeviceManager × Option RegistryErrno) (delete : Bool) :
    Unasserted (if result.2.isSome && delete then do
        let m ← unitFree result.1 u
        .ok (m, result.2)
      else .ok result) := by
  split
  next => exact (unasserted_unitFree _ _).bind fun _ => unasserted_ok _
  next => exact unasserted_ok _

theorem setSysfs_ok :
    (∃ m', setSysfs m u sysfs = .ok m') ↔
      (m.sysfs u).isSome = true ∨ (m.sharing.get sysfs).isSome = true := by
  unfold setSysfs Shared.join
  cases (m.sysfs u).isSome <;> cases m.sharing.get sysfs <;> simp

theorem fillUnit_asserted (delete : Bool) :
    fillUnit m u dev true delete = .error .assertion ↔
      RelativeAlias dev.systemdAlias ∧
        ((m.sysfs u).isSome = true ∨ (m.sharing.get dev.syspath).isSome = true) := by
  have filled : ∀ m', addProperties m' u dev >>= (fun result =>
      if result.2.isSome && delete then do
        let m ← unitFree result.1 u
        .ok (m, result.2)
      else .ok result) = .error .assertion ↔ RelativeAlias dev.systemdAlias := by
    intro m'
    rw [bind_asserted, addProperties_asserted]
    constructor
    · rintro (failed | ⟨result, -, failed⟩)
      · exact failed
      · exact absurd failed (unasserted_finish u result delete)
    · exact Or.inl
  have unfolded : fillUnit m u dev true delete = setSysfs m u dev.syspath >>= fun m' =>
      addProperties m' u dev >>= fun result =>
        if result.2.isSome && delete then do
          let m ← unitFree result.1 u
          .ok (m, result.2)
        else .ok result := rfl
  rw [unfolded, bind_asserted, ← setSysfs_ok]
  constructor
  · rintro (failed | ⟨m', same, failed⟩)
    · exact absurd failed (unasserted_setSysfs m u dev.syspath)
    · exact ⟨(filled m').1 failed, m', same⟩
  · rintro ⟨relative, m', same⟩
    exact Or.inr ⟨m', same, (filled m').2 relative⟩

theorem unasserted_fillOther (delete : Bool) : Unasserted (fillUnit m u dev false delete) := by
  have unfolded : fillUnit m u dev false delete = setSysfs m u dev.syspath >>= fun m' =>
      if (none : Option RegistryErrno).isSome && delete then do
        let m ← unitFree m' u
        .ok (m, none)
      else .ok (m', none) := rfl
  rw [unfolded]
  exact (unasserted_setSysfs m u dev.syspath).bind fun m' => unasserted_finish u (m', none) delete

theorem unasserted_updateOther (path : CString) : Unasserted (deviceUpdateUnit m dev path false) := by
  unfold deviceUpdateUnit
  split
  next =>
    split
    next => exact unasserted_ok _
    next => exact unasserted_fillOther m dev _ false
  next =>
    dsimp only
    split
    next => exact (unasserted_unitFree _ _).bind fun _ => unasserted_ok _
    next => exact unasserted_fillOther _ dev _ true

theorem get_unitNew (name : CString) : (unitNew m).1.units.get name = m.units.get name := rfl

theorem deviceAddEscapedName_new (path : CString) (unknown : m.units.get (unitOf path) = none) :
    if unitNameIsTemplate (unitOf path) = false ∧ unitNameIsValid (unitOf path) false = true ∧
        unitNameToInstance (unitOf path) = some none ∧ m.units.length + m.otherNames < managerMaxNames then
      ∃ m', deviceAddEscapedName (unitNew m).1 m.nextUnit path = (m', none) ∧ m'.sharing = m.sharing
    else
      ∃ m' r, deviceAddEscapedName (unitNew m).1 m.nextUnit path = (m', some r) := by
  have unnamed : ((unitNew m).1.device m.nextUnit).names = [] := by simp [unitNew]
  have same : (unitNew m).1.units.length + (unitNew m).1.otherNames = m.units.length + m.otherNames := rfl
  unfold deviceAddEscapedName unitAddName
  rw [unnamed, get_unitNew, unknown, same]
  split
  next named =>
    obtain ⟨plain, valid, whole, room⟩ := named
    rw [if_neg (by simp [plain, valid, whole]), if_neg (by omega)]
    exact ⟨_, rfl, rfl⟩
  next refused =>
    by_cases malformed : unitNameIsTemplate (unitOf path) = true ∨ unitNameIsValid (unitOf path) false = false ∨
        unitNameToInstance (unitOf path) ≠ some none
    · rw [if_pos malformed]
      exact ⟨_, _, rfl⟩
    · push Not at malformed
      obtain ⟨plain, valid, whole⟩ := malformed
      have full : managerMaxNames ≤ m.units.length + m.otherNames := by
        by_contra room
        exact refused ⟨by simpa using plain, by simpa using valid, whole, by omega⟩
      rw [if_neg (by simp [plain, valid, whole]), if_pos full]
      exact ⟨_, _, rfl⟩

theorem mainUnit_asserted :
    deviceUpdateUnit m dev dev.syspath true = .error .assertion ↔
      RelativeAlias dev.systemdAlias ∧ Reached m dev.syspath := by
  unfold deviceUpdateUnit Reached
  cases found : m.units.get (unitOf dev.syspath) with
  | some u =>
    dsimp only
    cases own : m.sysfs u with
    | none =>
      rw [if_neg (by simp), fillUnit_asserted, own]
      simp
    | some sysfs =>
      cases same : pathEqual sysfs.bytes dev.syspath.bytes with
      | false => simp [same]
      | true =>
        rw [if_neg (by simp [same]), fillUnit_asserted, own]
        simp [same]
  | none =>
    have named := deviceAddEscapedName_new m dev.syspath found
    have fresh : unitNew m = ((unitNew m).1, m.nextUnit) := rfl
    rw [fresh]
    dsimp only
    split at named
    next room =>
      obtain ⟨m', added, sharing⟩ := named
      rw [added, fillUnit_asserted]
      have own : ({ m' with loadQueue := m.nextUnit :: m'.loadQueue } : DeviceManager).sysfs m.nextUnit =
          m.sysfs m.nextUnit := congrArg (fun s => s.key m.nextUnit) sharing
      rw [own, sharing]
      exact and_congr_right fun _ => (and_iff_right room).symm
    next refused =>
      obtain ⟨m', r, failed⟩ := named
      rw [failed]
      refine iff_of_false ?_ fun reached => refused reached.2.1
      exact (unasserted_unitFree _ _).bind fun _ => unasserted_ok _

theorem unasserted_removeAll (bound : Nat) : Unasserted (removeAll sysfs bound m) := by
  induction bound generalizing m with
  | zero => exact unasserted_ok _
  | succ bound ih =>
    unfold removeAll
    split
    next => exact unasserted_freed
    next => exact unasserted_ok _
    next => exact (unasserted_unsetSysfs m _).bind fun _ => ih _

variable {d : Delivery}

theorem Delivery.Absolute.others (absolute : d.Absolute) (load : CString -> Want) {path : CString}
    (other : path ∈ (d.device load).others) : pathIsAbsolute path.bytes = true := by
  rw [UdevDevice.others, mem_append, mem_map] at other
  rcases other with node | ⟨link, followed, rfl⟩
  · exact absolute.devnode path (by simpa [Delivery.device] using node)
  · exact absolute.devlinks link (mem_filter.1 followed).1

theorem assertedProcessNewDevice_asserted (absolute : d.Absolute) (load : CString -> Want)
    (pulled : List CString) :
    assertedProcessNewDevice m (d.device load) pulled = .error .assertion ↔
      RelativeAlias d.systemdAlias ∧ Reached m d.syspath := by
  have main : assertedUpdateUnit m (d.device load) (d.device load).syspath true =
      deviceUpdateUnit m (d.device load) (d.device load).syspath true :=
    if_neg (by simp [Delivery.device, absolute.syspath])
  have others : ∀ path ∈ (d.device load).others, ∀ m,
      Unasserted (assertedUpdateOther (d.device load) m path) := by
    intro path other m
    rw [assertedUpdateOther, assertedUpdateUnit, if_neg (by simp [absolute.others load other])]
    exact (unasserted_updateOther m _ path).map _
  have last : ∀ m : DeviceManager, Unasserted
      (match m.sharing.get (d.device load).syspath with
      | none => .error .freedMemory
      | some l => .ok ((sameSysfs m l).foldl (fun m d => deviceSetState m d .plugged) m)) := by
    intro m
    split
    next => exact unasserted_freed
    next => exact unasserted_ok _
  unfold assertedProcessNewDevice
  rw [bind_asserted, main, mainUnit_asserted]
  constructor
  · rintro (failed | ⟨⟨m', r⟩, -, failed⟩)
    · exact failed
    · exact absurd failed
        ((unasserted_foldlM others m').bind fun m => (unasserted_dispatch m pulled).bind last)
  · exact Or.inl

theorem assertedFdEvent_adds (d : Delivery) (load : CString -> Want) (pulled : List CString) {action : CString}
    (known : d.action = some action) (adds : d.removes action = false) :
    assertedFdEvent m d load pulled = assertedProcessNewDevice m (d.device load) pulled := by
  simp [assertedFdEvent, known, adds]

/-- An event ends in a failing assertion exactly when the unit of a device that is there is to be given a
relative alias. -/
theorem assertedFdEvent_holds_iff (absolute : d.Absolute) (load : CString -> Want)
    (pulled : List CString) :
    assertedFdEvent m d load pulled ≠ .error .assertion ↔
      ¬ ((∃ action ∈ d.action, d.removes action = false) ∧ RelativeAlias d.systemdAlias ∧
        Reached m d.syspath) := by
  cases known : d.action with
  | none => simp [assertedFdEvent, known]
  | some action =>
    cases removes : d.removes action with
    | true =>
      have removed : Unasserted (deviceProcessRemovedDevice m (d.device load)) :=
        (unasserted_removeAll m d.syspath (m.live.length + 1)).map Prod.fst
      simpa [assertedFdEvent, known, removes, Unasserted] using removed
    | false =>
      rw [assertedFdEvent_adds m d load pulled known removes]
      simp [removes, assertedProcessNewDevice_asserted m absolute load pulled]

-- The alias passes is_path(), which asks for a slash anywhere.
def linked : Delivery where
  action := some (.ofString "add")
  syspath := .ofString "/sys/block/sda"
  devnode := none
  devlinks := []
  systemdReady := none
  systemdAlias := some (.ofString "by-name/root")
  systemdWants := none

theorem linked_absolute : linked.Absolute where
  syspath := by decide
  devnode := by simp [linked]
  devlinks := by simp [linked]

theorem linked_holds_iff :
    assertedFdEvent .empty linked (fun _ => .known) [] ≠ .error .assertion ↔
      ¬ ((∃ action ∈ linked.action, linked.removes action = false) ∧ RelativeAlias linked.systemdAlias ∧
        Reached .empty linked.syspath) :=
  assertedFdEvent_holds_iff .empty linked_absolute (fun _ => .known) []

theorem relative_alias_aborts :
    ¬ ∀ (m : DeviceManager) (d : Delivery) (load : CString -> Want) (pulled : List CString), d.Absolute ->
        assertedFdEvent m d load pulled ≠ .error .assertion := by
  intro holds
  have added : linked.removes (.ofString "add") = false := by decide
  have relative : RelativeAlias linked.systemdAlias := ⟨_, rfl, by decide, by decide⟩
  have reached : Reached .empty linked.syspath :=
    ⟨⟨by decide, by decide, by decide, by decide⟩, Or.inr rfl⟩
  have aborts := (assertedProcessNewDevice_asserted .empty linked_absolute (fun _ => .known) []).2
    ⟨relative, reached⟩
  refine holds .empty linked (fun _ => .known) [] linked_absolute ?_
  rw [assertedFdEvent_adds .empty linked _ _ rfl added]
  exact aborts

end Systemd.Devices
