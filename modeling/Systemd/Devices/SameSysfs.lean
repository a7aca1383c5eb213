import Systemd.Devices.Device
import Systemd.Units.NameIndex

set_option autoImplicit false

namespace Systemd.Devices

open Sharing List Option Function

variable {m : DeviceManager}

structure Consistent (m : DeviceManager) : Prop where
  sound : m.sharing.Sound
  known : ∀ u, (m.sysfs u).isSome = true -> u ∈ m.live
  nodup : m.live.Nodup
  fresh : ∀ u ∈ m.live, u < m.nextUnit
  named : ∀ name u, m.units.get name = some u ↔ u ∈ m.live ∧ name ∈ (m.device u).names

theorem empty_consistent : Consistent .empty where
  sound := Shared.empty_sound
  known := by simp [DeviceManager.empty, DeviceManager.sysfs, Shared.empty]
  nodup := nodup_nil
  fresh := by simp [DeviceManager.empty]
  named := by simp [DeviceManager.empty, NameTable.get]

namespace Consistent

section

variable (consistent : Consistent m)
include consistent

theorem update (u : UnitId) (change : Device -> Device)
    (same : ∀ device, (change device).names = device.names) : Consistent (m.update u change) where
  sound := consistent.sound
  known := consistent.known
  nodup := consistent.nodup
  fresh := consistent.fresh
  named := by
    intro name v
    refine (consistent.named name v).trans (and_congr_right fun _ => ?_)
    by_cases here : v = u
    · simp [DeviceManager.update, here, same]
    · simp [DeviceManager.update, here]

theorem loadQueue (queue : List UnitId) : Consistent { m with loadQueue := queue } :=
  ⟨consistent.sound, consistent.known, consistent.nodup, consistent.fresh, consistent.named⟩

theorem unitNew : Consistent (unitNew m).1 where
  sound := consistent.sound
  known := fun u some => mem_cons_of_mem _ (consistent.known u some)
  nodup := nodup_cons.mpr
    ⟨fun mem => absurd (consistent.fresh _ mem) (lt_irrefl _), consistent.nodup⟩
  fresh := by
    intro u mem
    rcases mem_cons.mp mem with rfl | old
    · exact Nat.lt_succ_self _
    · exact (consistent.fresh u old).trans (Nat.lt_succ_self _)
  named := by
    intro name u
    refine (consistent.named name u).trans ?_
    have apart (mem : u ∈ m.live) : u ≠ m.nextUnit := (consistent.fresh u mem).ne
    by_cases same : u = m.nextUnit
    · subst same
      have outside : m.nextUnit ∉ m.live := fun mem => apart mem rfl
      simp [Devices.unitNew, outside]
    · simp [Devices.unitNew, same]

end

end Consistent

theorem unitNew_free (consistent : Consistent m) : (unitNew m).1.sysfs (unitNew m).2 = none := by
  by_contra some
  have mem := consistent.known m.nextUnit (isSome_iff_ne_none.mpr some)
  exact absurd (consistent.fresh _ mem) (lt_irrefl _)

def nameAccepted (name : CString) (count : Nat) : Bool :=
  !(unitNameIsTemplate name ∨ unitNameIsValid name false = false ∨
      unitNameToInstance name ≠ some none) &&
    count < managerMaxNames

structure Renamed (m m' : DeviceManager) : Prop where
  sharing : m'.sharing = m.sharing
  live : m'.live = m.live
  loadQueue : m'.loadQueue = m.loadQueue
  otherNames : m'.otherNames = m.otherNames
  stub : ∀ u, (m'.device u).stub = (m.device u).stub
  state : ∀ u, (m'.device u).state = (m.device u).state

theorem Renamed.refl (m : DeviceManager) : Renamed m m :=
  ⟨rfl, rfl, rfl, rfl, fun _ => rfl, fun _ => rfl⟩

theorem unitAddName_spec (consistent : Consistent m) (u : UnitId) (mem : u ∈ m.live) (name : CString) :
    Consistent (unitAddName m u name).1 ∧ Renamed m (unitAddName m u name).1 ∧
      (∀ r, (unitAddName m u name).2 = some r -> (unitAddName m u name).1 = m) ∧
      (((unitAddName m u name).2 = none ∨ (unitAddName m u name).2 = some .eexist) ↔
        nameAccepted name (m.units.length + m.otherNames) = true) := by
  unfold unitAddName nameAccepted
  by_cases wrong : unitNameIsTemplate name ∨ unitNameIsValid name false = false ∨
      unitNameToInstance name ≠ some none
  · simp [wrong, consistent, Renamed.refl]
  by_cases full : m.units.length + m.otherNames ≥ managerMaxNames
  · simp [wrong, full, consistent, Renamed.refl, Nat.not_lt.mpr full]
  by_cases own : name ∈ (m.device u).names
  · simp [wrong, full, own, consistent, Renamed.refl, Nat.not_le.mp full]
  by_cases taken : (m.units.get name).isSome = true
  · simp [wrong, full, own, taken, consistent, Renamed.refl, Nat.not_le.mp full]
  have none : m.units.get name = none := by simpa using taken
  simp only [wrong, full, own, taken, Bool.false_eq_true, if_false]
  refine ⟨⟨consistent.sound, consistent.known, consistent.nodup, consistent.fresh, ?_⟩, ?_, by simp, ?_⟩
  · intro other v
    rw [NameTable.get_append]
    by_cases here : other = name
    · subst here
      rw [none, none_or, if_pos rfl]
      by_cases mine : v = u
      · subst mine
        simp [DeviceManager.update, mem]
      · have outside : ¬ (v ∈ m.live ∧ other ∈ (m.device v).names) := by
          rw [← consistent.named, none]
          simp
        simpa [DeviceManager.update, mine, Ne.symm mine] using outside
    · rw [if_neg here, or_none, consistent.named]
      refine and_congr_right fun _ => ?_
      by_cases mine : v = u
      · simp [DeviceManager.update, mine, here]
      · simp [DeviceManager.update, mine]
  · refine ⟨rfl, rfl, rfl, rfl, fun v => ?_, fun v => ?_⟩
    · by_cases mine : v = u <;> simp [DeviceManager.update, mine]
    · by_cases mine : v = u <;> simp [DeviceManager.update, mine]
  · simpa using Nat.not_le.mp full

theorem deviceAddEscapedName_spec (consistent : Consistent m) (u : UnitId) (mem : u ∈ m.live)
    (dn : CString) :
    Consistent (deviceAddEscapedName m u dn).1 ∧ Renamed m (deviceAddEscapedName m u dn).1 ∧
      ((deviceAddEscapedName m u dn).2 = none ↔
        nameAccepted (unitOf dn) (m.units.length + m.otherNames) = true) := by
  obtain ⟨named, renamed, _, accepted⟩ := unitAddName_spec consistent u mem (unitOf dn)
  unfold deviceAddEscapedName
  cases added : unitAddName m u (unitOf dn) with
  | mk m' result =>
    rw [added] at named renamed accepted
    cases result with
    | none => exact ⟨named, renamed, by simpa using accepted⟩
    | some r => cases r <;> exact ⟨named, renamed, by simpa using accepted⟩

theorem deviceAddEscapedName_first (u : UnitId) (dn : CString) (absent : m.units.get (unitOf dn) = none)
    (nameless : (m.device u).names = []) (added : (deviceAddEscapedName m u dn).2 = none) :
    (deviceAddEscapedName m u dn).1 =
      { m.update u fun device =>
          { device with names := unitOf dn :: device.names, id := device.id.or (some (unitOf dn)) } with
        units := m.units ++ [(unitOf dn, u)] } := by
  unfold deviceAddEscapedName unitAddName at added ⊢
  by_cases wrong : unitNameIsTemplate (unitOf dn) ∨ unitNameIsValid (unitOf dn) false = false ∨
      unitNameToInstance (unitOf dn) ≠ some none
  · simp [wrong] at added
  by_cases full : m.units.length + m.otherNames ≥ managerMaxNames
  · simp [wrong, full] at added
  simp [wrong, full, absent, nameless]

theorem deviceUnsetSysfs_spec (consistent : Consistent m) (d : UnitId) :
    ∃ sharing, deviceUnsetSysfs m d = .ok { m with sharing := sharing } ∧
      Consistent { m with sharing := sharing } ∧
      sharing.key = Function.update m.sharing.key d none ∧
      ∀ sysfs nodes, m.sharing.Listed sysfs nodes -> sharing.Listed sysfs (nodes.erase d) := by
  obtain ⟨sharing, left, sound, keys, lists⟩ := Shared.leave_first consistent.sound d
  refine ⟨sharing, by simp only [deviceUnsetSysfs, left], ?_, keys, lists⟩
  refine ⟨sound, fun u some => ?_, consistent.nodup, consistent.fresh, consistent.named⟩
  change (sharing.key u).isSome = true at some
  rw [keys] at some
  by_cases same : u = d
  · simp [same] at some
  · rw [update_of_ne same] at some
    exact consistent.known u some

theorem setSysfs_spec (consistent : Consistent m) (u : UnitId) (mem : u ∈ m.live) (sysfs : CString) :
    ∃ sharing, setSysfs m u sysfs = .ok { m with sharing := sharing } ∧
      Consistent { m with sharing := sharing } ∧
      sharing.key = Function.update m.sharing.key u ((m.sysfs u).or (some sysfs)) := by
  unfold setSysfs
  cases own : m.sysfs u with
  | some known =>
    have same : m.sharing.key u = some known := own
    exact ⟨m.sharing, by simp, consistent, by rw [some_or, ← same, update_eq_self]⟩
  | none =>
    obtain ⟨nodes, listed⟩ := consistent.sound.listed sysfs
    obtain ⟨sharing, joined, sound, keys, _⟩ := Shared.join_listed consistent.sound own listed
    refine ⟨sharing, by simp [joined], ⟨sound, fun v some => ?_, consistent.nodup, consistent.fresh,
      consistent.named⟩, by rw [keys, none_or]⟩
    change (sharing.key v).isSome = true at some
    rw [keys] at some
    by_cases same : v = u
    · exact same ▸ mem
    · rw [update_of_ne same] at some
      exact consistent.known v some

def Stray (m : DeviceManager) : Prop :=
  m.sharing.Sound ∧ ∃ u, (m.sysfs u).isSome = true ∧ u ∉ m.live

theorem unitFree_cases (consistent : Consistent m) (u : UnitId) :
    ∃ m', unitFree m u = .ok m' ∧ m'.live = m.live.erase u ∧
      (((m.device u).stub = true -> m.sysfs u = none) -> Consistent m') ∧
      ((m.device u).stub = true -> m.sysfs u ≠ none -> Stray m') := by
  have outside : u ∉ m.live.erase u := List.Nodup.not_mem_erase consistent.nodup
  -- The unit is in no list, and all its names go.
  have forget : ∀ sharing : Shared UnitId CString, Consistent { m with sharing := sharing } ->
      sharing.key u = none ->
      Consistent
        { m with
          sharing := sharing
          units := (m.device u).names.foldl (fun units name => units.removeValue name u) m.units
          live := m.live.erase u
          loadQueue := m.loadQueue.erase u } := by
    intro sharing here loose
    refine ⟨here.sound, fun v some => ?_, here.nodup.erase u, fun v mem => ?_, fun name v => ?_⟩
    · have ne : v ≠ u := by
        rintro rfl
        change (sharing.key v).isSome = true at some
        simp [loose] at some
      exact (mem_erase_of_ne ne).mpr (here.known v some)
    · exact here.fresh v (mem_of_mem_erase mem)
    · rw [NameTable.get_removeAll]
      change _ ↔ v ∈ m.live.erase u ∧ name ∈ (m.device v).names
      by_cases same : v = u
      · subst same
        have lost : ¬ (m.units.get name = some v ∧ name ∉ (m.device v).names) := fun both =>
          both.2 ((consistent.named name v).mp both.1).2
        refine ⟨fun found => ?_, fun both => absurd both.1 outside⟩
        split at found
        · cases found
        · rename_i kept
          exact absurd ⟨found, fun mem => kept ⟨mem, found⟩⟩ lost
      · rw [mem_erase_of_ne same, ← consistent.named name v]
        split
        · rename_i gone
          simp [gone.2, Ne.symm same]
        · rfl
  unfold unitFree
  by_cases stub : (m.device u).stub = true
  · rw [if_pos stub]
    refine ⟨_, rfl, rfl, fun loose => forget m.sharing consistent (loose stub), fun _ held => ?_⟩
    exact ⟨consistent.sound, u, isSome_iff_ne_none.mpr held, outside⟩
  · obtain ⟨sharing, left, unset, keys, _⟩ := deviceUnsetSysfs_spec consistent u
    rw [if_neg stub, left]
    exact ⟨_, rfl, rfl, fun _ => forget sharing unset (by simp [keys]), fun queued => absurd queued stub⟩

structure Grown (m m' : DeviceManager) : Prop where
  sharing : m'.sharing = m.sharing
  live : ∀ u ∈ m.live, u ∈ m'.live
  loaded : ∀ u ∈ m.live, (m.device u).stub = false -> (m'.device u).stub = false

theorem Grown.refl (m : DeviceManager) : Grown m m := ⟨rfl, fun _ mem => mem, fun _ _ loaded => loaded⟩

theorem Grown.trans {m' m'' : DeviceManager} (first : Grown m m') (second : Grown m' m'') :
    Grown m m'' where
  sharing := second.sharing.trans first.sharing
  live := fun u mem => second.live u (first.live u mem)
  loaded := fun u mem loaded =>
    second.loaded u (first.live u mem) (first.loaded u mem loaded)

theorem pullIn_spec (consistent : Consistent m) (name : CString) :
    ∃ m', pullIn m name = .ok m' ∧ Consistent m' ∧ Grown m m' ∧
      ∀ u ∈ m.live, u ∈ m.loadQueue -> u ∈ m'.loadQueue := by
  unfold pullIn
  by_cases known : (m.units.get name).isSome = true
  · exact ⟨m, if_pos known, consistent, .refl m, fun _ _ queued => queued⟩
  rw [if_neg known]
  have mem : (unitNew m).2 ∈ (unitNew m).1.live := mem_cons_self
  have apart : ∀ u ∈ m.live, u ≠ m.nextUnit := fun u mem => (consistent.fresh u mem).ne
  have grown : Grown m (unitNew m).1 := by
    refine ⟨rfl, fun u mem => mem_cons_of_mem _ mem, fun u mem loaded => ?_⟩
    simpa [unitNew, apart u mem] using loaded
  obtain ⟨named, renamed, refused, _⟩ := unitAddName_spec consistent.unitNew (unitNew m).2 mem name
  simp only
  cases added : unitAddName (unitNew m).1 (unitNew m).2 name with
  | mk m1 r =>
    rw [added] at named renamed refused
    cases r with
    | none =>
      refine ⟨_, rfl, named.loadQueue _, grown.trans ⟨renamed.sharing, fun u => ?_, fun u _ => ?_⟩, ?_⟩
      · exact fun mem => renamed.live.symm ▸ mem
      · exact fun loaded => (renamed.stub u).trans loaded
      · intro u _ queued
        exact mem_cons_of_mem _ (renamed.loadQueue.symm ▸ queued)
    | some r =>
      obtain rfl : m1 = (unitNew m).1 := refused r rfl
      have loose := unitNew_free consistent
      obtain ⟨m', freed, _, kept, _⟩ := unitFree_cases consistent.unitNew (unitNew m).2
      have shape : unitFree (unitNew m).1 (unitNew m).2 =
          .ok { (unitNew m).1 with
            live := (unitNew m).1.live.erase m.nextUnit
            loadQueue := m.loadQueue.erase m.nextUnit } := by
        simp [unitFree, unitNew, bind, Except.bind]
      obtain rfl := Except.ok.inj (freed.symm.trans shape)
      refine ⟨_, shape, kept fun _ => loose, ⟨rfl, fun u mem => ?_, grown.loaded⟩, ?_⟩
      · exact (mem_erase_of_ne (apart u mem)).mpr (grown.live u mem)
      · intro u mem queued
        exact (mem_erase_of_ne (apart u mem)).mpr queued

theorem loadUnit_stub (queue : List UnitId) (u : UnitId) :
    ((queue.foldl loadUnit m).device u).stub = ((m.device u).stub && !decide (u ∈ queue)) := by
  induction queue generalizing m with
  | nil => simp
  | cons first rest ih =>
    rw [foldl_cons, ih]
    by_cases same : u = first
    · simp [loadUnit, DeviceManager.update, same]
    · simp [loadUnit, DeviceManager.update, same]

theorem loadUnits_same (queue : List UnitId) :
    (queue.foldl loadUnit m).sharing = m.sharing ∧ (queue.foldl loadUnit m).live = m.live := by
  refine List.foldlRecOn (motive := fun m' => m'.sharing = m.sharing ∧ m'.live = m.live)
    queue loadUnit ⟨rfl, rfl⟩ ?_
  exact fun _ same _ _ => same

theorem managerDispatchLoadQueue_spec (consistent : Consistent m) (pulled : List CString) :
    ∃ m', managerDispatchLoadQueue m pulled = .ok m' ∧ Consistent m' ∧ Grown m m' ∧
      ∀ u ∈ m.live, u ∈ m.loadQueue -> (m'.device u).stub = false := by
  have pulling : ∃ m', pulled.foldlM pullIn m = .ok m' ∧ Consistent m' ∧ Grown m m' ∧
      ∀ u ∈ m.live, u ∈ m.loadQueue -> u ∈ m'.loadQueue := by
    induction pulled generalizing m with
    | nil => exact ⟨m, rfl, consistent, .refl m, fun _ _ queued => queued⟩
    | cons name rest ih =>
      obtain ⟨m1, first, here, grown, waiting⟩ := pullIn_spec consistent name
      obtain ⟨m2, others, there, grown', waiting'⟩ := ih here
      refine ⟨m2, ?_, there, grown.trans grown', fun u mem queued => ?_⟩
      · rw [foldlM_cons, first]
        exact others
      · exact waiting' u (grown.live u mem) (waiting u mem queued)
  obtain ⟨m1, pulls, here, grown, waiting⟩ := pulling
  obtain ⟨sharing, live⟩ := loadUnits_same (m := m1) m1.loadQueue
  have loaded : Consistent (m1.loadQueue.foldl loadUnit m1) :=
    List.foldlRecOn m1.loadQueue loadUnit here fun _ so u _ => so.update u _ fun _ => rfl
  refine ⟨_, by rw [managerDispatchLoadQueue, pulls]; rfl, loaded.loadQueue [], ?_, ?_⟩
  · refine grown.trans ⟨sharing, fun u mem => live.symm ▸ mem, fun u _ before => ?_⟩
    exact (loadUnit_stub _ u).trans (by rw [before, Bool.false_and])
  · intro u mem queued
    exact (loadUnit_stub _ u).trans (by simp [waiting u mem queued])

def refusedFirst : List Want -> Bool
  | [] => false
  | .known :: rest => refusedFirst rest
  | .loaded _ _ :: _ => false
  | .refused _ :: _ => true

theorem addWants_spec (consistent : Consistent m) (wants : List Want) :
    ∃ m' r, addWants m wants = .ok (m', r) ∧ Consistent m' ∧ Grown m m' ∧
      (refusedFirst wants = true -> r ≠ none ∧ m' = m) ∧
      (refusedFirst wants = false -> r ≠ none ->
        ∀ u ∈ m.live, u ∈ m.loadQueue -> (m'.device u).stub = false) := by
  induction wants generalizing m with
  | nil => exact ⟨m, none, rfl, consistent, .refl m, by simp [refusedFirst], by simp⟩
  | cons first rest ih =>
    cases first with
    | known => exact ih consistent
    | refused r =>
      exact ⟨m, some r, rfl, consistent, .refl m, by simp, by simp [refusedFirst]⟩
    | loaded pulled otherNames =>
      obtain ⟨m1, dispatched, here, grown, loaded⟩ := managerDispatchLoadQueue_spec consistent pulled
      have counted : Consistent { m1 with otherNames := otherNames } :=
        ⟨here.sound, here.known, here.nodup, here.fresh, here.named⟩
      obtain ⟨m', r, added, there, grown', _⟩ := ih counted
      refine ⟨m', r, ?_, there, grown.trans ⟨grown'.sharing, grown'.live, grown'.loaded⟩,
        by simp [refusedFirst], fun _ _ u mem queued => ?_⟩
      · rw [addWants, dispatched]
        exact added
      · exact grown'.loaded u (grown.live u mem) (loaded u mem queued)

def failsEarly (dev : UdevDevice) (count : Nat) : Bool :=
  (dev.systemdAlias.any fun path => Mounts.isPath path && !nameAccepted (unitOf path) count) ||
    refusedFirst dev.wants

theorem addAlias_spec (consistent : Consistent m) (u : UnitId) (mem : u ∈ m.live) (dev : UdevDevice) :
    addAlias m u dev = .error .assertion ∨
      ∃ m' r, addAlias m u dev = .ok (m', r) ∧ Consistent m' ∧ Renamed m m' ∧
        (r ≠ none ↔ (dev.systemdAlias.any fun path => Mounts.isPath path &&
          !nameAccepted (unitOf path) (m.units.length + m.otherNames)) = true) := by
  unfold addAlias
  cases named : dev.systemdAlias with
  | none => exact .inr ⟨m, none, rfl, consistent, .refl m, by simp⟩
  | some path =>
    by_cases path' : Mounts.isPath path = true
    · by_cases absolute : pathIsAbsolute path.bytes = true
      · obtain ⟨here, renamed, accepted⟩ := deviceAddEscapedName_spec consistent u mem path
        refine .inr ⟨_, _, by simp only [path', absolute]; rfl, here, renamed, ?_⟩
        refine (not_congr accepted).trans ?_
        simp [path']
      · exact .inl (by simp only [path', absolute]; rfl)
    · exact .inr ⟨m, none, by simp only [path']; rfl, consistent, .refl m, by simp [path']⟩

theorem addProperties_spec (consistent : Consistent m) (u : UnitId) (mem : u ∈ m.live)
    (dev : UdevDevice) :
    addProperties m u dev = .error .assertion ∨
      ∃ m' r, addProperties m u dev = .ok (m', r) ∧ Consistent m' ∧ m'.sharing = m.sharing ∧
        (failsEarly dev (m.units.length + m.otherNames) = true ->
          r ≠ none ∧ (m'.device u).stub = (m.device u).stub) ∧
        (failsEarly dev (m.units.length + m.otherNames) = false -> r ≠ none -> u ∈ m.loadQueue ->
          (m'.device u).stub = false) := by
  unfold addProperties
  rcases addAlias_spec consistent u mem dev with failed | ⟨m1, r1, aliased, here, renamed, refused⟩
  · exact .inl (by rw [failed]; rfl)
  rw [aliased]
  cases r1 with
  | some r =>
    have early : failsEarly dev (m.units.length + m.otherNames) = true := by
      simp [failsEarly, refused.mp (by simp)]
    exact .inr ⟨m1, some r, rfl, here, renamed.sharing, fun _ => ⟨by simp, renamed.stub u⟩,
      fun late => by simp [early] at late⟩
  | none =>
    have same : failsEarly dev (m.units.length + m.otherNames) = refusedFirst dev.wants := by
      have accepted := mt refused.mpr (by simp)
      simp [failsEarly, Bool.eq_false_iff.mpr accepted]
    obtain ⟨m', r, added, there, grown, early, late⟩ := addWants_spec here dev.wants
    refine .inr ⟨m', r, added, there, grown.sharing.trans renamed.sharing, ?_, ?_⟩
    · rw [same]
      intro first
      obtain ⟨failed, rfl⟩ := early first
      exact ⟨failed, renamed.stub u⟩
    · rw [same]
      intro first failed queued
      refine late first failed u ?_ ?_
      · exact renamed.live.symm ▸ mem
      · exact renamed.loadQueue.symm ▸ queued

/-- A unit that device_update_unit() makes is not thrown away again after it has been put into its list
and before it has been loaded. -/
def Completes (m : DeviceManager) (dev : UdevDevice) (path : CString) (main : Bool) : Prop :=
  main = true -> m.units.get (unitOf path) = none ->
    nameAccepted (unitOf path) (m.units.length + m.otherNames) = true ->
      failsEarly dev (m.units.length + 1 + m.otherNames) = false

theorem fillUnit_cases (consistent : Consistent m) (u : UnitId) (mem : u ∈ m.live) (dev : UdevDevice)
    (main delete : Bool) (queued : delete = true -> u ∈ m.loadQueue) :
    fillUnit m u dev main delete = .error .assertion ∨
      ∃ m' r, fillUnit m u dev main delete = .ok (m', r) ∧
        ((delete = true -> main = true ->
          failsEarly dev (m.units.length + m.otherNames) = false) -> Consistent m') ∧
        (delete = true -> main = true -> (m.device u).stub = true ->
          failsEarly dev (m.units.length + m.otherNames) = true -> Stray m') := by
  obtain ⟨sharing, set, here, keys⟩ := setSysfs_spec consistent u mem dev.syspath
  have held : sharing.key u ≠ none := by
    rw [keys, update_self]
    cases m.sysfs u <;> simp
  unfold fillUnit
  rw [set]
  cases main with
  | false => exact .inr ⟨_, none, rfl, fun _ => here, fun _ main => by cases main⟩
  | true =>
    rcases addProperties_spec here u mem dev with failed | ⟨m1, r, added, named, same, early, late⟩
    · exact .inl (by simp only [bind, Except.bind, if_true, failed])
    · simp only [bind, Except.bind, if_true, added]
      change failsEarly dev (m.units.length + m.otherNames) = true ->
        r ≠ none ∧ (m1.device u).stub = (m.device u).stub at early
      change failsEarly dev (m.units.length + m.otherNames) = false -> r ≠ none -> u ∈ m.loadQueue ->
        (m1.device u).stub = false at late
      by_cases thrown : (r.isSome && delete) = true
      · obtain ⟨failing, deleting⟩ := (Bool.and_eq_true _ _).mp thrown
        obtain ⟨m2, freed, _, kept, stray⟩ := unitFree_cases named u
        rw [if_pos thrown, freed]
        refine .inr ⟨m2, r, rfl, fun fine => kept fun stub => ?_, fun _ _ stub first => ?_⟩
        · have loaded := late (fine deleting trivial) (isSome_iff_ne_none.mp failing) (queued deleting)
          simp [loaded] at stub
        · refine stray ((early first).2.trans stub) ?_
          rw [DeviceManager.sysfs, same]
          exact held
      · rw [if_neg thrown]
        refine .inr ⟨m1, r, rfl, fun _ => named, fun deleting _ _ first => ?_⟩
        have failing := isSome_iff_ne_none.mpr (early first).1
        exact absurd (by simp [failing, deleting]) thrown

theorem deviceUpdateUnit_cases (consistent : Consistent m) (dev : UdevDevice) (path : CString)
    (main : Bool) :
    deviceUpdateUnit m dev path main = .error .assertion ∨
      ∃ m' r, deviceUpdateUnit m dev path main = .ok (m', r) ∧
        (Completes m dev path main -> Consistent m') ∧ (¬ Completes m dev path main -> Stray m') := by
  unfold deviceUpdateUnit
  cases found : m.units.get (unitOf path) with
  | some u =>
    have completes : Completes m dev path main := fun _ none => by simp [found] at none
    have mem := ((consistent.named _ u).mp found).1
    simp only
    split
    · exact .inr ⟨m, _, rfl, fun _ => consistent, fun other => absurd completes other⟩
    · rcases fillUnit_cases consistent u mem dev main false (by simp) with failed | ⟨m', r, filled, kept, _⟩
      · exact .inl failed
      · exact .inr ⟨m', r, filled, fun _ => kept (by simp), fun other => absurd completes other⟩
  | none =>
    have fresh := consistent.unitNew
    have free := unitNew_free consistent
    have mem : (unitNew m).2 ∈ (unitNew m).1.live := mem_cons_self
    have stub : ((unitNew m).1.device (unitNew m).2).stub = true := by simp [unitNew]
    have count : (unitNew m).1.units.length + (unitNew m).1.otherNames =
        m.units.length + m.otherNames := rfl
    obtain ⟨named, renamed, accepted⟩ := deviceAddEscapedName_spec fresh (unitNew m).2 mem path
    have first := deviceAddEscapedName_first (m := (unitNew m).1) (unitNew m).2 path found
      (by simp [unitNew])
    simp only
    cases added : deviceAddEscapedName (unitNew m).1 (unitNew m).2 path with
    | mk m1 r =>
      rw [added] at named renamed accepted first
      have stub1 : (m1.device (unitNew m).2).stub = true := (renamed.stub _).trans stub
      have loose : m1.sysfs (unitNew m).2 = none := by
        rw [DeviceManager.sysfs, renamed.sharing]
        exact free
      cases r with
      | some r =>
        have refused : ¬ nameAccepted (unitOf path) (m.units.length + m.otherNames) = true := by
          rw [← count, ← accepted]
          simp
        have completes : Completes m dev path main := fun _ _ accepted => absurd accepted refused
        obtain ⟨m', freed, _, kept, _⟩ := unitFree_cases named (unitNew m).2
        refine .inr ⟨m', some r, by simp only [freed, bind, Except.bind], fun _ => kept fun _ => loose,
          fun other => absurd completes other⟩
      | none =>
        have fine := accepted.mp rfl
        have length : m1.units.length + m1.otherNames = m.units.length + 1 + m.otherNames := by
          have state : m1 = _ := first rfl
          simp [state, unitNew, DeviceManager.update]
        have queued := named.loadQueue ((unitNew m).2 :: m1.loadQueue)
        have member1 : (unitNew m).2 ∈ m1.live := by
          rw [renamed.live]
          exact mem
        rcases fillUnit_cases queued (unitNew m).2 member1 dev main true
            fun _ => mem_cons_self with
          failed | ⟨m', r, filled, kept, stray⟩
        · exact .inl failed
        · refine .inr ⟨m', r, filled, fun completes => kept fun _ isMain => ?_, fun thrown => ?_⟩
          · exact (congrArg _ length).trans (completes isMain found fine)
          · simp only [Completes, Classical.not_imp] at thrown
            obtain ⟨isMain, _, _, refused⟩ := thrown
            refine stray rfl isMain stub1 ?_
            exact (congrArg _ length).trans (Bool.eq_true_of_not_eq_false refused)

end Systemd.Devices
