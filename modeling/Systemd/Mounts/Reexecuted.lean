import Systemd.Mounts.Coldplug

set_option autoImplicit false

namespace Systemd.Coldplug

open List Function

open Serialization (ItemKey)
open Mounts (MountState MountExecCommand MountLine MountManager)
open Swaps (SwapState SwapLine SwapManager PulledIn)

theorem itemKey_text {key : ItemKey} (mem : key ∈ itemKeys) : itemKey key.text = some key := by
  revert key
  decide

section

variable {S C : Type} {T : TableType S C}

structure TableType.Readable (T : TableType S C) : Prop where
  states : ∀ state, T.stateFromString (.ofString (T.stateText state)) = some state
  commands : ∀ id, T.commandFromString (.ofString (T.commandText id)) = some id

theorem mountType_readable : mountType.Readable :=
  ⟨fun state => by cases state <;> decide, fun id => by cases id <;> decide⟩

theorem swapType_readable : swapType.Readable :=
  ⟨fun state => by cases state <;> decide, fun id => by cases id <;> decide⟩

variable {old : TableUnit S C} {front back : List Step}

theorem deserialize_serialize (readable : T.Readable) (idle : old.controlPid ≤ 0) (u : TableUnit S C) :
    ∃ id, (T.serialize old).foldl (fun u item => T.deserializeItem item.1.text item.2 u) u =
      { u with
        deserializedState := old.state
        failure := old.failure || u.failure
        controlCommandId := id } := by
  have state (u : TableUnit S C) : T.deserializeItem ItemKey.state.text
      (.ofString (T.stateText old.state)) u = { u with deserializedState := old.state } := by
    unfold TableType.deserializeItem
    rw [itemKey_text (by simp [itemKeys])]
    simp [readable.states]
  have failure (u : TableUnit S C) : T.deserializeItem ItemKey.failure.text
      (.ofString (Serialization.yesNo old.failure)) u = { u with failure := old.failure || u.failure } := by
    unfold TableType.deserializeItem
    rw [itemKey_text (by simp [itemKeys])]
    simp [Services.parseBoolean_yesNo]
  have command (id : C) (u : TableUnit S C) : T.deserializeItem ItemKey.controlCommand.text
      (.ofString (T.commandText id)) u = { u with controlCommandId := some id } := by
    unfold TableType.deserializeItem
    rw [itemKey_text (by simp [itemKeys])]
    simp [readable.commands]
  unfold TableType.serialize
  rw [if_neg (Int32.not_lt.mpr idle)]
  cases known : old.controlCommandId with
  | none => exact ⟨u.controlCommandId, by simp [state, failure]⟩
  | some id => exact ⟨some id, by simp [state, failure, command]⟩

variable [DecidableEq S]

theorem coldplug_present {u : TableUnit S C} (fresh : u.state = T.dead) (idle : u.controlPid ≤ 0)
    (watched : Bool) :
    (T.coldplug watched u).1.state = T.present ↔
      u.deserializedState = T.present ∨ (u.deserializedState = T.dead ∧ u.fromTable = true) := by
  have apart := T.apart
  have set (state : S) : (T.setState state u).state = state := by
    unfold TableType.setState
    split
    · rfl
    · rfl
  unfold TableType.coldplug
  rw [fresh]
  by_cases read : u.deserializedState = T.dead
  · cases listed : u.fromTable with
    | false => simp [read, fresh, apart.symm]
    | true => simp [read, apart, T.uncontrolled, set]
  · by_cases controlled : T.controlled u.deserializedState = true
    · have other : u.deserializedState ≠ T.present := fun same => by
        rw [same, T.uncontrolled] at controlled
        cases controlled
      simp [read, controlled, idle, fresh, apart.symm, other]
    · simp [read, controlled, set]

variable {m : Units S C} {taken : CString -> Prop} {name : CString}

omit [DecidableEq S]

@[simp] theorem Units.update_unit_self (m : Units S C) (name : CString)
    (change : TableUnit S C -> TableUnit S C) : (m.update name change).unit name = change (m.unit name) :=
  update_self _ _ _

@[simp] theorem Units.update_unit_of_ne (m : Units S C) {other : CString} (ne : other ≠ name)
    (change : TableUnit S C -> TableUnit S C) : (m.update name change).unit other = m.unit other :=
  update_of_ne ne _ _

theorem refused_mono {count more : Nat} (le : count ≤ more) (no : refused name count = true) :
    refused name more = true := by
  unfold refused at no ⊢
  simp only [Bool.or_eq_true, decide_eq_true_eq] at no ⊢
  exact no.imp_right fun full => full.trans le

/-- The table has been read: a unit knows whether it is in it, and there is none for a line of the table
only if its name is refused. -/
structure Enumerated (T : TableType S C) (taken : CString -> Prop) (m : Units S C) : Prop where
  unlisted : ∀ name ∉ m.unitsByType, m.unit name = T.init
  told : ∀ name ∈ m.unitsByType, (m.unit name).fromTable = true ↔ taken name
  refused : ∀ name ∉ m.unitsByType, taken name ->
    refused name (m.unitsByType.length + m.otherNames) = true

section

variable (enumerated : Enumerated T taken m)
include enumerated

theorem managerLoadUnit_enumerated (name : CString) :
    Enumerated T taken (m.managerLoadUnit T name).1 ∧
      ((m.managerLoadUnit T name).2 = true ↔ name ∈ (m.managerLoadUnit T name).1.unitsByType) ∧
      (m.managerLoadUnit T name).1.unit = m.unit := by
  unfold Units.managerLoadUnit
  by_cases known : name ∈ m.unitsByType
  · rw [if_pos known]
    exact ⟨enumerated, by simp [known], rfl⟩
  rw [if_neg known]
  by_cases no : refused name (m.unitsByType.length + m.otherNames) = true
  · rw [if_pos no]
    exact ⟨enumerated, by simp [known], rfl⟩
  rw [if_neg no]
  have same : update m.unit name T.init = m.unit := by
    rw [← enumerated.unlisted name known, update_eq_self]
  refine ⟨⟨fun other absent => ?_, fun other mem => ?_, fun other absent line => ?_⟩, by simp, same⟩
  · rw [same]
    exact enumerated.unlisted other fun mem => absent (mem_cons_of_mem _ mem)
  · rw [same]
    rcases mem_cons.mp mem with rfl | old
    · have untaken : ¬ taken other := fun line => no (enumerated.refused other known line)
      rw [enumerated.unlisted other known]
      exact iff_of_false (by simp [TableType.init]) untaken
    · exact enumerated.told other old
  · have before := enumerated.refused other (fun mem => absent (mem_cons_of_mem _ mem)) line
    exact refused_mono (by simp) before

theorem Enumerated.update (mem : name ∈ m.unitsByType) (change : TableUnit S C -> TableUnit S C)
    (same : (change (m.unit name)).fromTable = (m.unit name).fromTable) :
    Enumerated T taken (m.update name change) where
  unlisted := by
    intro other absent
    have ne : other ≠ name := fun eq => absent (eq ▸ mem)
    rw [Units.update_unit_of_ne m ne]
    exact enumerated.unlisted other absent
  told := by
    intro other listed
    by_cases here : other = name
    · subst here
      rw [Units.update_unit_self, same]
      exact enumerated.told other listed
    · rw [Units.update_unit_of_ne m here]
      exact enumerated.told other listed
  refused := enumerated.refused

theorem Enumerated.otherNames (count : Nat) :
    Enumerated T taken { m with otherNames := m.otherNames + count } where
  unlisted := enumerated.unlisted
  told := enumerated.told
  refused := fun name absent line =>
    refused_mono (Nat.add_le_add_left (Nat.le_add_right _ _) _) (enumerated.refused name absent line)

end

theorem deserializeItem_kept (key value : CString) (u : TableUnit S C) :
    (T.deserializeItem key value u).fromTable = u.fromTable ∧
      (T.deserializeItem key value u).state = u.state := by
  unfold TableType.deserializeItem
  split
  · cases T.stateFromString value <;> exact ⟨rfl, rfl⟩
  · cases Services.parseBoolean value <;> exact ⟨rfl, rfl⟩
  · cases Serialization.parsePid value <;> exact ⟨rfl, rfl⟩
  · cases T.commandFromString value <;> exact ⟨rfl, rfl⟩
  · exact ⟨rfl, rfl⟩

theorem deserialize_kept (items : List (ItemKey × CString)) (u : TableUnit S C) :
    (items.foldl (fun u item => T.deserializeItem item.1.text item.2 u) u).fromTable = u.fromTable := by
  refine List.foldlRecOn (motive := fun u' : TableUnit S C => u'.fromTable = u.fromTable) items _ rfl ?_
  exact fun u' same item _ => ((deserializeItem_kept item.1.text item.2 u').1).trans same

theorem managerDeserialize_record {m' : Units S C} {ok : Bool} (loaded : m.managerLoadUnit T name = (m', ok))
    (items : List (ItemKey × CString)) (rest : List Step) :
    managerDeserialize T (.record name items :: rest) m =
      if ok then
        managerDeserialize T rest
          (m'.update name fun u => items.foldl (fun u item => T.deserializeItem item.1.text item.2 u) u)
      else (m', false) := by
  rw [managerDeserialize, loaded]
  cases ok with
  | false => rfl
  | true => rfl

theorem managerDeserialize_enumerated (steps : List Step) (enumerated : Enumerated T taken m) :
    Enumerated T taken (managerDeserialize T steps m).1 := by
  induction steps generalizing m with
  | nil => exact enumerated
  | cons step rest ih =>
    cases step with
    | otherNames count => exact ih (enumerated.otherNames count)
    | pulledIn name => exact ih (managerLoadUnit_enumerated enumerated name).1
    | unreadable => exact enumerated
    | record name items =>
      obtain ⟨loaded, found, _⟩ := managerLoadUnit_enumerated enumerated name
      cases result : m.managerLoadUnit T name with
      | mk m' ok =>
        rw [result] at loaded found
        rw [managerDeserialize_record result]
        cases ok with
        | false => exact loaded
        | true => exact ih (loaded.update (found.mp rfl) _ (deserialize_kept items _))

def Spared (name : CString) (steps : List Step) : Prop :=
  ∀ items, Step.record name items ∉ steps

theorem Spared.tail {step : Step} {steps : List Step} (spared : Spared name (step :: steps)) :
    Spared name steps :=
  fun items mem => spared items (mem_cons_of_mem _ mem)

theorem managerDeserialize_spared (steps : List Step) (enumerated : Enumerated T taken m)
    (spared : Spared name steps) : (managerDeserialize T steps m).1.unit name = m.unit name := by
  induction steps generalizing m with
  | nil => rfl
  | cons step rest ih =>
    cases step with
    | otherNames count => exact ih (enumerated.otherNames count) spared.tail
    | pulledIn other =>
      obtain ⟨loaded, _, same⟩ := managerLoadUnit_enumerated enumerated other
      exact (ih loaded spared.tail).trans (congrFun same name)
    | unreadable => rfl
    | record other items =>
      have ne : name ≠ other := fun eq => spared items (by simp [eq])
      obtain ⟨loaded, found, same⟩ := managerLoadUnit_enumerated enumerated other
      cases result : m.managerLoadUnit T other with
      | mk m' ok =>
        rw [result] at loaded found same
        rw [managerDeserialize_record result]
        cases ok with
        | false => exact congrFun same name
        | true =>
          have updated := loaded.update (found.mp rfl) (fun u => items.foldl
            (fun u item => T.deserializeItem item.1.text item.2 u) u) (deserialize_kept items _)
          refine (ih updated spared.tail).trans ?_
          rw [Units.update_unit_of_ne m' ne]
          exact congrFun same name

theorem managerDeserialize_append (front back : List Step) (m : Units S C) :
    managerDeserialize T (front ++ back) m =
      if (managerDeserialize T front m).2 then managerDeserialize T back (managerDeserialize T front m).1
      else managerDeserialize T front m := by
  induction front generalizing m with
  | nil => rfl
  | cons step rest ih =>
    cases step with
    | otherNames count => exact ih _
    | pulledIn name => exact ih _
    | unreadable => rfl
    | record name items =>
      cases result : m.managerLoadUnit T name with
      | mk m' ok =>
        rw [cons_append, managerDeserialize_record result, managerDeserialize_record result]
        cases ok with
        | false => rfl
        | true => exact ih _

/-- The record of a unit is read, if all records in front of it can be read and the unit is there. -/
def Reaches (T : TableType S C) (m : Units S C) (front : List Step) (name : CString)
    (items : List (ItemKey × CString)) : Prop :=
  (managerDeserialize T (front ++ [.record name items]) m).2 = true

theorem managerDeserialize_unit (enumerated : Enumerated T taken m) (before : Spared name front)
    (behind : Spared name back) (items : List (ItemKey × CString)) :
    (Reaches T m front name items ->
      (managerDeserialize T (front ++ .record name items :: back) m).1.unit name =
        items.foldl (fun u item => T.deserializeItem item.1.text item.2 u) (m.unit name)) ∧
    (¬ Reaches T m front name items ->
      (managerDeserialize T (front ++ .record name items :: back) m).1.unit name = m.unit name) := by
  have first := managerDeserialize_enumerated front enumerated
  have untouched := managerDeserialize_spared front enumerated before
  unfold Reaches
  rw [managerDeserialize_append front [.record name items], managerDeserialize_append front]
  cases front' : managerDeserialize T front m with
  | mk m1 reached =>
    rw [front'] at first untouched
    cases reached with
    | false => exact ⟨fun reads => absurd reads (by simp), fun _ => untouched⟩
    | true =>
      obtain ⟨loaded, found, same⟩ := managerLoadUnit_enumerated first name
      cases result : m1.managerLoadUnit T name with
      | mk m2 ok =>
        rw [result] at loaded found same
        simp only [if_true, managerDeserialize_record result]
        cases ok with
        | false =>
          refine ⟨fun reads => absurd reads (by simp), fun _ => ?_⟩
          exact (congrFun same name).trans untouched
        | true =>
          have updated := loaded.update (found.mp rfl) (fun u => items.foldl
            (fun u item => T.deserializeItem item.1.text item.2 u) u) (deserialize_kept items _)
          refine ⟨fun _ => ?_, fun fails => absurd rfl fails⟩
          refine (managerDeserialize_spared back updated behind).trans ?_
          have here : m2.unit name = m.unit name := (congrFun same name).trans untouched
          rw [Units.update_unit_self, here]

def Blank (T : TableType S C) (m : Units S C) : Prop :=
  ∀ name, ∃ fromTable, m.unit name = { T.init with fromTable := fromTable }

theorem startUp_present [DecidableEq S] (readable : T.Readable) (enumerated : Enumerated T taken m)
    (blank : Blank T m) (idle : old.controlPid ≤ 0) (before : Spared name front)
    (behind : Spared name back) (watched : CString -> Bool) (there : name ∈ (startUp T m (front ++
      .record name (T.serialize old) :: back) watched).unitsByType) :
    (Reaches T m front name (T.serialize old) ->
      (((startUp T m (front ++ .record name (T.serialize old) :: back) watched).unit name).state =
          T.present ↔
        old.state = T.present ∨ (old.state = T.dead ∧ taken name))) ∧
    (¬ Reaches T m front name (T.serialize old) ->
      (((startUp T m (front ++ .record name (T.serialize old) :: back) watched).unit name).state =
          T.present ↔ taken name)) := by
  obtain ⟨reads, unread⟩ := managerDeserialize_unit enumerated before behind (T.serialize old)
  have after := managerDeserialize_enumerated (front ++ .record name (T.serialize old) :: back) enumerated
  generalize deserialized : managerDeserialize T (front ++ .record name (T.serialize old) :: back) m =
    result at reads unread after
  have listed : name ∈ result.1.unitsByType := by
    simpa [startUp, managerColdplug, deserialized] using there
  have told := after.told name listed
  obtain ⟨fromTable, empty⟩ := blank name
  have plugged : ((startUp T m (front ++ .record name (T.serialize old) :: back) watched).unit name) =
      (T.coldplug (watched name) (result.1.unit name)).1 := by
    simp [startUp, managerColdplug, deserialized, listed]
  rw [plugged]
  constructor
  · intro reached
    obtain ⟨id, items⟩ := deserialize_serialize readable idle (m.unit name)
    have unit := (reads reached).trans items
    rw [unit] at told ⊢
    rw [empty] at told ⊢
    rw [coldplug_present rfl (by simp [TableType.init])]
    exact or_congr_right (and_congr_right fun _ => told)
  · intro fails
    rw [unread fails] at told ⊢
    rw [empty] at told ⊢
    rw [coldplug_present rfl (by simp [TableType.init])]
    have apart := T.apart.symm
    simpa [TableType.init, apart] using told

def Units.mark (T : TableType S C) (m : Units S C) (name : CString) : Units S C :=
  match m.managerLoadUnit T name with
  | (m, true) => m.update name fun u => { u with fromTable := true }
  | (m, false) => m

theorem Enumerated.congr (enumerated : Enumerated T taken m) {taken' : CString -> Prop}
    (same : ∀ name, taken name ↔ taken' name) : Enumerated T taken' m where
  unlisted := enumerated.unlisted
  told := fun name mem => (enumerated.told name mem).trans (same name)
  refused := fun name absent line => enumerated.refused name absent ((same name).mpr line)

theorem mark_enumerated (enumerated : Enumerated T taken m) (name : CString) :
    Enumerated T (fun other => taken other ∨ other = name) (m.mark T name) := by
  obtain ⟨loaded, found, _⟩ := managerLoadUnit_enumerated enumerated name
  unfold Units.mark
  cases result : m.managerLoadUnit T name with
  | mk m' ok =>
    rw [result] at loaded found
    cases ok with
    | true =>
      have mem := found.mp rfl
      refine ⟨fun other absent => ?_, fun other listed => ?_, fun other absent line => ?_⟩
      · have ne : other ≠ name := fun same => absent (same ▸ mem)
        rw [Units.update_unit_of_ne m' ne]
        exact loaded.unlisted other absent
      · by_cases here : other = name
        · simp [here]
        · rw [Units.update_unit_of_ne m' here, or_iff_left here]
          exact loaded.told other listed
      · have ne : other ≠ name := fun same => absent (same ▸ mem)
        exact loaded.refused other absent (line.resolve_right ne)
    | false =>
      have absent : name ∉ m'.unitsByType := fun mem => by simpa using found.mpr mem
      have no : m' = m ∧ Coldplug.refused name (m.unitsByType.length + m.otherNames) = true := by
        unfold Units.managerLoadUnit at result
        split at result
        · cases result
        · split at result
          · rename_i no
            exact ⟨(congrArg Prod.fst result).symm, no⟩
          · cases result
      obtain ⟨rfl, no⟩ := no
      refine ⟨loaded.unlisted, fun other listed => ?_, fun other missing line => ?_⟩
      · have ne : other ≠ name := fun same => absent (same ▸ listed)
        rw [or_iff_left ne]
        exact loaded.told other listed
      · rcases line with line | rfl
        · exact loaded.refused other missing line
        · exact no

end

section mounts

def ofMounts (m : MountManager) : Units MountState MountExecCommand where
  unitsByType := m.unitsByType
  unit := fun name => { mountType.init with fromTable := (m.mount name).fromProcSelfMountinfo }
  otherNames := m.otherNames

theorem mount_refused (m : MountManager) (name : CString) :
    refused name (m.unitsByType.length + m.otherNames) = (Mounts.unitAddName m name).isSome := by
  unfold refused Mounts.unitAddName
  by_cases wrong : unitNameIsTemplate name ∨ unitNameIsValid name false = false ∨
      unitNameToInstance name ≠ some none
  · rw [if_pos wrong]
    rcases wrong with wrong | wrong | wrong <;> simp [wrong]
  · rw [if_neg wrong]
    simp only [not_or] at wrong
    obtain ⟨template, valid, instanced⟩ := wrong
    by_cases full : m.unitsByType.length + m.otherNames ≥ managerMaxNames
    · simp [full]
    · simp [template, valid, instanced, full]

theorem mountAddOne_marks {m : MountManager} {line : MountLine} (read : line.skipped = false) :
    ofMounts (Mounts.mountAddOne m line true false).1 =
      (ofMounts m).mark mountType (Mounts.unitOf line.place) := by
  generalize unit' : Mounts.unitOf line.place = unit
  have no := mount_refused m unit
  by_cases named : unit ∈ m.unitsByType
  · have added : Mounts.mountAddOne m line true false =
        (m.update unit fun mount => Mounts.fromMountinfoLine line false mount, none) := by
      simp [Mounts.mountAddOne, read, unit', named]
    have marked : (ofMounts m).mark mountType unit =
        (ofMounts m).update unit fun u => { u with fromTable := true } := by
      simp [Units.mark, Units.managerLoadUnit, ofMounts, named]
    rw [added, marked]
    refine Units.ext rfl (funext fun other => ?_) rfl
    by_cases same : other = unit
    · simp [ofMounts, same, Mounts.fromMountinfoLine]
    · simp [ofMounts, same]
  · cases failed : Mounts.unitAddName m unit with
    | some r =>
      have added : Mounts.mountAddOne m line true false = (m, some r) := by
        simp [Mounts.mountAddOne, read, unit', named, failed]
      have marked : (ofMounts m).mark mountType unit = ofMounts m := by
        rw [failed] at no
        simp [Units.mark, Units.managerLoadUnit, ofMounts, named, no]
      rw [added, marked]
    | none =>
      have added : Mounts.mountAddOne m line true false =
          ((Mounts.unitNew m unit).update unit fun mount => Mounts.fromMountinfoLine line false mount,
            none) := by
        simp [Mounts.mountAddOne, read, unit', named, failed]
      have marked : (ofMounts m).mark mountType unit =
          Units.update
            { ofMounts m with
              unitsByType := unit :: m.unitsByType
              unit := update (ofMounts m).unit unit mountType.init } unit
            fun u => { u with fromTable := true } := by
        rw [failed] at no
        simp [Units.mark, Units.managerLoadUnit, ofMounts, named, no]
      rw [added, marked]
      refine Units.ext rfl (funext fun other => ?_) rfl
      by_cases same : other = unit
      · simp [ofMounts, same, Mounts.fromMountinfoLine]
      · simp [ofMounts, same, Mounts.unitNew]

theorem listed_append (table : List MountLine) (line : MountLine) (name : CString) :
    Mounts.Listed (table ++ [line]) name ↔
      Mounts.Listed table name ∨ (line.skipped = false ∧ Mounts.unitOf line.place = name) := by
  simp [Mounts.Listed, or_and_right, exists_or]

theorem readLines_enumerated (table done : List MountLine) (soFar : MountManager × Option RegistryErrno)
    (enumerated : Enumerated mountType (Mounts.Listed done) (ofMounts soFar.1)) :
    Enumerated mountType (Mounts.Listed (done ++ table))
      (ofMounts (table.foldl (Mounts.readLine true false) soFar).1) := by
  induction table generalizing soFar done with
  | nil => simpa using enumerated
  | cons line rest ih =>
    have next : Enumerated mountType (Mounts.Listed (done ++ [line]))
        (ofMounts (Mounts.readLine true false soFar line).1) := by
      change Enumerated _ _ (ofMounts (Mounts.mountAddOne soFar.1 line true false).1)
      cases read : line.skipped with
      | true =>
        rw [Mounts.mountAddOne_skipped read]
        exact enumerated.congr fun name => by simp [listed_append, read]
      | false =>
        rw [mountAddOne_marks read]
        exact (mark_enumerated enumerated _).congr fun name => by
          simp [listed_append, read, eq_comm]
    simpa using ih (done ++ [line]) _ next

theorem mountEnumerate_enumerated (early : Early CString MountLine) (table : List MountLine) :
    Enumerated mountType (Mounts.Listed table) (mountEnumerate early table) ∧
      Blank mountType (mountEnumerate early table) := by
  refine ⟨?_, fun name => ⟨_, rfl⟩⟩
  let start : MountManager := { otherNames := early.otherNames }
  have pulled : (early.pulled.foldl Mounts.pullIn start).Known ∧
      (early.pulled.foldl Mounts.pullIn start).mount = start.mount := by
    refine List.foldlRecOn (motive := fun m : MountManager => m.Known ∧ m.mount = start.mount)
      early.pulled Mounts.pullIn ⟨⟨nodup_nil, fun _ _ => rfl⟩, rfl⟩ ?_
    intro m ⟨known, same⟩ name _
    exact ⟨(Mounts.pullIn_kept known name).1, (Mounts.pullIn_kept known name).2.trans same⟩
  have unmarked (name : CString) : ((early.fstab.foldl (Mounts.readLine false false)
      (early.pulled.foldl Mounts.pullIn start, none)).1.mount name).fromProcSelfMountinfo = false := by
    obtain ⟨_, _, described⟩ := Mounts.fstab_mount pulled.1 early.fstab none name
    rw [described, pulled.2]
  have first : Enumerated mountType (Mounts.Listed [])
      (ofMounts (early.fstab.foldl (Mounts.readLine false false)
        (early.pulled.foldl Mounts.pullIn start, none)).1) := by
    refine ⟨fun name _ => ?_, fun name _ => ?_, fun name _ line => ?_⟩
    · simp [ofMounts, unmarked, TableType.init]
    · simp [ofMounts, unmarked, Mounts.Listed]
    · simp [Mounts.Listed] at line
  exact readLines_enumerated table [] (_, none) first

end mounts

end Systemd.Coldplug
