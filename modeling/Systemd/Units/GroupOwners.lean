import Systemd.Basic.CString
import Systemd.Shared.Reached
import Systemd.Shared.Sharing

set_option autoImplicit false

namespace Systemd.GroupIndex

open Sharing

abbrev BondingId := Nat

structure CGroupBonding (U : Type) where
  controller : Option CString
  path : CString
  unit : Option U := none
  ours : Bool
  realized : Bool := false

def systemdCgroupController : CString := .ofString "name=systemd"

/-- The bondings of a manager: the memory behind their addresses, the list of each unit, and in `index`
the table m->cgroup_bondings with the lists of the bondings that share a path. The table uses the
paths of the bondings as its keys. -/
structure Bondings (U : Type) where
  bonding : BondingId -> Option (CGroupBonding U)
  unitBondings : U -> List BondingId
  index : Shared BondingId CString

def empty {U : Type} : Bondings U where
  bonding := fun _ => none
  unitBondings := fun _ => []
  index := .empty

inductive GroupCall where
  | delete (controller path : CString)
  | trim (controller path : CString)

variable {U : Type}

def groupCall (bonding : CGroupBonding U) (removeOrTrim isEmpty : Bool) : Option GroupCall :=
  if bonding.realized && bonding.ours && removeOrTrim then
    bonding.controller.map fun controller =>
      if isEmpty then .delete controller bonding.path else .trim controller bonding.path
  else none

-- A bonding without a controller is one to the groups that systemd manages.
def CGroupBonding.withController (bonding : CGroupBonding U) : CGroupBonding U :=
  match bonding.controller with
  | none => { bonding with controller := some systemdCgroupController, ours := true }
  | some _ => bonding

namespace Bondings

def listedPath (m : Bondings U) (b : BondingId) : Option CString :=
  match m.bonding b with
  | some bonding =>
    if bonding.unit.isSome ∧ bonding.controller = some systemdCgroupController then
      some bonding.path
    else none
  | none => none

-- The bonding is put in front of the list of its path. none: a read of freed memory.
def addToIndex (m : Bondings U) (b : BondingId) (bonding : CGroupBonding U) :
    Option (Shared BondingId CString) :=
  if bonding.controller = some systemdCgroupController then m.index.join b bonding.path
  else some m.index

-- The entry of a list that goes on is given the path of the bonding that is freed. none: a read of
-- freed memory, or the assertion that there is an entry fails.
def removeFromIndex (m : Bondings U) (b : BondingId) (bonding : CGroupBonding U) :
    Option (Shared BondingId CString) :=
  if bonding.controller = some systemdCgroupController then
    match m.index.get bonding.path with
    | some (some _) => m.index.leave (fun item _ => item) b
    | _ => none
  else some m.index

variable [DecidableEq U]

def unitAddCgroup (m : Bondings U) (u : U) (b : BondingId) : Option (Bondings U) :=
  match m.bonding b with
  | none => none
  | some bonding =>
    let bonding := bonding.withController
    if bonding.unit.isSome then none
    else
      (m.addToIndex b bonding).map fun index =>
        { bonding := Function.update m.bonding b (some { bonding with unit := some u })
          unitBondings := Function.update m.unitBondings u (b :: m.unitBondings u)
          index := index }

def unlinkBonding (m : Bondings U) (b : BondingId) (bonding : CGroupBonding U) : Option (Bondings U) :=
  match bonding.unit with
  | none => some m
  | some u =>
    (m.removeFromIndex b bonding).map fun index =>
      { m with
        unitBondings := Function.update m.unitBondings u ((m.unitBondings u).erase b)
        index := index }

def cgroupBondingFree (m : Bondings U) (b : BondingId) (removeOrTrim isEmpty : Bool) :
    Option (Bondings U × Option GroupCall) :=
  match m.bonding b with
  | none => none
  | some bonding =>
    (m.unlinkBonding b bonding).map fun m =>
      ({ m with bonding := Function.update m.bonding b none },
        groupCall bonding removeOrTrim isEmpty)

def freeEach (removeOrTrim : Bool) (isEmpty : BondingId -> Bool) (m : Bondings U) (b : BondingId) :
    Option (Bondings U) :=
  (m.cgroupBondingFree b removeOrTrim (isEmpty b)).map Prod.fst

def cgroupBondingFreeList (m : Bondings U) (first : List BondingId) (removeOrTrim : Bool)
    (isEmpty : BondingId -> Bool) : Option (Bondings U) :=
  first.foldlM (freeEach removeOrTrim isEmpty) m

-- The part of unit_free() that is about the bondings.
def unitFree (m : Bondings U) (u : U) (nReloading : Nat) (isEmpty : BondingId -> Bool) :
    Option (Bondings U) :=
  m.cgroupBondingFreeList (m.unitBondings u) (nReloading = 0) isEmpty

end Bondings

/-- What happens to the bondings of a manager. Whoever adds one has allocated it and filled it in. -/
inductive Event (U : Type) where
  | allocate (b : BondingId) (controller : Option CString) (path : CString) (ours : Bool)
  | unitAddCgroup (u : U) (b : BondingId)
  | realize (b : BondingId)
  | cgroupBondingFree (b : BondingId) (removeOrTrim isEmpty : Bool)
  | unitFree (u : U) (nReloading : Nat) (isEmpty : BondingId -> Bool)

variable [DecidableEq U]

-- A manager that has failed an assertion or read freed memory is none, and takes no further steps.
def take : Event U -> Option (Bondings U) -> Option (Option (Bondings U))
  | _, none => none
  | .allocate b controller path ours, some m =>
    if m.bonding b = none then
      some (some { m with bonding := Function.update m.bonding b (some { controller, path, ours }) })
    else none
  | .unitAddCgroup u b, some m =>
    match m.bonding b with
    | some { unit := none, .. } => some (m.unitAddCgroup u b)
    | _ => none
  | .realize b, some m =>
    match m.bonding b with
    | some bonding =>
      some (some { m with
        bonding := Function.update m.bonding b (some { bonding with realized := true }) })
    | none => none
  | .cgroupBondingFree b removeOrTrim isEmpty, some m =>
    if (m.bonding b).isSome then some ((m.cgroupBondingFree b removeOrTrim isEmpty).map Prod.fst)
    else none
  | .unitFree u nReloading isEmpty, some m => some (m.unitFree u nReloading isEmpty)

/-- Each entry of the table leads to a list of exactly the live bondings with the path, and its key is
the path of one of them. -/
structure Indexed (m : Bondings U) : Prop where
  listed : ∀ path, ∃ nodes, m.index.links.Lists nodes ∧
    (∀ b, b ∈ nodes ↔ m.listedPath b = some path) ∧
    (m.index.table path).map Entry.first = nodes.head? ∧
    ∀ entry, m.index.table path = some entry -> entry.owner ∈ nodes
  keys : ∀ b, m.index.key b = m.listedPath b
  found : ∀ b path, m.listedPath b = some path -> ∃ f, m.index.get path = some (some f)

def InOrder (state : Option (Bondings U)) : Prop := ∃ m, state = some m ∧ Indexed m

def Alone (m : Bondings U) (b : BondingId) : Prop :=
  ∀ path, m.listedPath b = some path -> ∀ other, m.listedPath other = some path -> other = b

def Spares : Event U -> Option (Bondings U) -> Prop
  | .cgroupBondingFree b _ _, some m => Alone m b
  | .unitFree u _ _, some m => ∀ b ∈ m.unitBondings u, Alone m b
  | _, _ => True

end Systemd.GroupIndex

namespace Systemd.GroupIndex

open Sharing List Option Function

variable {U : Type}

structure Consistent (m : Bondings U) : Prop where
  sound : m.index.Sound
  keys : ∀ b, m.index.key b = m.listedPath b
  owned : ∀ u b, b ∈ m.unitBondings u ↔ ∃ bonding, m.bonding b = some bonding ∧ bonding.unit = some u
  once : ∀ u, (m.unitBondings u).Nodup

variable {m : Bondings U}

theorem Consistent.indexed (consistent : Consistent m) : Indexed m where
  listed := by
    intro path
    obtain ⟨nodes, listed⟩ := consistent.sound.listed path
    refine ⟨nodes, listed.lists, fun b => ?_, listed.first, listed.owner⟩
    rw [listed.members, consistent.keys]
  keys := consistent.keys
  found := by
    intro b path here
    obtain ⟨nodes, listed⟩ := consistent.sound.listed path
    have mem := (listed.members b).mpr ((consistent.keys b).trans here)
    obtain ⟨f, first⟩ := isSome_head?.mpr (ne_nil_of_mem mem) |> isSome_iff_exists.mp
    exact ⟨f, by rw [listed.get, first]⟩

theorem Indexed.not_dangling (indexed : Indexed m) (path : CString) : ¬ m.index.Dangling path := by
  rintro ⟨entry, found, lost⟩
  obtain ⟨nodes, _, members, _, owner⟩ := indexed.listed path
  rw [indexed.keys] at lost
  exact lost ((members _).mp (owner entry found))

theorem empty_consistent : Consistent (empty : Bondings U) where
  sound := Shared.empty_sound
  keys := fun _ => rfl
  owned := by simp [empty]
  once := fun _ => nodup_nil

theorem listedPath_update (m : Bondings U) (b c : BondingId) (bonding : Option (CGroupBonding U))
    (unitBondings : U -> List BondingId) (index : Shared BondingId CString) (ne : c ≠ b) :
    Bondings.listedPath ⟨update m.bonding b bonding, unitBondings, index⟩ c = m.listedPath c := by
  simp [Bondings.listedPath, ne]

theorem Consistent.set {m : Bondings U} (consistent : Consistent m) (b : BondingId)
    (bonding : CGroupBonding U)
    (same : ∀ path, Bondings.listedPath { m with bonding := update m.bonding b (some bonding) } b =
      some path ↔ m.listedPath b = some path)
    (units : ∀ u, bonding.unit = some u ↔ ∃ before, m.bonding b = some before ∧ before.unit = some u) :
    Consistent { m with bonding := update m.bonding b (some bonding) } where
  sound := consistent.sound
  keys := by
    intro c
    refine (consistent.keys c).trans ?_
    by_cases here : c = b
    · subst here
      exact (Option.ext same).symm
    · exact (listedPath_update m b c _ _ _ here).symm
  owned := by
    intro u c
    refine (consistent.owned u c).trans ?_
    by_cases here : c = b
    · subst here
      simpa using (units u).symm
    · simp [here]
  once := consistent.once

section

variable [DecidableEq U]

variable {m m' : Bondings U} {b : BondingId}

section

variable (consistent : Consistent m)
include consistent

theorem unitAddCgroup_consistent (u : U) (b : BondingId) (bonding : CGroupBonding U)
    (here : m.bonding b = some bonding) (fresh : bonding.unit = none) :
    ∃ m', m.unitAddCgroup u b = some m' ∧ Consistent m' := by
  let filled := bonding.withController
  have noUnit : filled.unit = none := by
    cases known : bonding.controller with
    | none => simpa [filled, CGroupBonding.withController, known] using fresh
    | some _ => simpa [filled, CGroupBonding.withController, known] using fresh
  have unlisted : m.listedPath b = none := by simp [Bondings.listedPath, here, fresh]
  have free : m.index.key b = none := (consistent.keys b).trans unlisted
  have notOwned : ∀ v, b ∉ m.unitBondings v := by
    intro v mem
    obtain ⟨_, found, unit⟩ := (consistent.owned v b).mp mem
    obtain rfl := Option.some.inj (here.symm.trans found)
    rw [fresh] at unit
    cases unit
  -- The index after the step has the key that the bonding is listed under.
  obtain ⟨index, joined, sound, keys⟩ : ∃ index, m.addToIndex b filled = some index ∧ index.Sound ∧
      index.key = update m.index.key b
        (if filled.controller = some systemdCgroupController then some filled.path else none) := by
    unfold Bondings.addToIndex
    by_cases systemd : filled.controller = some systemdCgroupController
    · obtain ⟨nodes, listed⟩ := consistent.sound.listed filled.path
      obtain ⟨index, joined, sound, keys, _⟩ := Shared.join_listed consistent.sound free listed
      exact ⟨index, by rw [if_pos systemd, joined], sound, by rw [keys, if_pos systemd]⟩
    · refine ⟨m.index, by rw [if_neg systemd], consistent.sound, ?_⟩
      rw [if_neg systemd, ← free, update_eq_self]
  let m' : Bondings U :=
    { bonding := update m.bonding b (some { filled with unit := some u })
      unitBondings := update m.unitBondings u (b :: m.unitBondings u)
      index := index }
  refine ⟨m', ?_, ⟨sound, fun c => ?_, fun v c => ?_, fun v => ?_⟩⟩
  · have started : bonding.withController.unit.isSome = false := isSome_eq_false_iff.mpr
      (isNone_iff_eq_none.mpr noUnit)
    simp only [Bondings.unitAddCgroup, here, started, Bool.false_eq_true, if_false]
    rw [joined]
    rfl
  · refine (congrFun keys c).trans ?_
    by_cases same : c = b
    · simp [same, Bondings.listedPath, m']
    · rw [update_of_ne same, consistent.keys, listedPath_update m b c _ _ _ same]
  · by_cases mine : v = u
    · subst mine
      by_cases same : c = b
      · simp [m', same]
      · simp [m', same, consistent.owned]
    · by_cases same : c = b
      · simp [m', mine, same, notOwned, Ne.symm mine]
      · simp [m', mine, same, consistent.owned]
  · by_cases mine : v = u
    · subst mine
      simp [m', notOwned v, consistent.once v]
    · simpa [m', mine] using consistent.once v

omit [DecidableEq U] in
theorem removeFromIndex_cases (b : BondingId) (bonding : CGroupBonding U)
    (here : m.bonding b = some bonding) (added : bonding.unit.isSome = true) :
    ∃ index, m.removeFromIndex b bonding = some index ∧
      index.key = update m.index.key b none ∧ (Alone m b -> index.Sound) ∧
      (¬ Alone m b -> ∃ path, index.Dangling path) := by
  unfold Bondings.removeFromIndex
  by_cases systemd : bonding.controller = some systemdCgroupController
  · have own : m.listedPath b = some bonding.path := by simp [Bondings.listedPath, here, added, systemd]
    obtain ⟨nodes, listed⟩ := consistent.sound.listed bonding.path
    have mem := (listed.members b).mpr ((consistent.keys b).trans own)
    obtain ⟨front, back, rfl⟩ := append_of_mem mem
    obtain ⟨index, left, keys, _, inherited, lost⟩ :=
      Shared.leave_listed (fun item _ => item) consistent.sound listed
    have nodup := nodup_middle.mp listed.lists.nodup
    have outside : b ∉ front ++ back := (nodup_cons.mp nodup).1
    have found : m.index.get bonding.path = some (front ++ b :: back).head? := listed.get
    obtain ⟨f, first⟩ := isSome_iff_exists.mp
      (isSome_head?.mpr (ne_nil_of_mem mem))
    rw [first] at found
    refine ⟨index, by rw [if_pos systemd, found]; exact left, keys, fun alone => ?_, fun shared => ?_⟩
    · have single : front ++ back = [] := by
        refine eq_nil_iff_forall_not_mem.mpr fun c inside => ?_
        have listedC : c ∈ front ++ b :: back := by
          rcases mem_append.mp inside with first | second
          · exact mem_append_left _ first
          · exact mem_append_right _ (mem_cons_of_mem _ second)
        have same := alone bonding.path own c ((consistent.keys c).symm.trans ((listed.members c).mp listedC))
        exact outside (same ▸ inside)
      exact (inherited fun next head => by simp [single] at head).1
    · simp only [Alone, not_forall] at shared
      obtain ⟨path, ownPath, c, otherPath, ne⟩ := shared
      obtain rfl := Option.some.inj (own.symm.trans ownPath)
      have inside := (listed.members c).mpr ((consistent.keys c).trans otherPath)
      have rest : c ∈ front ++ back := by
        rcases mem_append.mp inside with first | second
        · exact mem_append_left _ first
        · exact mem_append_right _ ((mem_cons.mp second).resolve_left ne)
      obtain ⟨next, head⟩ := isSome_iff_exists.mp
        (isSome_head?.mpr (ne_nil_of_mem rest))
      exact ⟨_, lost next head outside⟩
  · have unlisted : m.listedPath b = none := by simp [Bondings.listedPath, here, systemd]
    have free : m.index.key b = none := (consistent.keys b).trans unlisted
    refine ⟨m.index, by rw [if_neg systemd], ?_, fun _ => consistent.sound, fun shared => ?_⟩
    · rw [← free, update_eq_self]
    · refine absurd (fun path own => ?_) shared
      rw [unlisted] at own
      cases own

theorem cgroupBondingFree_cases (b : BondingId) (bonding : CGroupBonding U)
    (here : m.bonding b = some bonding) (removeOrTrim isEmpty : Bool) :
    ∃ m', (m.cgroupBondingFree b removeOrTrim isEmpty).map Prod.fst = some m' ∧
      m'.bonding = update m.bonding b none ∧
      (∀ u, m'.unitBondings u = (m.unitBondings u).erase b) ∧
      (Alone m b -> Consistent m') ∧ (¬ Alone m b -> ∃ path, m'.index.Dangling path) := by
  have notOwned : ∀ v, bonding.unit ≠ some v -> b ∉ m.unitBondings v := by
    intro v other mem
    obtain ⟨_, found, unit⟩ := (consistent.owned v b).mp mem
    obtain rfl := Option.some.inj (here.symm.trans found)
    exact other unit
  -- Whether or not it has been added to a unit.
  obtain ⟨m1, unlinked, memory, lists, keys, sound, dangling⟩ : ∃ m1, m.unlinkBonding b bonding = some m1 ∧
      m1.bonding = m.bonding ∧ (∀ u, m1.unitBondings u = (m.unitBondings u).erase b) ∧
      m1.index.key = update m.index.key b none ∧ (Alone m b -> m1.index.Sound) ∧
      (¬ Alone m b -> ∃ path, m1.index.Dangling path) := by
    unfold Bondings.unlinkBonding
    cases added : bonding.unit with
    | none =>
      have unlisted : m.listedPath b = none := by simp [Bondings.listedPath, here, added]
      refine ⟨m, rfl, rfl, fun u => ?_, ?_, fun _ => consistent.sound, fun shared => ?_⟩
      · rw [erase_of_not_mem (notOwned u (by simp [added]))]
      · rw [← unlisted, ← consistent.keys, update_eq_self]
      · refine absurd (fun path own => ?_) shared
        rw [unlisted] at own
        cases own
    | some u =>
      obtain ⟨index, removed, keys, sound, dangling⟩ :=
        removeFromIndex_cases consistent b bonding here (by simp [added])
      let m1 : Bondings U :=
        { m with
          unitBondings := update m.unitBondings u ((m.unitBondings u).erase b)
          index := index }
      refine ⟨m1, by simp only [removed, map_some]; rfl, rfl, fun v => ?_, keys, sound, dangling⟩
      by_cases mine : v = u
      · simp [m1, mine]
      · have other : bonding.unit ≠ some v := by simp [added, Ne.symm mine]
        simp [m1, mine, erase_of_not_mem (notOwned v other)]
  let m' : Bondings U := { m1 with bonding := update m1.bonding b none }
  refine ⟨m', ?_, by simp [m', memory], lists, fun alone => ⟨sound alone, fun c => ?_, fun v c => ?_, fun v => ?_⟩,
    dangling⟩
  · simp only [Bondings.cgroupBondingFree, here, unlinked, map_some]
    rfl
  · refine (congrFun keys c).trans ?_
    by_cases same : c = b
    · simp [same, Bondings.listedPath, m']
    · rw [update_of_ne same, consistent.keys, listedPath_update m1 b c _ _ _ same]
      simp only [Bondings.listedPath, memory]
  · simp only [m', lists, memory]
    by_cases same : c = b
    · subst same
      simp [List.Nodup.not_mem_erase (consistent.once v)]
    · rw [mem_erase_of_ne same, consistent.owned, update_of_ne same]
  · change (m1.unitBondings v).Nodup
    rw [lists]
    exact (consistent.once v).erase b

end

omit [DecidableEq U] in
theorem listedPath_freed (freed : m'.bonding = update m.bonding b none) (c : BondingId) :
    m'.listedPath c = if c = b then none else m.listedPath c := by
  by_cases same : c = b
  · simp [Bondings.listedPath, freed, same]
  · simp [Bondings.listedPath, freed, same]

omit [DecidableEq U] in
theorem alone_freed {c : BondingId} (freed : m'.bonding = update m.bonding b none)
    (alone : Alone m b) (ne : c ≠ b) : Alone m' c ↔ Alone m c := by
  have listed := listedPath_freed freed
  constructor
  · intro later path own d other
    have apart : d ≠ b := by
      rintro rfl
      exact ne (alone path other c own)
    refine later path ?_ d ?_
    · rw [listed, if_neg ne, own]
    · rw [listed, if_neg apart, other]
  · intro before path own d other
    rw [listed, if_neg ne] at own
    rw [listed] at other
    split at other
    · cases other
    · exact before path own d other

theorem dangling_kept {path : CString} (dangling : m.index.Dangling path) (b : BondingId)
    (removeOrTrim isEmpty : Bool)
    (freed : (m.cgroupBondingFree b removeOrTrim isEmpty).map Prod.fst = some m') :
    m'.index.Dangling path := by
  unfold Bondings.cgroupBondingFree at freed
  cases here : m.bonding b with
  | none => simp [here] at freed
  | some bonding =>
    simp only [here, Option.map_map, Option.map_eq_some_iff, Function.comp_apply] at freed
    obtain ⟨m1, unlinked, rfl⟩ := freed
    unfold Bondings.unlinkBonding at unlinked
    cases added : bonding.unit with
    | none =>
      rw [added] at unlinked
      exact Option.some.inj unlinked ▸ dangling
    | some u =>
      simp only [added, Option.map_eq_some_iff] at unlinked
      obtain ⟨index, removed, rfl⟩ := unlinked
      unfold Bondings.removeFromIndex at removed
      split at removed
      · split at removed
        · exact dangling.leave _ removed
        · cases removed
      · exact Option.some.inj removed ▸ dangling

section

variable (consistent : Consistent m)
include consistent

theorem freeList_cases (first : List BondingId) (known : ∀ b ∈ first, (m.bonding b).isSome = true)
    (nodup : first.Nodup) (removeOrTrim : Bool) (isEmpty : BondingId -> Bool) :
    ((∀ b ∈ first, Alone m b) ->
      ∃ m', m.cgroupBondingFreeList first removeOrTrim isEmpty = some m' ∧ Consistent m') ∧
    (¬ (∀ b ∈ first, Alone m b) -> ∀ m', m.cgroupBondingFreeList first removeOrTrim isEmpty = some m' ->
      ∃ path, m'.index.Dangling path) := by
  induction first generalizing m with
  | nil => exact ⟨fun _ => ⟨m, rfl, consistent⟩, fun shared => absurd (by simp) shared⟩
  | cons b rest ih =>
    obtain ⟨bonding, here⟩ := isSome_iff_exists.mp (known b (by simp))
    obtain ⟨m1, freed, memory, _, sound, dangling⟩ :=
      cgroupBondingFree_cases consistent b bonding here removeOrTrim (isEmpty b)
    have unfolded : m.cgroupBondingFreeList (b :: rest) removeOrTrim isEmpty =
        m1.cgroupBondingFreeList rest removeOrTrim isEmpty := by
      simp only [Bondings.cgroupBondingFreeList, foldlM_cons, Bondings.freeEach, freed,
        bind_eq_bind, bind_some]
    obtain ⟨fresh, nodup⟩ := nodup_cons.mp nodup
    have apart : ∀ c ∈ rest, c ≠ b := fun c mem same => fresh (same ▸ mem)
    rw [unfolded]
    by_cases alone : Alone m b
    · have known1 : ∀ c ∈ rest, (m1.bonding c).isSome = true := by
        intro c mem
        rw [memory, update_of_ne (apart c mem)]
        exact known c (mem_cons_of_mem _ mem)
      have later := ih (sound alone) known1 nodup
      have others : (∀ c ∈ rest, Alone m1 c) ↔ ∀ c ∈ b :: rest, Alone m c := by
        rw [forall_mem_cons]
        refine Iff.trans ?_ (and_iff_right alone).symm
        exact forall_congr' fun c => forall_congr' fun mem => alone_freed memory alone (apart c mem)
      rwa [others] at later
    · obtain ⟨path, lost⟩ := dangling alone
      refine ⟨fun all => absurd (all b (by simp)) alone, fun _ m' ran => ⟨path, ?_⟩⟩
      have reached : Steps.Reached m1 (fun b m => Bondings.freeEach removeOrTrim isEmpty m b)
          (fun _ _ => True) m' := Steps.Reached.start.run (.always rest m1) ran
      exact reached.invariant (fun m => m.index.Dangling path) lost
        fun c _ _ dangling _ freed => dangling_kept dangling c removeOrTrim (isEmpty c) freed

theorem unitFree_cases (u : U) (nReloading : Nat) (isEmpty : BondingId -> Bool) :
    ((∀ b ∈ m.unitBondings u, Alone m b) ->
      ∃ m', m.unitFree u nReloading isEmpty = some m' ∧ Consistent m') ∧
    (¬ (∀ b ∈ m.unitBondings u, Alone m b) -> ∀ m', m.unitFree u nReloading isEmpty = some m' ->
      ∃ path, m'.index.Dangling path) := by
  refine freeList_cases consistent (m.unitBondings u) (fun b mem => ?_) (consistent.once u) _ isEmpty
  obtain ⟨bonding, here, _⟩ := (consistent.owned u b).mp mem
  exact isSome_iff_exists.mpr ⟨bonding, here⟩

theorem take_consistent (event : Event U) (next : Option (Bondings U))
    (taken : take event (some m) = some next) (spares : Spares event (some m)) :
    ∃ m', next = some m' ∧ Consistent m' := by
  cases event with
  | allocate b controller path ours =>
    simp only [take] at taken
    split at taken
    · rename_i free
      obtain rfl := Option.some.inj taken
      refine ⟨_, rfl, consistent.set b _ (fun path => ?_) fun u => by simp [free]⟩
      simp [Bondings.listedPath, free]
    · cases taken
  | unitAddCgroup u b =>
    simp only [take] at taken
    split at taken
    · rename_i here
      obtain rfl := Option.some.inj taken
      exact unitAddCgroup_consistent consistent u b _ here rfl
    · cases taken
  | realize b =>
    simp only [take] at taken
    split at taken
    · rename_i bonding here
      obtain rfl := Option.some.inj taken
      refine ⟨_, rfl, consistent.set b _ (fun path => ?_) fun u => by simp [here]⟩
      simp [Bondings.listedPath, here]
    · cases taken
  | cgroupBondingFree b removeOrTrim isEmpty =>
    simp only [take] at taken
    split at taken
    · rename_i allocated
      obtain ⟨bonding, here⟩ := isSome_iff_exists.mp allocated
      obtain ⟨m', freed, _, _, sound, _⟩ :=
        cgroupBondingFree_cases consistent b bonding here removeOrTrim isEmpty
      exact ⟨m', (Option.some.inj taken).symm.trans freed, sound spares⟩
    · cases taken
  | unitFree u nReloading isEmpty =>
    obtain ⟨m', freed, sound⟩ := (unitFree_cases consistent u nReloading isEmpty).1 spares
    exact ⟨m', (Option.some.inj taken).symm.trans freed, sound⟩

theorem spares_of_inOrder (event : Event U) (next : Option (Bondings U))
    (taken : take event (some m) = some next) (inOrder : InOrder next) : Spares event (some m) := by
  obtain ⟨m', rfl, indexed⟩ := inOrder
  cases event with
  | allocate | unitAddCgroup | realize => trivial
  | cgroupBondingFree b removeOrTrim isEmpty =>
    simp only [take] at taken
    split at taken
    · rename_i allocated
      obtain ⟨bonding, here⟩ := isSome_iff_exists.mp allocated
      obtain ⟨m1, freed, _, _, _, lost⟩ :=
        cgroupBondingFree_cases consistent b bonding here removeOrTrim isEmpty
      obtain rfl := Option.some.inj (freed.symm.trans (Option.some.inj taken))
      by_contra shared
      obtain ⟨path, dangling⟩ := lost shared
      exact indexed.not_dangling path dangling
    · cases taken
  | unitFree u nReloading isEmpty =>
    by_contra shared
    obtain ⟨path, dangling⟩ := (unitFree_cases consistent u nReloading isEmpty).2 shared m'
      (Option.some.inj taken)
    exact indexed.not_dangling path dangling

end

/-- The table never refers to freed memory exactly as long as no bonding is freed whose path another
one has too. -/
theorem cgroup_bondings_indexed (run : List (Event U)) :
    Steps.Throughout take InOrder run (some empty) ↔ Steps.EachStep take Spares run (some empty) := by
  have kept : ∀ (event : Event U) state next, (∃ m, state = some m ∧ Consistent m) ->
      take event state = some next -> Spares event state -> ∃ m, next = some m ∧ Consistent m := by
    rintro event _ next ⟨m, rfl, consistent⟩ taken spares
    exact take_consistent consistent event next taken spares
  have exact : ∀ (event : Event U) state next, (∃ m, state = some m ∧ Consistent m) ->
      take event state = some next -> InOrder next -> Spares event state := by
    rintro event _ next ⟨m, rfl, consistent⟩ taken inOrder
    exact spares_of_inOrder consistent event next taken inOrder
  refine Steps.throughout_iff ?_ kept exact run ⟨empty, rfl, empty_consistent⟩
  rintro _ ⟨m, rfl, consistent⟩
  exact ⟨m, rfl, consistent.indexed⟩

end

def sharedGroup : List (Event Bool) :=
  [.allocate 0 none (.ofString "/shared") false, .unitAddCgroup true 0,
    .allocate 1 none (.ofString "/shared") false, .unitAddCgroup false 1, .unitFree false 0 fun _ => true]

/-- The second of two units with the same group is freed, and the key of the entry with it. -/
theorem shared_group_dangles :
    ¬ ∀ run : List (Event Bool), Steps.Throughout take InOrder run (some empty) := by
  intro always
  have ends : (sharedGroup.foldlM (fun state event => take event state) (some empty)).any (fun state =>
      state.any fun m => (m.index.table (.ofString "/shared")).any fun entry =>
        m.index.key entry.owner = none) = true := by
    decide
  obtain ⟨last, ran, lost⟩ := (any_eq_true _ _).mp ends
  obtain ⟨m, rfl, indexed⟩ := (always sharedGroup).last ran
  rw [any_some] at lost
  obtain ⟨entry, found, freed⟩ := (any_eq_true _ _).mp lost
  refine indexed.not_dangling (.ofString "/shared") ⟨entry, found, ?_⟩
  rw [of_decide_eq_true freed]
  simp

end Systemd.GroupIndex
