import Mathlib.Logic.Relation
import Systemd.Loading.Grown

set_option autoImplicit false

namespace Systemd.Loading

open Program List Option Function

/-- What a name of a chain of links becomes for some unit. -/
def CompletesTo : CString -> CString -> Prop :=
  Relation.ReflTransGen fun k x => ∃ part, unitNameReplaceInstance k part = some x

section

variable {U : Type} [DecidableEq U]

/-- The name of the chain belongs to a unit that the unit cannot take over, so that it takes over the unit. -/
structure Switches (m : Registry U) (u : U) (k : CString) (w : U) : Prop where
  owner : m.units.get k = some w
  other : w ≠ u
  stays : unitNameIsTemplate k = true ∨ m.canMergeAway w = false
  type : m.type w = m.type u
  kind : (m.instancePart w).isSome = (m.instancePart u).isSome

/-- Once the unit w has taken over u it can be given the name as well. -/
def Welcomes (m : Registry U) (u w : U) (more : Nat) (k : CString) : Prop :=
  ∃ x, m.completeName w k = some (.ok x) ∧
    match m.units.get x with
    | some v => v = u ∨ v = w ∨ m.type w = m.type v ∧
        (m.instancePart w).isSome = (m.instancePart v).isSome ∧ m.canMergeAway v = true
    | none => m.units.length + more ≤ managerMaxNames ∧ ∃ t part, Loadable x t part ∧ m.type w = some t ∧
        (m.instancePart w).isSome = part.isSome ∧ t.noAlias = false

-- The names that w has in the end.
def Joining (m : Registry U) (u w : U) (ks : List CString) (x : CString) : Prop :=
  (∃ k ∈ ks, CompletesTo k x) ∨ ∃ v, m.units.get x = some v ∧
    (v = u ∨ v = w ∨ ∃ k ∈ ks, ∃ y, CompletesTo k y ∧ m.units.get y = some v)

def Opens (h : Host U) (path : CString) : Prop :=
  cached h path = true -> ∀ e, h.openDirectory path = .error e -> e = enoent

/-- The drop-in directories of the name can be opened, or are not there. -/
def Readable (h : Host U) (t : CString) : Prop :=
  ∀ p ∈ h.unitPath, ∀ suffix ∈ [CString.ofString ".wants", .ofString ".requires"],
    Opens h ((join p t).append suffix) ∧
      ∀ template, unitNameTemplate t = some template -> Opens h ((join p template).append suffix)

/-- Nothing behind a name of the chain at which the unit is taken over is refused. -/
def Unrefused (h : Host U) (m : Registry U) (u : U) (ks : List CString) : Prop :=
  ∀ front k rest w, ks = front ++ k :: rest -> Switches m u k w ->
    (∀ k' ∈ rest, Welcomes m u w ks.length k') ∧ ∀ t, Joining m u w ks t -> Readable h t

def otherNames (m : Registry U) (u : U) (id : CString) : List CString :=
  (Registry.setMembers (m.names u)).filter (· ≠ id)

def templatePaths (m : Registry U) (u : U) (id : CString) : List CString :=
  if (m.instancePart u).isSome then (id :: otherNames m u id).filterMap unitNameTemplate else []

-- What unit_load_fragment tries in turn, as long as nothing is found.
def fragmentPaths (l : Loader U) (u : U) (id : CString) : List CString :=
  id :: (otherNames l.registry u id ++ ((l.fragmentPath u).toList ++ templatePaths l.registry u id))

def firstFound (h : Host U) : List CString -> Option Found
  | [] => none
  | path :: rest =>
    match findFile h path with
    | .error _ => none
    | .ok none => firstFound h rest
    | .ok (some found) => some found

/-- The condition on a manager that is about to load the unit. -/
def OrderlyLoad (h : Host U) (u : U) (l : Loader U) : Prop :=
  ∀ id found, l.registry.loadState u = .stub -> l.registry.type u ≠ some .snapshot ->
    l.registry.id u = some id -> firstFound h (fragmentPaths l u id) = some found ->
      Unrefused h l.registry u found.names.members

def OwnNames (claims : U -> CString -> Prop) (m : Registry U) (u v : U) (s : CString) : Prop :=
  claims v s ∨ v = u ∧ m.units.get s = some u

/-- The manager while merge_by_names is at work for u: c is the unit that the names are given to. -/
structure Gathered (claims : U -> CString -> Prop) (m : Registry U) (u c : U) (ks : List CString) (n : Nat)
    (l : Loader U) : Prop where
  held : Held (OwnNames claims m u) l.registry
  unmerged : l.registry.loadState c ≠ .merged
  typed : m.type c ≠ none
  same : m.type c = m.type u
  alive : l.registry.alive = m.alive
  type : l.registry.type = m.type
  kind : ∀ v, (l.registry.instancePart v).isSome = (m.instancePart v).isSome
  part : ∀ v, v ≠ u -> l.registry.instancePart v = m.instancePart v
  hasJob : l.registry.hasJob = m.hasJob
  activeState : l.registry.activeState = m.activeState
  others : ∀ x v, l.registry.units.get x = some v -> v ≠ c ->
    m.units.get x = some v ∧ l.registry.loadState v = m.loadState v
  mine : ∀ x, l.registry.units.get x = some c -> Joining m u c ks x
  known : ∀ x, l.registry.units.get x = none -> m.units.get x = none
  room : l.registry.units.length ≤ m.units.length + n
  left : c ≠ u -> l.registry.loadState u = .merged ∧ m.alive u = true

section

variable {h : Host U} {m : Registry U} {u c w : U} {ks : List CString} {n : Nat} {l l' : Loader U}
  {k x : CString} {claims : U -> CString -> Prop}

section

omit [DecidableEq U]

theorem completeName_completes (complete : m.completeName u k = some (.ok x)) : CompletesTo k x := by
  unfold Registry.completeName at complete
  split_ifs at complete
  · split at complete
    · cases complete
    · rename_i part _
      obtain ⟨y, replaced, same⟩ := map_eq_some_iff.mp complete
      cases same
      exact .single ⟨part, replaced⟩
  · cases complete
    exact .refl

theorem Gathered.canMergeAway (gathered : Gathered claims m u c ks n l) {v : U}
    (state : l.registry.loadState v = m.loadState v) :
    l.registry.canMergeAway v = m.canMergeAway v := by
  rw [Registry.canMergeAway, Registry.canMergeAway, state, gathered.hasJob, gathered.activeState]

theorem Gathered.later (gathered : Gathered claims m u c ks n l) : Gathered claims m u c ks (n + 1) l :=
  { gathered with room := by have := gathered.room; omega }

end

/-- A name that belongs to nobody else is added. -/
theorem Gathered.added (gathered : Gathered claims m u c ks n l) (mem : k ∈ ks) (completes : CompletesTo k x)
    {set : OrderedSet CString}
    (held : Held (OwnNames claims m u) { l.registry with
      names := update l.registry.names c (some (set.put x))
      units := l.registry.units ++ [(x, c)] }) :
    Gathered claims m u c ks (n + 1) { l with registry := { l.registry with
      names := update l.registry.names c (some (set.put x))
      units := l.registry.units ++ [(x, c)] } } := by
  have entry : ∀ y, NameTable.get (l.registry.units ++ [(x, c)]) y =
      (l.registry.units.get y).or (if y = x then some c else none) :=
    fun y => NameTable.get_append _ _ _ _
  refine { gathered with
    held := held
    others := fun y v here other => ?_
    mine := fun y here => ?_
    known := fun y none => ?_
    room := ?_ }
  · rw [entry] at here
    cases old : l.registry.units.get y with
    | none =>
      rw [old, none_or] at here
      split_ifs at here
      exact absurd (some.inj here).symm other
    | some v' =>
      rw [old, some_or] at here
      exact gathered.others y v (old.trans here) other
  · rw [entry] at here
    cases old : l.registry.units.get y with
    | none =>
      rw [old, none_or] at here
      split_ifs at here with new
      exact .inl ⟨k, mem, new ▸ completes⟩
    | some v' =>
      rw [old, some_or] at here
      exact gathered.mine y (old.trans here)
  · rw [entry] at none
    exact gathered.known y (or_eq_none_iff.mp none).1
  · have := gathered.room
    simp only [length_append, length_singleton]
    omega

variable {other : U} {m' : Registry U} {r : Except LoadErrno Unit} {p q : Load U Unit}
  {rest : List CString} {Q : Except LoadErrno Unit -> Loader U -> Prop} {P : Loader U -> Prop}

theorem Merges.known (merges : Merges m m' u other) (unknown : m'.units.get x = none) :
    m.units.get x = none := by
  have entry := merges.table x
  rw [unknown] at entry
  split_ifs at entry
  exact entry.symm

theorem Merges.length (merges : Merges m m' u other) : m'.units.length = m.units.length := by
  simpa only [length_map] using congrArg List.length merges.keys

section

variable (gathered : Gathered claims m u c ks n l)
include gathered

theorem Gathered.merged (mem : k ∈ ks) (completes : CompletesTo k x)
    (owner : l.registry.units.get x = some other) (merges : Merges l.registry m' c other)
    (held : Held (OwnNames claims m u) m') :
    Gathered claims m u c ks (n + 1) { l with registry := m' } := by
  have indexed := gathered.held.1.indexed
  obtain ⟨first, -⟩ := gathered.others x other owner merges.distinct
  have notLeft : c ≠ u -> other ≠ u := by
    rintro switched rfl
    exact gathered.held.1.unmerged owner (gathered.left switched).1
  refine { gathered with
    held := held
    unmerged := ?_
    alive := merges.alive.trans gathered.alive
    type := merges.type.trans gathered.type
    kind := fun v => ?_
    part := fun v ne => ?_
    hasJob := merges.hasJob.trans gathered.hasJob
    activeState := merges.activeState.trans gathered.activeState
    others := fun y v here ne => ?_
    mine := fun y here => ?_
    known := fun y none => ?_
    room := ?_
    left := fun switched => ?_ }
  · rw [merges.loadState, update_of_ne merges.distinct.symm]
    exact gathered.unmerged
  · rw [merges.instancePart]
    exact gathered.kind v
  · rw [merges.instancePart]
    exact gathered.part v ne
  · rcases (merges.get indexed).mp here with ⟨same, -⟩ | ⟨old, -, notOther⟩
    · exact absurd same ne
    · obtain ⟨before, state⟩ := gathered.others y v old ne
      exact ⟨before, by rw [merges.loadState, update_of_ne notOther, state]⟩
  · rcases (merges.get indexed).mp here with ⟨-, old | theirs⟩ | ⟨-, wrong, -⟩
    · exact gathered.mine y old
    · obtain ⟨before, -⟩ := gathered.others y other theirs merges.distinct
      exact .inr ⟨other, before, .inr (.inr ⟨k, mem, x, completes, first⟩)⟩
    · exact absurd rfl wrong
  · exact gathered.known y (merges.known none)
  · have := gathered.room
    rw [merges.length]
    omega
  · obtain ⟨gone, living⟩ := gathered.left switched
    refine ⟨?_, living⟩
    change m'.loadState u = _
    rw [merges.loadState, update_of_ne (notLeft switched).symm, gone]

omit [DecidableEq U] in
theorem Gathered.leads (settled : Settled m) (stub : m.loadState u = .stub) (switched : c ≠ u) :
    Leads l.registry u c := by
  obtain ⟨merged, living⟩ := gathered.left switched
  obtain ⟨s, -, named⟩ := settled.indexed.chosen u living (gathered.same ▸ gathered.typed) (by simp [stub])
  obtain ⟨t, leads, owner⟩ := gathered.held.2 u s (.inr ⟨rfl, (settled.indexed.table s u).mpr named⟩)
  have ends : t = c := by
    by_contra other
    obtain ⟨before, -⟩ := gathered.others s t owner other
    rw [(settled.indexed.table s u).mpr named] at before
    cases before
    exact leads.ends.2 merged
  exact ends ▸ leads

theorem Gathered.mergeByName (mem : k ∈ ks) (run : unitMergeByName h c k l = some (r, l')) :
    Gathered claims m u c ks (n + 1) l' := by
  have settled := gathered.held.1
  rcases unitMergeByName_cases run with ⟨rfl, -⟩ |
    ⟨x, m', result, complete, rfl, -, ⟨free, added⟩ | ⟨other, owner, merged⟩⟩
  · exact gathered.later
  · have held := gathered.held.unitAddName gathered.unmerged added
    have typed : l.registry.type c ≠ none := gathered.type ▸ gathered.typed
    rcases Registry.unitAddName_cases added with rfl |
      ⟨y, t, part, set, entered, complete', -, names, new, enter, rfl, -⟩
    · exact gathered.later
    · have completes := (completeName_completes complete).trans (completeName_completes complete')
      have unlisted : l.registry.units.get y ≠ some c := by
        intro here
        have named := (settled.indexed.table y c).mp here
        rw [Registry.Named, names] at named
        exact new named
      unfold Registry.enterName at enter
      split at enter
      · rename_i other here
        split_ifs at enter with mine
        exact absurd (here.trans (congrArg some mine)) unlisted
      · simp only [if_true, Except.ok.injEq] at enter
        rw [← enter, Registry.adoptName, if_neg typed] at held ⊢
        exact gathered.added mem completes held
  · have held := gathered.held.unitMerge gathered.unmerged merged
    rcases unitMerge_outcome (settled.unmerged owner) merged with ⟨-, -, rfl⟩ | ⟨-, -, rfl, -⟩ | ⟨-, -, -, -, merges⟩
    · exact gathered.later
    · exact gathered.later
    · exact gathered.merged mem (completeName_completes complete) owner merges held

end

/-- The name is given to the unit that has taken over u. -/
theorem Gathered.welcomed (gathered : Gathered claims m u w ks n l) (switched : w ≠ u)
    (welcome : Welcomes m u w ks.length k) (behind : n < ks.length)
    (run : unitMergeByName h w k l = some (r, l')) : r = .ok () := by
  have settled := gathered.held.1
  have completion (text : CString) : l.registry.completeName w text = m.completeName w text := by
    rw [Registry.completeName, Registry.completeName, gathered.part w switched]
  obtain ⟨x, complete, welcome⟩ := welcome
  rcases unitMergeByName_cases run with ⟨rfl, e, wrong, -⟩ |
    ⟨y, m', result, complete', rfl, rfl, ⟨free, added⟩ | ⟨other, owner, merged⟩⟩
  · rw [completion, complete] at wrong
    cases wrong
  · rw [completion, complete] at complete'
    cases complete'
    rw [gathered.known x free] at welcome
    obtain ⟨room, t, part, loadable, typed, parts, aliased⟩ := welcome
    have size := gathered.room
    obtain ⟨rfl, -⟩ := unitAddName_adds loadable (gathered.type ▸ typed) ((gathered.kind w).trans parts)
      aliased (by omega) free settled.indexed added
    rfl
  · rw [completion, complete] at complete'
    cases complete'
    rcases unitMerge_outcome (settled.unmerged owner) merged with ⟨-, rfl, -⟩ |
      ⟨ne, -, -, refused⟩ | ⟨rfl, -⟩
    · rfl
    · obtain ⟨before, state⟩ := gathered.others x other owner ne
      rw [before] at welcome
      rcases welcome with rfl | rfl | ⟨types, kinds, away⟩
      · exact absurd (gathered.left switched).1 (settled.unmerged owner)
      · exact absurd rfl ne
      · refine absurd ⟨?_, ?_, ?_⟩ refused
        · rwa [gathered.type]
        · rwa [gathered.kind, gathered.kind]
        · rwa [gathered.canMergeAway state]
    · rfl

/-- What merge_by_names does when the unit cannot be given the name. -/
theorem Gathered.switch (gathered : Gathered claims m u u ks n l) (mem : k ∈ ks) {e : LoadErrno}
    (failed : unitMergeByName h u k l = some (.error e, l')) (owner : l'.registry.units.get k = some w)
    {l'' : Loader U} (run : unitMerge h w u l' = some (r, l'')) :
    (r = .ok () -> w = u ∧ Gathered claims m u u ks (n + 1) l'' ∨
        Switches m u k w ∧ Gathered claims m u w ks (n + 1) l'') ∧
      ((∃ e, r = .error e) -> l''.registry.loadState u ≠ .merged) := by
  have gathered' := gathered.mergeByName mem failed
  have settled := gathered'.held.1
  obtain ⟨m', result, merged, rfl, rfl⟩ := registryCall_eq_some.mp run
  have living : l'.registry.alive u = true := by
    have merged := merged
    unfold Registry.unitMerge at merged
    split_ifs at merged
    obtain ⟨target, follow, -⟩ := bind_eq_some_iff.mp merged
    cases Leads.of_follow follow with
    | stays _ alive => exact alive
    | follows _ _ _ alive => exact alive
  have held := gathered'.held.unitMerge (settled.unmerged owner) merged
  rcases unitMerge_outcome gathered'.unmerged merged with ⟨same, rfl, rfl⟩ | ⟨-, ⟨e, rfl⟩, rfl, -⟩ |
    ⟨rfl, types, kinds, -, merges⟩
  · exact ⟨fun _ => .inl ⟨same.symm, gathered'⟩, by rintro ⟨_, ⟨⟩⟩⟩
  · exact ⟨by rintro ⟨⟩, fun _ => gathered'.unmerged⟩
  · have other : w ≠ u := merges.distinct.symm
    obtain ⟨before, state⟩ := gathered'.others k w owner other
    rw [gathered'.type] at types
    rw [gathered'.kind, gathered'.kind] at kinds
    refine ⟨fun _ => .inr ⟨⟨before, other, ?_, types, kinds⟩, ?_⟩, by rintro ⟨_, ⟨⟩⟩⟩
    · by_contra neither
      rw [not_or, Bool.not_eq_true, Bool.not_eq_false] at neither
      obtain ⟨plain, away⟩ := neither
      have complete : l.registry.completeName u k = some (.ok k) := by
        rw [Registry.completeName, if_neg (by simp [plain])]
      rcases unitMergeByName_cases failed with ⟨rfl, e, wrong, -⟩ |
        ⟨y, m1, outcome, complete', rfl, wrong, ⟨free, added⟩ | ⟨third, here, refused⟩⟩
      · rw [complete] at wrong
        cases wrong
      · rw [complete] at complete'
        cases complete'
        rcases Registry.unitAddName_outcome added with ⟨-, -, rfl⟩ | ⟨rfl, -⟩
        · cases free.symm.trans owner
        · cases wrong
      · rw [complete] at complete'
        cases complete'
        rcases unitMerge_outcome (gathered.held.1.unmerged here) refused with ⟨-, rfl, -⟩ |
          ⟨-, -, rfl, unfit⟩ | ⟨rfl, -⟩
        · cases wrong
        · obtain rfl : third = w := some.inj (here.symm.trans owner)
          refine unfit ⟨?_, ?_, ?_⟩
          · rw [gathered.type, types]
          · rw [gathered.kind, gathered.kind, kinds]
          · rwa [gathered'.canMergeAway state]
        · cases wrong
    · refine { gathered' with
        held := held
        unmerged := ?_
        typed := types ▸ gathered.typed
        same := types
        alive := merges.alive.trans gathered'.alive
        type := merges.type.trans gathered'.type
        kind := fun v => ?_
        part := fun v ne => ?_
        hasJob := merges.hasJob.trans gathered'.hasJob
        activeState := merges.activeState.trans gathered'.activeState
        others := fun y v here ne => ?_
        mine := fun y here => ?_
        known := fun y none => gathered'.known y (merges.known none)
        room := ?_
        left := fun _ => ⟨?_, gathered'.alive ▸ living⟩ }
      · rw [merges.loadState, update_of_ne other]
        exact settled.unmerged owner
      · rw [merges.instancePart]
        exact gathered'.kind v
      · rw [merges.instancePart]
        exact gathered'.part v ne
      · rcases (merges.get settled.indexed).mp here with ⟨same, -⟩ | ⟨old, -, notLeft⟩
        · exact absurd same ne
        · obtain ⟨before, state⟩ := gathered'.others y v old notLeft
          exact ⟨before, by rw [merges.loadState, update_of_ne notLeft, state]⟩
      · rcases (merges.get settled.indexed).mp here with ⟨-, theirs | mine⟩ | ⟨-, wrong, -⟩
        · exact .inr ⟨w, (gathered'.others y w theirs other).1, .inr (.inl rfl)⟩
        · refine (gathered'.mine y mine).imp id ?_
          rintro ⟨v, here, own | own | given⟩
          · exact ⟨v, here, .inl own⟩
          · exact ⟨v, here, .inl own⟩
          · exact ⟨v, here, .inr (.inr given)⟩
        · exact absurd rfl wrong
      · rw [merges.length]
        exact gathered'.room
      · rw [merges.loadState, update_self]

theorem Gathered.unitChooseId (gathered : Gathered claims m u u ks n l)
    (run : unitChooseId u k l = some (r, l')) : Gathered claims m u u ks n l' := by
  obtain ⟨m', result, chosen, -, rfl⟩ := registryCall_eq_some.mp run
  have held := gathered.held.unitChooseId chosen
  rcases Registry.unitChooseId_cases chosen with rfl | ⟨name, part, set, names, mem, piece, rfl⟩
  · exact gathered
  · refine { gathered with
      held := held
      kind := fun v => ?_
      part := fun v other => ?_
      left := fun switched => absurd rfl switched }
    · by_cases own : v = u
      · subst own
        have named : l.registry.Named v name := by
          rw [Registry.Named, names]
          exact mem
        obtain ⟨part', piece', kind⟩ := gathered.held.1.indexed.part v name named
        rw [piece] at piece'
        cases piece'
        change (update l.registry.instancePart v part v).isSome = _
        rw [update_self, kind]
        exact gathered.kind v
      · change (update l.registry.instancePart u part v).isSome = _
        rw [update_of_ne own]
        exact gathered.kind v
    · change update l.registry.instancePart u part v = _
      rw [update_of_ne other]
      exact gathered.part v other

theorem mergeByNames_switched (switched : w ≠ u) (names : List CString) (inside : ∀ k ∈ names, k ∈ ks)
    (welcome : ∀ k ∈ names, Welcomes m u w ks.length k) (few : n + names.length ≤ ks.length) :
    Triple (Gathered claims m u w ks n) (mergeByNames h w none names) fun r l =>
      r = .ok w ∧ ∃ n, Gathered claims m u w ks n l := by
  induction names generalizing n with
  | nil => exact .pure fun l gathered => ⟨rfl, n, gathered⟩
  | cons k rest ih =>
    rw [forall_mem_cons] at inside welcome
    rw [length_cons] at few
    intro l r l' gathered run
    obtain ⟨outcome, middle, first, later⟩ := attempt_bind.mp run
    obtain rfl := gathered.welcomed switched welcome.1 (by omega) first
    exact ih inside.2 welcome.2 (by omega) middle r l' (gathered.mergeByName inside.1 first) later

/-- merge_by_names fails only while the unit has not been taken over. -/
theorem mergeByNames_gathered (unrefused : Unrefused h m u ks) (front names : List CString)
    (id : Option CString) (split : ks = front ++ names) :
    Triple (Gathered claims m u u ks front.length) (mergeByNames h u id names) fun r l =>
      match r with
      | .ok c => ∃ n, Gathered claims m u c ks n l ∧ (c ≠ u -> ∀ t, Joining m u c ks t -> Readable h t)
      | .error _ => HeldNow (OwnNames claims m u) l ∧ l.registry.loadState u ≠ .merged := by
  induction names generalizing front id with
  | nil => exact .pure fun l gathered => ⟨_, gathered, fun switched => absurd rfl switched⟩
  | cons k rest ih =>
    have mem : k ∈ ks := by simp [split]
    have split' : ks = (front ++ [k]) ++ rest := by simp [split]
    have length : (front ++ [k]).length = front.length + 1 := by simp
    have onward := fun id => ih (front ++ [k]) id split'
    rw [length] at onward
    intro l r l' gathered run
    obtain ⟨outcome, middle, first, later⟩ := attempt_bind.mp run
    have given := gathered.mergeByName mem first
    cases outcome with
    | ok _ =>
      dsimp only at later
      split_ifs at later
      · obtain ⟨inner, chosen, ran, later⟩ := attempt_bind.mp later
        exact onward id chosen r l' (given.unitChooseId ran) later
      · exact onward id middle r l' given later
    | error e =>
      simp only [read_bind] at later
      cases entry : middle.registry.units.get k with
      | none =>
        simp only [entry] at later
        obtain ⟨rfl, rfl⟩ := fail_eq_some.mp later
        exact ⟨given.held, given.unmerged⟩
      | some w =>
        simp only [entry] at later
        rcases bind_eq_some.mp later with ⟨e, stops, rfl⟩ | ⟨_, last, merged, ended⟩
        · refine ⟨?_, (gathered.switch mem first entry stops).2 ⟨e, rfl⟩⟩
          obtain ⟨m', result, ran, -, rfl⟩ := registryCall_eq_some.mp stops
          exact given.held.unitMerge (given.held.1.unmerged entry) ran
        · rcases (gathered.switch mem first entry merged).1 rfl with ⟨rfl, same⟩ | ⟨switches, taken⟩
          · exact onward none last r l' same ended
          · obtain ⟨welcome, readable⟩ := unrefused front k rest w split switches
            have few : front.length + 1 + rest.length ≤ ks.length := by
              rw [split]
              simp only [length_append, length_cons]
              omega
            obtain ⟨rfl, n, done⟩ := mergeByNames_switched switches.other _
              (fun k' behind => by simp [split, behind]) welcome few last r l' taken ended
            exact ⟨n, done, fun _ => readable⟩

/-- Once the unit has been taken over, no drop-in directory of the other one is in the way. -/
def Fine (claims : U -> CString -> Prop) (h : Host U) (u : U) (l : Loader U) : Prop :=
  HeldNow claims l ∧ (l.registry.loadState u = .merged -> ∃ w, Leads l.registry u w ∧
    ∀ t ∈ Registry.setMembers (l.registry.names w), Readable h t)

def EndsFine (claims : U -> CString -> Prop) (h : Host U) (u : U) (r : Except LoadErrno Unit) (l : Loader U) : Prop :=
  match r with
  | .ok _ => Fine claims h u l
  | .error _ => Ready claims u l

section

omit [DecidableEq U]

theorem Ready.fine (unmerged : Ready claims u l) : Fine claims h u l :=
  ⟨unmerged.1, fun merged => absurd merged unmerged.2⟩

theorem Fine.ready (fine : Fine claims h u l) (live : l.registry.loadState u ≠ .merged) : Ready claims u l :=
  ⟨fine.1, live⟩

theorem endsFine (keeps : Keeps (Ready claims u) p) :
    Triple (Ready claims u) p (EndsFine claims h u) := by
  refine keeps.consequence (fun _ unmerged => unmerged) fun r l unmerged => ?_
  cases r with
  | ok _ => exact unmerged.fine
  | error _ => exact unmerged

theorem Gathered.start (held : Held claims m) (stub : m.loadState u = .stub) (typed : m.type u ≠ none)
    (same : l.registry = m) : Gathered claims m u u ks 0 l := by
  subst same
  have own : ∀ v s, OwnNames claims l.registry u v s -> Owner l.registry v s := by
    rintro v s (claimed | ⟨rfl, here⟩)
    · exact held.2 v s claimed
    · exact ⟨v, .stays v (held.1.alive here) (held.1.unmerged here), here⟩
  constructor
  case held => exact ⟨held.1, own⟩
  case unmerged => simp [stub]
  case typed => exact typed
  case others => exact fun _ _ here _ => ⟨here, rfl⟩
  case mine => exact fun x here => .inr ⟨u, here, .inl rfl⟩
  case known => exact fun _ unknown => unknown
  case room => exact Nat.le_refl _
  case left => exact fun switched => absurd rfl switched
  all_goals
    intros
    rfl

theorem Gathered.fine (gathered : Gathered claims m u c ks n l) (settled : Settled m) (stub : m.loadState u = .stub)
    (switched : c ≠ u) (readable : ∀ t, Joining m u c ks t -> Readable h t) : Fine claims h u l := by
  refine ⟨gathered.held.mono fun _ _ => .inl, fun _ => ⟨c, gathered.leads settled stub switched, ?_⟩⟩
  exact fun t named => readable t (gathered.mine t ((gathered.held.1.indexed.table t c).mpr named))

end

theorem readContents_read (contents : Contents) :
    Triple (fun _ => True) (readContents h u contents) fun r l => r = .ok () -> l.registry.loadState u ≠ .stub := by
  unfold readContents
  split_ifs
  · exact Triple.change fun l _ _ => by simp
  · refine .bind (M := fun _ _ => True) ?_ fun _ => Triple.change fun l _ _ => by simp
    intro l r l' _ _
    cases r with
    | ok _ => trivial
    | error e => exact nofun

def Over (claims : U -> CString -> Prop) (h : Host U) (u : U) (l : Loader U) : Prop :=
  l.registry.loadState u ≠ .stub ∧ Fine claims h u l

def Safe (h : Host U) (m : Registry U) (u : U) (paths : List CString) : Prop :=
  ∀ found, firstFound h paths = some found -> Unrefused h m u found.names.members

/-- Nothing was found yet, and the rest is to be tried, or the unit is no stub any more. -/
def Sought (claims : U -> CString -> Prop) (h : Host U) (u : U) (l0 : Loader U) (rest : List CString)
    (r : Except LoadErrno Unit) (l : Loader U) : Prop :=
  match r with
  | .ok _ => l = l0 ∧ Safe h l0.registry u rest ∨ Over claims h u l
  | .error _ => Ready claims u l

structure Begun (claims : U -> CString -> Prop) (l : Loader U) (u : U) : Prop where
  held : Held claims l.registry
  stub : l.registry.loadState u = .stub
  typed : l.registry.type u ≠ none

variable {l0 : Loader U}

omit [DecidableEq U] in
theorem Begun.unmerged (begun : Begun claims l0 u) : Ready claims u l0 :=
  ⟨begun.held, by rw [begun.stub]; decide⟩

theorem loadFromPath_sought {path : CString} (begun : Begun claims l0 u)
    (safe : Safe h l0.registry u (path :: rest)) :
    Triple (· = l0) (loadFromPath h u path) (Sought claims h u l0 rest) := by
  unfold loadFromPath
  cases place : findFile h path with
  | error e => exact .fail fun l same => same ▸ begun.unmerged
  | ok found =>
    cases found with
    | none =>
      refine .pure fun l same => .inl ⟨same, fun found first => safe found ?_⟩
      rw [firstFound, place]
      exact first
    | some found =>
      have unrefused : Unrefused h l0.registry u found.names.members := by
        refine safe found ?_
        rw [firstFound, place]
      refine .bind (M := fun c l => ∃ n, Gathered claims l0.registry u c found.names.members n l ∧
        (c ≠ u -> ∀ t, Joining l0.registry u c found.names.members t -> Readable h t)) ?_ fun c => ?_
      · refine (mergeByNames_gathered unrefused [] found.names.members found.id rfl).consequence
          (fun l same => .start begun.held begun.stub begun.typed (congrArg _ same)) fun r l after => ?_
        cases r with
        | ok c => exact after
        | error e => exact ⟨after.1.mono fun _ _ => .inl, after.2⟩
      · split_ifs with switched
        · refine Triple.change ?_
          rintro l ⟨n, gathered, readable⟩
          have gone := (gathered.left switched).1
          have same : update l.registry.loadState u .merged = l.registry.loadState := by
            rw [← gone, update_eq_self]
          refine .inr ⟨by simp, ?_⟩
          rw [Fine, HeldNow, same]
          exact gathered.fine begun.held.1 begun.stub switched (readable switched)
        · obtain rfl : c = u := not_not.mp switched
          rintro l r l' ⟨n, gathered, -⟩ run
          have unmerged : Ready claims c l := ⟨gathered.held.mono fun _ _ => .inl, gathered.unmerged⟩
          have after := (Keeps.bind (keeps_readContents found.contents) fun _ =>
            keeps_setFragmentPath (some found.filename)) l r l' unmerged run
          cases r with
          | error e => exact after
          | ok _ =>
            rcases bind_eq_some.mp run with ⟨e, -, wrong⟩ | ⟨⟨⟩, middle, first, later⟩
            · cases wrong
            · obtain ⟨-, rfl⟩ := change_eq_some.mp later
              exact .inr ⟨readContents_read found.contents l _ middle trivial first rfl, Ready.fine after⟩

section

omit [DecidableEq U]

theorem passes_over : Passes (Over claims h u) (whileStub u p) := by
  refine Triple.read fun l gone => ?_
  rw [if_neg gone.1]
  exact .pure fun _ both => ⟨⟨(), rfl⟩, both.2⟩

theorem Sought.bind {f : Unit -> Load U Unit} (rest : List CString)
    (first : Triple (· = l0) p (Sought claims h u l0 rest))
    (later : Safe h l0.registry u rest -> Triple (· = l0) (f ()) Q)
    (gone : Triple (Over claims h u) (f ()) Q) (failed : ∀ e l, Ready claims u l -> Q (.error e) l) :
    Triple (· = l0) (p >>= f) Q := by
  refine .bind (M := fun _ l => l = l0 ∧ Safe h l0.registry u rest ∨ Over claims h u l) ?_ fun _ => ?_
  · refine first.consequence (fun _ same => same) fun r l looked => ?_
    cases r with
    | ok _ => exact looked
    | error e => exact failed e l looked
  · rintro l r l' (⟨same, safe⟩ | past) run
    · exact later safe l r l' same run
    · exact gone l r l' past run

theorem whileStub_looked (begun : Begun claims l0 u)
    (looked : Triple (· = l0) p (Sought claims h u l0 rest)) :
    Triple (· = l0) (whileStub u p) (Sought claims h u l0 rest) := by
  refine Triple.read ?_
  rintro l rfl
  rw [if_pos begun.stub]
  exact looked.consequence (fun _ both => both.1) fun _ _ after => after

end

theorem forEach_looked (g : CString -> Option CString) (names rest : List CString) (begun : Begun claims l0 u)
    (safe : Safe h l0.registry u (names.filterMap g ++ rest)) :
    Triple (· = l0) (forEach names fun t => whileStub u (orAbort (g t) >>= fun k => loadFromPath h u k))
      (Sought claims h u l0 rest) := by
  induction names with
  | nil => exact .pure fun l same => .inl ⟨same, safe⟩
  | cons t names ih =>
    refine Sought.bind (names.filterMap g ++ rest) (whileStub_looked begun ?_) ih ?_ fun _ _ after => after
    · refine orAbort_then fun k here => loadFromPath_sought begun ?_
      rwa [filterMap_cons_some here] at safe
    · refine (Passes.forEach fun _ _ => passes_over).consequence (fun _ past => past) ?_
      rintro _ l ⟨⟨_, rfl⟩, past⟩
      exact .inr past

section

omit [DecidableEq U]

theorem Sought.ends (begun : Begun claims l0 u) (looked : Sought claims h u l0 rest r l) :
    EndsFine claims h u r l := by
  cases r with
  | error e => exact looked
  | ok _ =>
    rcases looked with ⟨rfl, -⟩ | gone
    · exact begun.unmerged.fine
    · exact gone.2

theorem Passes.past (passes : Passes (Over claims h u) p) :
    Triple (Over claims h u) p (EndsFine claims h u) := by
  refine passes.consequence (fun _ gone => gone) ?_
  rintro _ l ⟨⟨_, rfl⟩, gone⟩
  exact gone.2

theorem passes_unitNames : Passes P (unitNames u) := .read fun _ => .pure _

theorem unitNames_bind {f : List CString -> Load U Unit}
    (later : Triple (· = l0) (f (Registry.setMembers (l0.registry.names u))) Q) :
    Triple (· = l0) (unitNames u >>= f) Q := by
  rintro l r l' rfl run
  exact later l r l' rfl run

end

/-- The last things that unit_load_fragment tries: the names of a template. -/
theorem templates_fine {id : CString} (begun : Begun claims l0 u)
    (safe : Safe h l0.registry u (templatePaths l0.registry u id)) :
    Triple (· = l0) (whileStub u do
      let l ← read
      if (l.registry.instancePart u).isSome then
        let k ← orAbort (unitNameTemplate id)
        loadFromPath h u k
        let names ← unitNames u
        forEach (names.filter (· ≠ id)) fun t => whileStub u do
          let k ← orAbort (unitNameTemplate t)
          loadFromPath h u k
      else
        pure ()) (EndsFine claims h u) := by
  refine Triple.read ?_
  rintro l rfl
  rw [if_pos begun.stub]
  refine Triple.read ?_
  rintro now ⟨rfl, -⟩
  split_ifs with instanced
  · refine orAbort_then fun k template => ?_
    rw [templatePaths, if_pos instanced, filterMap_cons_some template] at safe
    refine Triple.consequence (P := (· = now)) ?_ (fun _ both => both.1) fun _ _ after => after
    refine Sought.bind _ (loadFromPath_sought begun safe) (fun safe => unitNames_bind ?_) (Passes.past ?_)
      fun _ _ after => after
    · refine (forEach_looked unitNameTemplate _ [] begun ?_).consequence (fun _ same => same)
        fun _ _ looked => looked.ends begun
      rwa [append_nil]
    · exact passes_unitNames.bind fun names => .forEach fun _ _ => passes_over
  · exact .pure fun _ both => both.1 ▸ begun.unmerged.fine

theorem unitLoadFragment_fine (begun : Begun claims l0 u)
    (safe : ∀ id, l0.registry.id u = some id -> Safe h l0.registry u (fragmentPaths l0 u id)) :
    Triple (· = l0) (unitLoadFragment h u) (EndsFine claims h u) := by
  refine Triple.read ?_
  rintro l rfl
  refine orAbort_then fun id chosen => ?_
  refine Triple.consequence (P := (· = l)) ?_ (fun _ both => both.1) fun _ _ after => after
  refine Sought.bind _ (loadFromPath_sought begun (safe id chosen)) (fun safe => unitNames_bind ?_) (Passes.past ?_)
    fun _ _ after => after
  · refine Sought.bind ((l.fragmentPath u).toList ++ templatePaths l.registry u id)
      (forEach_looked some (otherNames l.registry u id) _ begun ?_) (fun safe => ?_) (Passes.past ?_)
      fun _ _ after => after
    · rwa [filterMap_some]
    · refine .bind (M := fun _ now => now.registry = l.registry ∧
        Safe h l.registry u (templatePaths l.registry u id) ∨ Over claims h u now) ?_ fun _ => ?_
      · refine Triple.read ?_
        rintro now rfl
        rw [if_pos begun.stub]
        refine Triple.read ?_
        rintro now ⟨rfl, -⟩
        cases path : now.fragmentPath u with
        | none =>
          rw [path] at safe
          exact .pure fun _ both => .inl ⟨congrArg _ both.1, safe⟩
        | some path' =>
          rw [path] at safe
          refine Triple.consequence (P := (· = now)) ?_ (fun _ both => both.1) fun _ _ after => after
          refine Sought.bind _ (loadFromPath_sought begun safe) (fun safe => ?_) ?_ fun _ _ after => after
          · refine Triple.read ?_
            rintro now rfl
            rw [if_pos begun.stub]
            refine Triple.change fun last both => .inl ⟨?_, safe⟩
            change last.registry = now.registry
            rw [both.1]
          · refine passes_over.consequence (fun _ gone => gone) ?_
            rintro _ _ ⟨⟨_, rfl⟩, gone⟩
            exact .inr gone
      · rintro now r l' (⟨same, safe⟩ | gone) run
        · rw [← same] at safe
          exact templates_fine ⟨same ▸ begun.held, same ▸ begun.stub, same ▸ begun.typed⟩ safe now r l' rfl run
        · exact Passes.past passes_over now r l' gone run
    · exact passes_over.bind fun _ => passes_over
  · refine passes_unitNames.bind fun names => (Passes.forEach fun _ _ => passes_over).bind fun _ => ?_
    exact passes_over.bind fun _ => passes_over

theorem passes_processDir {t p suffix : CString} {d : UnitDependency} (readable : Readable h t)
    (searched : p ∈ h.unitPath) (either : suffix ∈ [CString.ofString ".wants", .ofString ".requires"]) :
    Passes (fun _ => True) (processDir h w p t suffix d) := by
  obtain ⟨own, templates⟩ := readable p searched suffix either
  have iterated {path : CString} (opens : Opens h path) : Passes (fun _ => True) (iterateDir h w path d) := by
    unfold iterateDir
    split_ifs with cached
    · cases answer : h.openDirectory path with
      | error e =>
        dsimp only
        rw [if_pos (opens cached e answer)]
        exact .pure ()
      | ok entries =>
        exact .forEach fun entry _ => (Passes.attempt fun _ _ _ _ _ => trivial).bind fun _ => .pure ()
    · exact .pure ()
  refine (iterated own).bind fun _ => .read fun l => ?_
  split_ifs
  · exact orAbort_then fun template here => iterated (templates template here)
  · exact .pure ()

def Dropped (claims : U -> CString -> Prop) (u : U) (r : Except LoadErrno Unit) (l : Loader U) : Prop :=
  HeldNow claims l ∧ ∀ e, r = .error e -> l.registry.loadState u ≠ .merged

theorem dropin_dropped : Triple (Fine claims h u) (dropin h u) (Dropped claims u) := by
  intro l r l' fine run
  refine ⟨keeps_dropin l r l' fine.1 run, ?_⟩
  rintro e rfl
  rcases bind_eq_some.mp run with ⟨e, stops, -⟩ | ⟨v, middle, here, later⟩
  · obtain ⟨t, -, wrong, -⟩ := unitFollowMerge_eq_some.mp stops
    cases wrong
  · obtain ⟨t, follow, same, rfl⟩ := unitFollowMerge_eq_some.mp here
    cases same
    by_cases live : middle.registry.loadState u = .merged
    · obtain ⟨w, leads, readable⟩ := fine.2 live
      obtain rfl := leads.unique (.of_follow follow)
      have passes : Passes (fun _ => True) (forEach (Registry.setMembers (middle.registry.names w)) fun t =>
          forEach h.unitPath fun p => do
            processDir h w p t (.ofString ".wants") .wants
            processDir h w p t (.ofString ".requires") .requires) :=
        .forEach fun t named => .forEach fun p searched =>
          (passes_processDir (readable t named) searched (by simp)).bind fun _ =>
            passes_processDir (readable t named) searched (by simp)
      obtain ⟨⟨_, wrong⟩, -⟩ := passes middle (.error e) l' trivial later
      cases wrong
    · have keeps : Keeps (Ready claims u) (unitLoadDropin h v) := keeps_unitLoadDropin
      exact (keeps middle _ l' ⟨fine.1, live⟩ later).2

theorem addExtras_dropped : Triple (HeldNow claims) (addExtras h u) (Dropped claims u) := by
  refine Triple.read fun l held => ?_
  split_ifs with loaded
  · refine (Keeps.bind (.forEach fun directive _ => keeps_runDirective directive) fun _ =>
      keeps_orFail _).consequence ?_ fun _ _ unmerged => ⟨unmerged.1, fun _ _ => unmerged.2⟩
    rintro _ ⟨rfl, _⟩
    exact ⟨held, by simp [loaded]⟩
  · exact .pure fun _ both => ⟨both.2, nofun⟩

section

omit [DecidableEq U]

theorem Dropped.bind (first : Triple P p (Dropped claims u))
    (later : Triple (HeldNow claims) q (Dropped claims u)) :
    Triple P (p >>= fun _ => q) (Dropped claims u) := by
  refine .bind (M := fun _ => HeldNow claims) (first.consequence (fun _ holds => holds) ?_) fun _ => later
  intro r l dropped
  cases r with
  | ok _ => exact dropped.1
  | error e => exact dropped

theorem Fine.bind (first : Triple P p (EndsFine claims h u))
    (later : Triple (Fine claims h u) q (Dropped claims u)) :
    Triple P (p >>= fun _ => q) (Dropped claims u) := by
  refine .bind (M := fun _ => Fine claims h u) (first.consequence (fun _ holds => holds) ?_) fun _ => later
  intro r l ended
  cases r with
  | ok _ => exact ended
  | error e => exact ⟨ended.1, fun _ _ => ended.2⟩

theorem whileStub_fine (keeps : Keeps (Ready claims u) p) :
    Triple (Fine claims h u) (whileStub u p) (EndsFine claims h u) := by
  refine Triple.read fun l fine => ?_
  split_ifs with stub
  · refine (endsFine keeps).consequence ?_ fun _ _ after => after
    rintro _ ⟨rfl, _⟩
    exact fine.ready (by simp [stub])
  · exact .pure fun _ both => both.2

end

/-- A load that fails leaves the unit unmerged. -/
theorem loadOrFail_dropped (begun : Begun claims l0 u) (orderly : OrderlyLoad h u l0) :
    Triple (· = l0) (loadOrFail h u) (Dropped claims u) := by
  have stubFails : Triple (HeldNow claims) (failIfStub u) (Dropped claims u) := by
    refine Triple.read fun l held => ?_
    split_ifs with stub
    · refine .fail ?_
      rintro _ ⟨rfl, _⟩
      exact ⟨held, fun _ _ => by simp [stub]⟩
    · exact .pure fun _ both => ⟨both.2, nofun⟩
  refine Triple.read ?_
  rintro l rfl
  refine orAbort_then fun t typed => ?_
  refine Triple.consequence (P := (· = l)) ?_ (fun _ both => both.1) fun _ _ after => after
  refine Dropped.bind ?_ stubFails
  by_cases snapshot : t = .snapshot
  · subst snapshot
    have keeps : Keeps (Ready claims u) (load h u .snapshot) := by
      unfold load snapshotLoad
      dsimp only
      split_ifs
      · exact keeps_setLoadState (by decide)
      · exact .fail _
    exact keeps.consequence (fun _ same => same ▸ begun.unmerged) fun _ _ after => ⟨after.1, fun _ _ => after.2⟩
  · have fragment := unitLoadFragment_fine begun fun id chosen found first =>
      orderly id found begun.stub (by simp [typed, snapshot]) chosen first
    have strict : Triple (· = l) (unitLoadFragmentAndDropin h u) (Dropped claims u) :=
      Fine.bind fragment (Fine.bind (whileStub_fine (.fail _)) dropin_dropped)
    have optional : Triple (· = l) (unitLoadFragmentAndDropinOptional h u) (Dropped claims u) :=
      Fine.bind fragment (Fine.bind (whileStub_fine (keeps_setLoadState (by decide))) dropin_dropped)
    cases t with
    | service =>
      exact Fine.bind fragment (Fine.bind (whileStub_fine keeps_serviceLoadSysv)
        (Fine.bind (whileStub_fine (.fail _)) (Dropped.bind dropin_dropped addExtras_dropped)))
    | snapshot => exact absurd rfl snapshot
    | socket | target | timer | path => exact Dropped.bind strict addExtras_dropped
    | device | mount | automount | swap => exact Dropped.bind optional addExtras_dropped

end

end

end Systemd.Loading
