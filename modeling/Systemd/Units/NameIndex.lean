import Systemd.Units.Symmetric

set_option autoImplicit false

namespace Systemd

open List Option Function

namespace NameTable

variable {U : Type}

variable (table : NameTable U) (name s : CString)

theorem get_append (u : U) :
    get (table ++ [(name, u)]) s = (table.get s).or (if s = name then some u else none) := by
  unfold get
  rw [find?_append, map_or]
  by_cases same : s = name
  · simp [same]
  · simp [same, Ne.symm same]

theorem get_map (u : U) :
    get (table.map fun entry => if entry.1 = name then (name, u) else entry) s =
      if s = name then (table.get name).map (fun _ => u) else table.get s := by
  unfold get
  induction table with
  | nil => simp
  | cons entry rest ih =>
    rw [map_cons]
    by_cases here : entry.1 = name
    · by_cases same : s = name
      · subst same
        simp [here]
      · have differs : name ≠ s := Ne.symm same
        simp only [here, if_true, find?_cons, differs, decide_false]
        simpa [same] using ih
    · by_cases found : entry.1 = s
      · subst found
        simp [here]
      · by_cases same : s = name
        · subst same
          simpa [here, found] using ih
        · simpa [here, found, same] using ih

theorem get_filter :
    get (table.filter fun entry => entry.1 ≠ name) s = if s = name then none else table.get s := by
  unfold get
  induction table with
  | nil => simp
  | cons entry rest ih =>
    by_cases here : entry.1 = name
    · by_cases same : s = name
      · subst same
        simp [here]
      · have differs : entry.1 ≠ s := fun found => same (found.symm.trans here)
        simpa [here, same, Ne.symm same] using ih
    · by_cases found : entry.1 = s
      · subst found
        simp [here]
      · simpa [here, found] using ih

variable {table' table : NameTable U}

theorem get_replace {name : CString} {u : U} (run : table.replace name u = some table') (s : CString) :
    table'.get s = if s = name then some u else table.get s := by
  unfold replace at run
  split_ifs at run with known
  cases run
  rw [get_map]
  obtain ⟨v, here⟩ := isSome_iff_exists.mp known
  simp [here]

theorem get_replaceAll {names : List CString} {u : U}
    (run : names.foldlM (fun table name => replace table name u) table = some table') (s : CString) :
    table'.get s = if s ∈ names then some u else table.get s := by
  induction names generalizing table with
  | nil =>
    simp only [List.foldlM_nil, Option.pure_def, Option.some.injEq] at run
    simp [run]
  | cons name rest ih =>
    simp only [foldlM_cons, bind_eq_bind, bind_eq_some_iff] at run
    obtain ⟨next, first, later⟩ := run
    rw [ih later, get_replace first]
    by_cases tail : s ∈ rest
    · simp [tail]
    · simp [tail]

variable [DecidableEq U]

theorem get_removeValue (table : NameTable U) (name s : CString) (u : U) :
    (table.removeValue name u).get s =
      if s = name ∧ table.get s = some u then none else table.get s := by
  unfold removeValue
  by_cases here : table.get name = some u
  · rw [if_pos here, get_filter]
    by_cases same : s = name
    · subst same
      simp [here]
    · simp [same]
  · rw [if_neg here]
    by_cases same : s = name
    · subst same
      simp [here]
    · simp [same]

theorem get_removeAll (names : List CString) (table : NameTable U) (u : U) (s : CString) :
    get (names.foldl (fun table name => removeValue table name u) table) s =
      if s ∈ names ∧ table.get s = some u then none else table.get s := by
  induction names generalizing table with
  | nil => simp
  | cons name rest ih =>
    rw [foldl_cons, ih, get_removeValue]
    by_cases owned : table.get s = some u
    · by_cases same : s = name
      · simp [same]
      · simp [same]
    · simp [owned]

end NameTable

namespace Registry

open NameTable

variable {U : Type}

def Named (m : Registry U) (u : U) (s : CString) : Prop :=
  s ∈ setMembers (m.names u)

structure Indexed (m : Registry U) : Prop where
  table : ∀ s u, m.units.get s = some u ↔ m.Named u s
  kind : ∀ u s, m.Named u s -> ∃ t, m.type u = some t ∧ unitNameToType s = some t
  part : ∀ u s, m.Named u s ->
    ∃ part, unitNameToInstance s = some part ∧ part.isSome = (m.instancePart u).isSome
  chosen : ∀ u, m.alive u = true -> m.type u ≠ none -> m.loadState u ≠ .merged ->
    ∃ s, m.id u = some s ∧ m.Named u s
  freed : ∀ u, m.alive u = false -> m.names u = none

theorem Indexed.empty : Indexed (Registry.empty : Registry U) := by
  constructor
  all_goals
    intros
    simp_all [Registry.empty, Named, setMembers, NameTable.get]

theorem mem_setMembers_completeMove {V : Type} [DecidableEq V] (set other : Option (OrderedSet V))
    (v : V) :
    v ∈ setMembers (OrderedSet.completeMove set other) ↔ v ∈ setMembers set ∨ v ∈ setMembers other := by
  cases set with
  | none =>
    cases other with
    | none => simp [OrderedSet.completeMove, setMembers]
    | some other => simp [OrderedSet.completeMove, setMembers]
  | some set =>
    cases other with
    | none => simp [OrderedSet.completeMove, setMembers]
    | some other =>
      have mem := OrderedSet.mem_move set other v
      simpa [OrderedSet.completeMove, setMembers, OrderedSet.mem_def] using mem

variable [DecidableEq U]

variable {m' m : Registry U} {u : U} {part : Option CString} {allocates : NameAllocation -> Bool}
  {t : UnitType} {name : CString} {set : OrderedSet CString} {result : Except RegistryErrno Unit}
  {fuel : Nat}

theorem Indexed.unitNew (indexed : Indexed m) (run : unitNew m u = some m') : Indexed m' := by
  unfold Registry.unitNew at run
  split_ifs at run with dead
  cases run
  have nameless : m.names u = none := indexed.freed u (by simpa using dead)
  have same : ∀ v s, Named { m with names := update m.names u (some .empty) } v s ↔
      m.Named v s := by
    intro v s
    by_cases equal : v = u
    · subst equal
      simp [Named, nameless, setMembers, OrderedSet.empty]
    · simp [Named, equal]
  have other : ∀ {v s}, m.Named v s -> v ≠ u := by
    rintro v s named rfl
    simp [Named, nameless, setMembers] at named
  refine ⟨?_, ?_, ?_, ?_, ?_⟩
  · intro s v
    exact (indexed.table s v).trans (same v s).symm
  · intro v s named
    have old := (same v s).mp named
    simpa [other old] using indexed.kind v s old
  · intro v s named
    have old := (same v s).mp named
    simpa [other old] using indexed.part v s old
  · intro v alive typed live
    by_cases equal : v = u
    · simp [equal] at typed
    · simp only [update_of_ne equal] at alive typed live ⊢
      obtain ⟨s, chosen, named⟩ := indexed.chosen v alive typed live
      exact ⟨s, chosen, (same v s).mpr named⟩
  · intro v freed
    by_cases equal : v = u
    · simp [equal] at freed
    · simpa [equal] using indexed.freed v (by simpa [equal] using freed)

omit [DecidableEq U] in
theorem checkName_ok (run : checkName allocates m u name = some (.ok (t, part))) :
    unitNameToType name = some t ∧ unitNameToInstance name = some part ∧
      (m.type u = none ∨ m.type u = some t ∧ (m.instancePart u).isSome = part.isSome) := by
  by_cases valid : unitNameIsValid name false = false
  · simp [checkName, valid] at run
  rw [checkName, if_neg valid] at run
  cases kind : unitNameToType name with
  | none => simp [kind] at run
  | some t' =>
    cases piece : unitNameToInstance name with
    | none => simp [kind, piece] at run
    | some part' =>
      simp only [kind, piece] at run
      split_ifs at run with types memory instances parts aliased full
      all_goals
        simp only [Option.some.injEq, reduceCtorEq, Except.ok.injEq, Prod.mk.injEq] at run
      obtain ⟨rfl, rfl⟩ := run
      refine ⟨rfl, rfl, ?_⟩
      by_cases new : m.type u = none
      · exact .inl new
      · simp only [ne_eq, new, not_false_eq_true, true_and, not_not] at types parts
        exact .inr ⟨types.symm, parts⟩

theorem mem_names_enter (names : m.names u = some set) (name : CString) (v : U) (s : CString) :
    s ∈ setMembers (update m.names u (some (set.put name)) v) ↔ m.Named v s ∨ (v = u ∧ s = name) := by
  by_cases equal : v = u
  · subst equal
    simp [Named, names, setMembers, ← OrderedSet.mem_def]
  · simp [Named, equal]

omit [DecidableEq U] in
theorem Indexed.nameless_of_typeless (indexed : Indexed m) (new : m.type u = none) (s : CString) :
    ¬ m.Named u s := by
  intro named
  obtain ⟨t, typed, -⟩ := indexed.kind u s named
  rw [new] at typed
  cases typed

/-- `m'` is `m` with a further name of `u`, whose kind is `t`: whether or not it is the first name. -/
structure Enters (m m' : Registry U) (u : U) (name : CString) (set : OrderedSet CString)
    (t : UnitType) (part : Option CString) : Prop where
  alive : m'.alive = m.alive
  loadState : m'.loadState = m.loadState
  names : m'.names = update m.names u (some (set.put name))
  units : m'.units = m.units ++ [(name, u)]
  frame : ∀ v, v ≠ u ->
    m'.type v = m.type v ∧ m'.instancePart v = m.instancePart v ∧ m'.id v = m.id v
  typed : m'.type u = some t
  parted : (m'.instancePart u).isSome = part.isSome
  kept : m.type u = none ∨ m'.instancePart u = m.instancePart u
  chosen : m.alive u = true -> m.loadState u ≠ .merged -> ∃ s, m'.id u = some s ∧ m'.Named u s

theorem Enters.indexed (enters : Enters m m' u name set t part) (indexed : Indexed m)
    (names : m.names u = some set) (free : m.units.get name = none)
    (kind : unitNameToType name = some t) (piece : unitNameToInstance name = some part)
    (fits : m.type u = none ∨ m.type u = some t ∧ (m.instancePart u).isSome = part.isSome) :
    Indexed m' := by
  have unnamed : ∀ v, ¬ m.Named v name := by
    intro v named
    rw [(indexed.table name v).mpr named] at free
    cases free
  have named' : ∀ v s, m'.Named v s ↔ m.Named v s ∨ (v = u ∧ s = name) := by
    intro v s
    rw [Named, enters.names]
    exact mem_names_enter names name v s
  refine ⟨?_, ?_, ?_, ?_, ?_⟩
  · intro s v
    rw [named', enters.units, get_append]
    by_cases new : s = name
    · subst new
      simp [free, unnamed, eq_comm]
    · simp [new, indexed.table]
  · intro v s named
    rcases (named' v s).mp named with old | ⟨rfl, rfl⟩
    · by_cases equal : v = u
      · subst equal
        obtain ⟨t', typed', kind'⟩ := indexed.kind v s old
        rcases fits with new | ⟨fit, -⟩
        · exact absurd old (indexed.nameless_of_typeless new s)
        · rw [fit] at typed'
          cases typed'
          exact ⟨t, enters.typed, kind'⟩
      · rw [(enters.frame v equal).1]
        exact indexed.kind v s old
    · exact ⟨t, enters.typed, kind⟩
  · intro v s named
    rcases (named' v s).mp named with old | ⟨rfl, rfl⟩
    · by_cases equal : v = u
      · subst equal
        rcases enters.kept with new | same
        · exact absurd old (indexed.nameless_of_typeless new s)
        · rw [same]
          exact indexed.part v s old
      · rw [(enters.frame v equal).2.1]
        exact indexed.part v s old
    · exact ⟨part, piece, enters.parted.symm⟩
  · intro v living typed live
    rw [enters.alive] at living
    rw [enters.loadState] at live
    by_cases equal : v = u
    · subst equal
      exact enters.chosen living live
    · rw [(enters.frame v equal).1] at typed
      obtain ⟨s, here, old⟩ := indexed.chosen v living typed live
      exact ⟨s, by rw [(enters.frame v equal).2.2, here], (named' v s).mpr (.inl old)⟩
  · intro v dead
    rw [enters.alive] at dead
    have nameless := indexed.freed v dead
    have distinct : v ≠ u := by
      rintro rfl
      rw [nameless] at names
      cases names
    simpa [enters.names, distinct] using nameless

section

variable (indexed : Indexed m)
include indexed

theorem Indexed.enter (names : m.names u = some set) (free : m.units.get name = none)
    (kind : unitNameToType name = some t) (piece : unitNameToInstance name = some part)
    (fits : m.type u = none ∨ m.type u = some t ∧ (m.instancePart u).isSome = part.isSome) :
    Indexed (adoptName { m with
      names := update m.names u (some (set.put name))
      units := m.units ++ [(name, u)] } u name t part) := by
  have mem := mem_names_enter names name u
  refine Enters.indexed ?_ indexed names free kind piece fits
  unfold adoptName
  split_ifs with new
  · refine ⟨rfl, rfl, rfl, rfl, ?_, by simp, by simp, .inl new, fun _ _ => ⟨name, by simp, ?_⟩⟩
    · intro v distinct
      simp [distinct]
    · exact (mem name).mpr (.inr ⟨rfl, rfl⟩)
  · obtain ⟨typed, parted⟩ : m.type u = some t ∧ (m.instancePart u).isSome = part.isSome := by
      rcases fits with new' | old
      · exact absurd new' new
      · exact old
    refine ⟨rfl, rfl, rfl, rfl, fun v _ => ⟨rfl, rfl, rfl⟩, typed, parted, .inr rfl, ?_⟩
    intro living live
    obtain ⟨s, here, old⟩ := indexed.chosen u living new live
    exact ⟨s, here, (mem s).mpr (.inl old)⟩

theorem Indexed.unitAddName {text : CString}
    (run : unitAddName allocates m u text = some (m', result)) : Indexed m' := by
  rcases unitAddName_cases run with rfl | ⟨name, t, part, set, entered, -, check, names, new, enter, rfl, -⟩
  · exact indexed
  obtain ⟨kind, piece, fits⟩ := checkName_ok check
  unfold enterName at enter
  cases found : m.units.get name with
  | some other =>
    simp only [found] at enter
    split_ifs at enter with same
    -- The table has the name for this very unit, which does not know it.
    have named := (indexed.table name other).mp found
    rw [same, Named, names] at named
    exact absurd named new
  | none =>
    simp only [found] at enter
    split_ifs at enter
    cases enter
    exact indexed.enter names found kind piece fits

theorem Indexed.unitChooseId {text : CString}
    (run : unitChooseId allocates m u text = some (m', result)) : Indexed m' := by
  rcases unitChooseId_cases run with rfl | ⟨name, part, set, names, mem, piece, rfl⟩
  · exact indexed
  have named : m.Named u name := by
    rw [Named, names]
    exact mem
  have same : part.isSome = (m.instancePart u).isSome := by
    obtain ⟨part', piece', old⟩ := indexed.part u name named
    rw [piece] at piece'
    cases piece'
    exact old
  refine ⟨indexed.table, indexed.kind, ?_, ?_, indexed.freed⟩
  · intro v s named'
    by_cases equal : v = u
    · subst equal
      simpa [same] using indexed.part v s named'
    · simpa [equal] using indexed.part v s named'
  · intro v alive typed live
    by_cases equal : v = u
    · subst equal
      exact ⟨name, by simp, named⟩
    · obtain ⟨s, chosen, old⟩ := indexed.chosen v alive typed live
      exact ⟨s, by simpa [equal] using chosen, old⟩

theorem Indexed.mergeUnits {other : U} (distinct : other ≠ u) (alive : m.alive u = true)
    (types : m.type u = m.type other)
    (parts : (m.instancePart u).isSome = (m.instancePart other).isSome)
    (run : mergeUnits fuel m u other = some m') : Indexed m' := by
  obtain ⟨renamed, links, names, -, rfl⟩ := mergeUnits_cases run
  obtain ⟨units, table, rfl⟩ := map_eq_some_iff.mp names
  have entries := get_replaceAll table
  have named : ∀ v s,
      s ∈ setMembers (update (update m.names u
        (OrderedSet.completeMove (m.names u) (m.names other))) other none v) ↔
      v ≠ other ∧ (m.Named v s ∨ (v = u ∧ m.Named other s)) := by
    intro v s
    by_cases gone : v = other
    · simp [gone, setMembers]
    · by_cases equal : v = u
      · subst equal
        simp [Named, mem_setMembers_completeMove, distinct.symm]
      · simp [Named, gone, equal]
  have unique : ∀ {v w s}, m.Named v s -> m.Named w s -> v = w := by
    intro v w s first second
    have here := (indexed.table s v).mpr first
    rw [(indexed.table s w).mpr second] at here
    exact (Option.some.inj here).symm
  refine ⟨?_, ?_, ?_, ?_, ?_⟩
  · intro s v
    simp only [entries, Named, named, mem_setMembers_completeMove]
    by_cases moved : m.Named u s ∨ m.Named other s
    · rw [if_pos (by simpa [Named] using moved)]
      simp only [Option.some.injEq]
      constructor
      · rintro rfl
        refine ⟨distinct.symm, ?_⟩
        simpa [Named] using moved
      · rintro ⟨notOther, old | ⟨rfl, -⟩⟩
        · rcases moved with mine | theirs
          · exact unique mine old
          · exact absurd (unique old theirs) notOther
        · rfl
    · rw [if_neg (by simpa [Named] using moved), indexed.table]
      rw [not_or] at moved
      constructor
      · intro old
        refine ⟨?_, .inl old⟩
        rintro rfl
        exact moved.2 old
      · rintro ⟨-, old | ⟨-, theirs⟩⟩
        · exact old
        · exact absurd theirs moved.2
  · intro v s here
    rcases ((named v s).mp here).2 with old | ⟨rfl, theirs⟩
    · exact indexed.kind v s old
    · simpa [types] using indexed.kind other s theirs
  · intro v s here
    rcases ((named v s).mp here).2 with old | ⟨rfl, theirs⟩
    · exact indexed.part v s old
    · simpa [parts] using indexed.part other s theirs
  · intro v living typed live
    by_cases gone : v = other
    · simp [gone] at live
    · simp only [update_of_ne gone] at live ⊢
      obtain ⟨s, chosen, old⟩ := indexed.chosen v living typed live
      exact ⟨s, chosen, (named v s).mpr ⟨gone, .inl old⟩⟩
  · intro v dead
    by_cases gone : v = other
    · simp [gone]
    · have ne : v ≠ u := by
        rintro rfl
        simp [alive] at dead
      simpa [gone, ne] using indexed.freed v dead

theorem Indexed.unitFree (run : unitFree fuel m u = some m') : Indexed m' := by
  unfold Registry.unitFree at run
  split_ifs at run with dead
  obtain ⟨links, -, rfl⟩ := map_eq_some_iff.mp run
  have named : ∀ v s, s ∈ setMembers (update m.names u none v) ↔ v ≠ u ∧ m.Named v s := by
    intro v s
    by_cases equal : v = u
    · simp [equal, setMembers]
    · simp [Named, equal]
  refine ⟨?_, ?_, ?_, ?_, ?_⟩
  · intro s v
    simp only [get_removeAll, Named, named]
    by_cases mine : m.units.get s = some u
    · have here : s ∈ setMembers (m.names u) := (indexed.table s u).mp mine
      rw [if_pos ⟨here, mine⟩]
      constructor
      · intro impossible
        cases impossible
      · rintro ⟨other, old⟩
        rw [(indexed.table s v).mpr old] at mine
        exact absurd (Option.some.inj mine) other
    · rw [if_neg (fun both => mine both.2), indexed.table]
      constructor
      · intro old
        refine ⟨?_, old⟩
        rintro rfl
        exact mine ((indexed.table s v).mpr old)
      · exact And.right
  · intro v s here
    obtain ⟨other, old⟩ := (named v s).mp here
    simpa [other] using indexed.kind v s old
  · intro v s here
    exact indexed.part v s ((named v s).mp here).2
  · intro v living typed live
    have other : v ≠ u := by
      rintro rfl
      simp at living
    simp only [update_of_ne other] at living typed ⊢
    obtain ⟨s, chosen, old⟩ := indexed.chosen v living typed live
    exact ⟨s, chosen, (named v s).mpr ⟨other, old⟩⟩
  · intro v freed
    by_cases equal : v = u
    · simp [equal]
    · simpa [equal] using indexed.freed v (by simpa [equal] using freed)

theorem Indexed.exec {call : Call U} (run : exec fuel m call = some m') : Indexed m' := by
  cases call with
  | new u => exact indexed.unitNew run
  | addName allocates u name =>
    obtain ⟨⟨m', result⟩, step, rfl⟩ := map_eq_some_iff.mp run
    exact indexed.unitAddName step
  | chooseId allocates u name =>
    obtain ⟨⟨m', result⟩, step, rfl⟩ := map_eq_some_iff.mp run
    exact indexed.unitChooseId step
  | addDependency allocates u d other addReference =>
    obtain ⟨⟨m', result⟩, step, rfl⟩ := map_eq_some_iff.mp run
    obtain ⟨links, rfl⟩ := unitAddDependency_links step
    exact ⟨indexed.table, indexed.kind, indexed.part, indexed.chosen, indexed.freed⟩
  | merge u other =>
    obtain ⟨⟨m', result⟩, step, rfl⟩ := map_eq_some_iff.mp run
    rcases unitMerge_cases step with ⟨rfl, -⟩ | ⟨target, found, alive, -, merged⟩
    · exact indexed
    · obtain ⟨distinct, -, -, types, parts⟩ := mergeTarget_spec found
      exact indexed.mergeUnits distinct alive types parts merged
  | free u => exact indexed.unitFree run
  | progress u loadState hasJob activeState =>
    simp only [Registry.exec, unitProgress] at run
    split_ifs at run with impossible
    cases run
    rw [not_or, not_or] at impossible
    refine ⟨indexed.table, indexed.kind, indexed.part, ?_, indexed.freed⟩
    intro v living typed live
    refine indexed.chosen v living typed ?_
    by_cases equal : v = u
    · exact equal ▸ impossible.2.1
    · simpa [equal] using live

end

def hasInstancePart (name : CString) : Bool :=
  (strchr name.bytes '@'.toUInt8).isSome

theorem unitNameToInstance_isSome (run : unitNameToInstance name = some part) :
    part.isSome = hasInstancePart name := by
  unfold unitNameToInstance at run
  unfold hasInstancePart
  cases position : strchr name.bytes '@'.toUInt8 with
  | none =>
    simp only [position, Option.some.injEq] at run
    simp [← run]
  | some at' =>
    simp only [position] at run
    cases dot : strrchr name.bytes '.'.toUInt8 with
    | none => simp [dot] at run
    | some e =>
      simp only [dot] at run
      split_ifs at run
      cases run
      rfl

def NameIndex (m : Registry U) : Prop :=
  (∀ s u, m.units.get s = some u ↔ m.Named u s) ∧
  (∀ s u v, m.Named u s -> m.Named v s -> u = v) ∧
  (∀ u, m.alive u = true -> m.type u ≠ none -> m.loadState u ≠ .merged ->
    ∃ s, m.id u = some s ∧ m.Named u s) ∧
  (∀ u s, m.Named u s -> ∃ t, m.type u = some t ∧ endswith s.bytes t.suffix.bytes = true) ∧
  (∀ u, (∀ s, m.Named u s -> hasInstancePart s = true) ∨
    (∀ s, m.Named u s -> hasInstancePart s = false))

def intoUnmerged (_ : Nat) (m : Registry U) : Call U -> Prop
  | .merge u _ => m.loadState u ≠ .merged
  | _ => True

instance (fuel : Nat) (m : Registry U) : (call : Call U) -> Decidable (intoUnmerged fuel m call)
  | .merge u _ => inferInstanceAs (Decidable (m.loadState u ≠ .merged))
  | .new _ | .addName _ _ _ | .chooseId _ _ _ | .addDependency _ _ _ _ _ | .free _ | .progress _ _ _ _ =>
    .isTrue trivial

theorem ReachableBy.indexed (reached : ReachableBy intoUnmerged m) : Indexed m := by
  induction reached with
  | start => exact .empty
  | call _ call fuel _ run ih => exact ih.exec run

theorem name_table_consistent (reached : ReachableBy intoUnmerged m) : NameIndex m := by
  have indexed := reached.indexed
  refine ⟨indexed.table, ?_, indexed.chosen, ?_, ?_⟩
  · intro s u v first second
    have here := (indexed.table s u).mpr first
    rw [(indexed.table s v).mpr second] at here
    exact (Option.some.inj here).symm
  · intro u s named
    obtain ⟨t, typed, kind⟩ := indexed.kind u s named
    have found := find?_some (show UnitType.all.find? _ = some t from kind)
    exact ⟨t, typed, found⟩
  · intro u
    have same : ∀ s, m.Named u s -> hasInstancePart s = (m.instancePart u).isSome := by
      intro s named
      obtain ⟨part, piece, part'⟩ := indexed.part u s named
      rw [← unitNameToInstance_isSome piece, part']
    cases kind : (m.instancePart u).isSome with
    | true => exact .inl fun s named => (same s named).trans kind
    | false => exact .inr fun s named => (same s named).trans kind

theorem name_table_consistent_merged :
    ∃ m : Registry (Fin 4), ReachableBy intoUnmerged m ∧
      m.units.get (serviceName "c") = some 0 ∧ NameIndex m := by
  have run : (execAllowed intoUnmerged 10 empty mergeKnown).map (fun m =>
      decide (m.units.get (serviceName "c") = some 0)) = some true := by
    decide
  obtain ⟨m, reached, passed⟩ := reachable_of_check run
  rw [decide_eq_true_iff] at passed
  exact ⟨m, reached, passed, name_table_consistent reached⟩

theorem merged_unit_without_id :
    ∃ m : Registry (Fin 4), ReachableBy intoUnmerged m ∧ m.alive 2 = true ∧
      m.type 2 = some .service ∧ ¬ ∃ s, m.id 2 = some s ∧ m.Named 2 s := by
  have run : (execAllowed intoUnmerged 10 empty (fourServices ++ [.merge 0 2])).map (fun m =>
      decide (m.alive 2 = true ∧ m.type 2 = some .service ∧ m.id 2 = none)) = some true := by
    decide
  obtain ⟨m, reached, passed⟩ := reachable_of_check run
  rw [decide_eq_true_iff] at passed
  obtain ⟨alive, typed, nameless⟩ := passed
  exact ⟨m, reached, alive, typed, by simp [nameless]⟩

end Registry

end Systemd
