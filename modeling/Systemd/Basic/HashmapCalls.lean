import Systemd.Basic.HashmapEntries

set_option autoImplicit false

namespace Systemd.Maps

open Association List Option Function

section

variable {K V : Type} [DecidableEq V] (null : V) (same : K -> K -> Bool)

-- What the calls do to the association list of one map, and what they return.
def expectedPut (key : K) (value : V) (entries : List (K × V)) :
    List (K × V) × Except SetErrno Nat :=
  match lookup same key entries with
  | some entry => (entries, if entry.2 = value then .ok 0 else .error .eexist)
  | none => (entries ++ [(key, value)], .ok 1)

def expectedReplace (key : K) (value : V) (entries : List (K × V)) :
    List (K × V) × Except SetErrno Nat :=
  match lookup same key entries with
  | some _ => (rewrite same key value entries, .ok 0)
  | none => (entries ++ [(key, value)], .ok 1)

def expectedGet (key : K) (entries : List (K × V)) : V :=
  match lookup same key entries with
  | some entry => entry.2
  | none => null

def expectedRemove (key : K) (entries : List (K × V)) : List (K × V) × V :=
  match lookup same key entries with
  | some entry => (erase same key entries, entry.2)
  | none => (entries, null)

def expectedRemoveValue (key : K) (value : V) (entries : List (K × V)) : List (K × V) × V :=
  match lookup same key entries with
  | some entry => if entry.2 = value then (erase same key entries, value) else (entries, null)
  | none => (entries, null)

def expectedRemoveAndPut (oldKey newKey : K) (value : V) (entries : List (K × V)) :
    List (K × V) × Except SetErrno Nat :=
  match lookup same oldKey entries, lookup same newKey entries with
  | none, _ => (entries, .error .enoent)
  | some _, some _ => (entries, .error .eexist)
  | some _, none => (erase same oldKey entries ++ [(newKey, value)], .ok 0)

def expectedRemoveAndReplace (oldKey newKey : K) (value : V) (entries : List (K × V)) :
    List (K × V) × Except SetErrno Nat :=
  match lookup same oldKey entries with
  | none => (entries, .error .enoent)
  | some _ => (erase same oldKey (erase same newKey entries) ++ [(newKey, value)], .ok 0)

def expectedStealFirst (entries : List (K × V)) : List (K × V) × V :=
  match entries with
  | [] => ([], null)
  | entry :: rest => (rest, entry.2)

variable {M : Type} [DecidableEq M]

def expectedMoveOne (h other : M) (key : K) (A : M -> List (K × V)) :
    (M -> List (K × V)) × Except SetErrno Nat :=
  match lookup same key (A h), lookup same key (A other) with
  | some _, _ => (A, .error .eexist)
  | none, none => (A, .error .enoent)
  | none, some entry =>
    (update (update A other (erase same key (A other))) h (A h ++ [entry]),
      .ok 0)

end

section

variable {M K V : Type} [DecidableEq M] [DecidableEq V] {compareFunc : K -> K -> Int}
  {s : Store M K V} {order : M -> List Ptr} {A : M -> List (K × V)} {h : M} {e : Ptr}
  {entry : K × V} {front back : List Ptr} {before behind : List (K × V)} {key : K}

namespace Represents

omit [DecidableEq V]

section

variable (rep : Represents compareFunc s order A)
include rep

theorem unlinkEntry_eq (located : Located s order A h e entry front back before behind)
    (equal : compareFunc entry.1 key = 0) :
    unlinkEntry s h e (bucketOf (s.maps h) key) =
      some (Maps.unlinked s h e (bucketOf (s.maps h) entry.1)) := by
  rw [← rep.bucketOf_eq equal]
  exact Maps.unlinkEntry_eq rep.valid _ located.mem

theorem linkEntry_eq (cell : s.cell e = some entry) (hash : Nat) :
    linkEntry s h e hash =
      if (A h).length + 1 < 2 ^ 32 then some (Maps.linked s h e hash) else none := by
  rw [Maps.linkEntry_eq rep.valid h hash (allocated_of_cell cell), rep.length_eq]

section

variable (located : Located s order A h e entry front back before behind)
include located

theorem removeEntry :
    ∃ s', Maps.removeEntry s h e = some s' ∧
      Represents compareFunc s' (update order h (front ++ back))
        (update A h (before ++ behind)) ∧
      ∀ p, p ≠ e -> s'.cell p = s.cell p := by
  have own := (rep.lawful h).equivalence.refl entry.1
  refine ⟨freeEntry (Maps.unlinked s h e (bucketOf (s.maps h) entry.1)) e, ?_, ?_, ?_⟩
  · simp [Maps.removeEntry, located.cell, rep.unlinkEntry_eq located own]
  · exact (rep.unlinked located).update_cell (rep.detached located) none _ (Nat.le_refl _)
      (.inl rfl)
  · intro p other
    exact update_of_ne other _ _

omit [DecidableEq M] in
theorem lookup_eq (equal : compareFunc entry.1 key = 0) :
    lookup (sameKey compareFunc) key (A h) = some entry := by
  have absent := rep.other_keys located equal
  rw [located.entries]
  exact lookup_split (by simpa [sameKey] using equal) absent.left

omit [DecidableEq M] in
theorem erase_eq (equal : compareFunc entry.1 key = 0) :
    erase (sameKey compareFunc) key (A h) = before ++ behind := by
  have absent := rep.other_keys located equal
  rw [located.entries]
  exact erase_split (by simpa [sameKey] using equal) absent.left

end

theorem putNew_eq (value : V) (absent : Absent (sameKey compareFunc) key (A h)) :
    ∃ s', putNew s h key value = (if (A h).length + 1 < 2 ^ 32 then some s' else none) ∧
      ((A h).length + 1 < 2 ^ 32 ->
        Represents compareFunc s' (update order h (order h ++ [s.nextEntry]))
          (update A h (A h ++ [(key, value)]))) := by
  have detached : ∀ h', s.nextEntry ∉ order h' := by
    intro h' mem
    obtain ⟨entry, cell⟩ := rep.valid.cells h' _ mem
    exact absurd (rep.valid.fresh _ entry cell) (Nat.lt_irrefl _)
  have rep' := rep.update_cell detached (some (key, value)) (s.nextEntry + 1) (Nat.le_succ _)
    (.inr (Nat.lt_succ_self _))
  exact ⟨_, rep'.linkEntry_eq (update_self _ _ _) _,
    rep'.linked (update_self _ _ _) detached absent⟩

theorem rekey_eq (located : Located s order A h e entry front back before behind) {oldKey newKey : K}
    (value : V) (equal : compareFunc entry.1 oldKey = 0)
    (absent : Absent (sameKey compareFunc) newKey (before ++ behind)) :
    ∃ s' order', rekey s h e oldKey newKey value = some s' ∧
      Represents compareFunc s' order'
        (update A h (before ++ behind ++ [(newKey, value)])) := by
  have cells := unlinked_sameCells s h e (bucketOf (s.maps h) entry.1)
  have own : (Maps.unlinked s h e (bucketOf (s.maps h) entry.1)).cell e = some entry := by
    rw [cells.cell, located.cell]
  have rep' := (rep.unlinked located).update_cell (rep.detached located) (some (newKey, value))
    s.nextEntry (Nat.le_refl _) (.inr (rep.valid.fresh e entry located.cell))
  have fits : (update A h (before ++ behind) h).length + 1 < 2 ^ 32 := by
    have bound := rep.length_lt h
    rw [located.entries] at bound
    simp only [update_self, length_append, length_cons] at bound ⊢
    omega
  have linked := rep'.linked (h := h) (update_self _ _ _) (rep.detached located)
    (by rwa [update_self]) fits
  simp only [update_self, update_idem] at linked
  refine ⟨_, _, ?_, linked⟩
  rw [rekey, rep.unlinkEntry_eq located equal, bind_eq_bind, bind_some, setEntry,
    if_pos (allocated_of_cell own), bind_some]
  exact (rep'.linkEntry_eq (update_self _ _ _) _).trans (if_pos fits)

end

/-- A call that can add entries to `h`: it returns if the counter of the map can hold the number of
entries; otherwise an assertion fails. -/
def Grows {R : Type} (compareFunc : K -> K -> Int) (result : Option (Store M K V × R))
    (A : M -> List (K × V)) (h : M) (answer : R) : Prop :=
  ((A h).length < 2 ^ 32 ->
    ∃ s' order', result = some (s', answer) ∧ Represents compareFunc s' order' A) ∧
  (¬ (A h).length < 2 ^ 32 -> result = none)

omit [DecidableEq M] in
theorem grows {R : Type} (rep : Represents compareFunc s order A) (h : M) (answer : R) :
    Grows compareFunc (some (s, answer)) A h answer :=
  ⟨fun _ => ⟨s, order, rfl, rep⟩, fun large => absurd (rep.length_lt h) large⟩

theorem put_absent (rep : Represents compareFunc s order A) (value : V)
    (absent : Absent (sameKey compareFunc) key (A h)) (answer : Except SetErrno Nat) :
    Grows compareFunc ((putNew s h key value).bind fun s => some (s, answer))
      (update A h (A h ++ [(key, value)])) h answer := by
  obtain ⟨s', result, rep'⟩ := rep.putNew_eq value absent
  rw [Grows, result, update_self, length_append, length_singleton]
  constructor
  · intro fits
    refine ⟨s', _, ?_, rep' fits⟩
    rw [if_pos fits, bind_some]
  · intro large
    rw [if_neg large, bind_none]

end Represents

namespace Represents

section

variable (rep : Represents compareFunc s order A)
include rep

theorem hashmapPut_found {value : V} (found : lookup (sameKey compareFunc) key (A h) = some entry) :
    hashmapPut s h key value =
      some (s, if entry.2 = value then .ok 0 else .error .eexist) := by
  rw [Maps.hashmapPut]
  obtain ⟨scanned, absent⟩ | ⟨e, entry', front, back, before, behind, scanned, located, equal⟩ :=
    rep.scan_cases h key
  · rw [lookup_of_absent absent] at found
    cases found
  · rw [rep.lookup_eq located equal] at found
    cases found
    simp only [scanned, bind_eq_bind, bind_some, located.cell]
    split
    · rfl
    · rfl

theorem hashmapPut_absent (value : V) (absent : Absent (sameKey compareFunc) key (A h)) :
    hashmapPut s h key value = (putNew s h key value).bind fun s => some (s, .ok 1) := by
  rw [Maps.hashmapPut]
  obtain ⟨scanned, -⟩ | ⟨e, entry, front, back, before, behind, scanned, located, equal⟩ :=
    rep.scan_cases h key
  · rw [scanned]
    rfl
  · have found := rep.lookup_eq located equal
    rw [lookup_of_absent absent] at found
    cases found

theorem hashmapPut (h : M) (key : K) (value : V) :
    Grows compareFunc (hashmapPut s h key value)
      (update A h (expectedPut (sameKey compareFunc) key value (A h)).1) h
      (expectedPut (sameKey compareFunc) key value (A h)).2 := by
  rw [expectedPut]
  cases found : lookup (sameKey compareFunc) key (A h) with
  | none =>
    have absent := lookup_eq_none.mp found
    rw [rep.hashmapPut_absent value absent]
    exact rep.put_absent value absent (.ok 1)
  | some entry =>
    rw [rep.hashmapPut_found found, update_eq_self]
    exact rep.grows h _

theorem hashmapReplace (h : M) (key : K) (value : V) :
    Grows compareFunc (hashmapReplace s h key value)
      (update A h (expectedReplace (sameKey compareFunc) key value (A h)).1) h
      (expectedReplace (sameKey compareFunc) key value (A h)).2 := by
  rw [Maps.hashmapReplace]
  obtain ⟨scanned, absent⟩ | ⟨e, entry, front, back, before, behind, scanned, located, equal⟩ :=
    rep.scan_cases h key
  · have put := rep.hashmapPut h key value
    rw [expectedPut, lookup_of_absent absent] at put
    rw [scanned, expectedReplace, lookup_of_absent absent]
    exact put
  · have absent := rep.other_keys located equal
    have rewritten : rewrite (sameKey compareFunc) key value (A h) =
        before ++ (key, value) :: behind := by
      rw [located.entries]
      exact rewrite_split (by simpa [sameKey] using equal) absent.left absent.right
    rw [scanned, expectedReplace, rep.lookup_eq located equal, rewritten]
    simp only [bind_eq_bind, bind_some, setEntry, allocated_of_cell located.cell,
      if_true]
    exact (rep.rewrite_cell located value equal).grows h _

omit [DecidableEq M] [DecidableEq V] in
theorem hashmapGet (null : V) (h : M) (key : K) :
    hashmapGet null s h key = some (expectedGet null (sameKey compareFunc) key (A h)) := by
  rw [Maps.hashmapGet]
  obtain ⟨scanned, absent⟩ | ⟨e, entry, front, back, before, behind, scanned, located, equal⟩ :=
    rep.scan_cases h key
  · rw [scanned, expectedGet, lookup_of_absent absent]
    rfl
  · rw [scanned, expectedGet, rep.lookup_eq located equal]
    simp [located.cell]

end

def Returns {R : Type} (compareFunc : K -> K -> Int) (result : Option (Store M K V × R))
    (A : M -> List (K × V)) (answer : R) : Prop :=
  ∃ s' order', result = some (s', answer) ∧ Represents compareFunc s' order' A

section

variable (rep : Represents compareFunc s order A)
include rep

omit [DecidableEq V] in
theorem hashmapRemove (null : V) (h : M) (key : K) :
    Returns compareFunc (hashmapRemove null s h key)
      (update A h (expectedRemove null (sameKey compareFunc) key (A h)).1)
      (expectedRemove null (sameKey compareFunc) key (A h)).2 := by
  rw [Maps.hashmapRemove]
  obtain ⟨scanned, absent⟩ | ⟨e, entry, front, back, before, behind, scanned, located, equal⟩ :=
    rep.scan_cases h key
  · rw [scanned, expectedRemove, lookup_of_absent absent, update_eq_self]
    exact ⟨s, order, rfl, rep⟩
  · obtain ⟨s', removed, rep', -⟩ := rep.removeEntry located
    rw [scanned, expectedRemove, rep.lookup_eq located equal, rep.erase_eq located equal]
    refine ⟨s', _, ?_, rep'⟩
    simp [located.cell, removed]

theorem hashmapRemoveValue (null : V) (h : M) (key : K) (value : V) :
    Returns compareFunc (hashmapRemoveValue null s h key value)
      (update A h (expectedRemoveValue null (sameKey compareFunc) key value (A h)).1)
      (expectedRemoveValue null (sameKey compareFunc) key value (A h)).2 := by
  rw [Maps.hashmapRemoveValue]
  obtain ⟨scanned, absent⟩ | ⟨e, entry, front, back, before, behind, scanned, located, equal⟩ :=
    rep.scan_cases h key
  · rw [scanned, expectedRemoveValue, lookup_of_absent absent, update_eq_self]
    exact ⟨s, order, rfl, rep⟩
  · rw [scanned, expectedRemoveValue, rep.lookup_eq located equal, rep.erase_eq located equal]
    by_cases wanted : entry.2 = value
    · obtain ⟨s', removed, rep', -⟩ := rep.removeEntry located
      simp only [if_pos wanted]
      refine ⟨s', _, ?_, rep'⟩
      simp [located.cell, removed, wanted]
    · simp only [if_neg wanted, update_eq_self]
      refine ⟨s, order, ?_, rep⟩
      simp [located.cell, wanted]

omit [DecidableEq V] in
theorem hashmapRemoveAndPut (h : M) (oldKey newKey : K) (value : V) :
    Returns compareFunc (hashmapRemoveAndPut s h oldKey newKey value)
      (update A h
        (expectedRemoveAndPut (sameKey compareFunc) oldKey newKey value (A h)).1)
      (expectedRemoveAndPut (sameKey compareFunc) oldKey newKey value (A h)).2 := by
  rw [Maps.hashmapRemoveAndPut]
  obtain ⟨scanned, absent⟩ | ⟨e, entry, front, back, before, behind, scanned, located, equal⟩ :=
    rep.scan_cases h oldKey
  · rw [scanned, expectedRemoveAndPut, lookup_of_absent absent, update_eq_self]
    exact ⟨s, order, rfl, rep⟩
  · obtain ⟨scanned', absent⟩ | ⟨k, twin, _, _, _, _, scanned', located', equal'⟩ :=
      rep.scan_cases h newKey
    · have rest : Absent (sameKey compareFunc) newKey (before ++ behind) := by
        rw [located.entries] at absent
        exact absent.without
      obtain ⟨s', order', result, rep'⟩ := rep.rekey_eq located value equal rest
      rw [scanned, expectedRemoveAndPut, rep.lookup_eq located equal, lookup_of_absent absent,
        rep.erase_eq located equal]
      refine ⟨s', order', ?_, rep'⟩
      simp [scanned', result]
    · rw [scanned, expectedRemoveAndPut, rep.lookup_eq located equal,
        rep.lookup_eq located' equal', update_eq_self]
      refine ⟨s, order, ?_, rep⟩
      simp [scanned']

omit [DecidableEq V] in
theorem hashmapRemoveAndReplace (h : M) (oldKey newKey : K) (value : V) :
    Returns compareFunc (hashmapRemoveAndReplace s h oldKey newKey value)
      (update A h
        (expectedRemoveAndReplace (sameKey compareFunc) oldKey newKey value (A h)).1)
      (expectedRemoveAndReplace (sameKey compareFunc) oldKey newKey value (A h)).2 := by
  rw [Maps.hashmapRemoveAndReplace]
  obtain ⟨scanned, absent⟩ | ⟨e, entry, front, back, before, behind, scanned, located, equal⟩ :=
    rep.scan_cases h oldKey
  · rw [scanned, expectedRemoveAndReplace, lookup_of_absent absent, update_eq_self]
    exact ⟨s, order, rfl, rep⟩
  rw [scanned, expectedRemoveAndReplace, rep.lookup_eq located equal]
  obtain ⟨scanned', absent⟩ | ⟨k, twin, front', back', before', behind', scanned', located', equal'⟩ :=
    rep.scan_cases h newKey
  · obtain ⟨s', order', result, rep'⟩ := rep.rekey_eq located value equal (by
      rw [located.entries] at absent
      exact absent.without)
    rw [erase_of_absent absent, rep.erase_eq located equal]
    refine ⟨s', order', ?_, rep'⟩
    simp [scanned', result]
  by_cases single : e = k
  · -- Both keys stand for one entry.
    subst single
    have only : twin = entry := some.inj (located'.cell.symm.trans located.cell)
    subst only
    obtain ⟨s', order', result, rep'⟩ := rep.rekey_eq located value equal
      (rep.other_keys located equal')
    rw [rep.erase_eq located equal', erase_of_absent (rep.other_keys located equal)]
    refine ⟨s', order', ?_, rep'⟩
    simp [scanned', result]
  · obtain ⟨s', removed, rep', cells⟩ := rep.removeEntry located'
    have mem : e ∈ update order h (front' ++ back') h := by
      have inside := located.mem
      rw [located'.nodes] at inside
      rw [update_self]
      simpa [single] using inside
    obtain ⟨front'', back'', split⟩ := append_of_mem mem
    obtain ⟨entry'', before'', behind'', located''⟩ := rep'.locate split
    have only : entry'' = entry := by
      have cell := located''.cell
      rw [cells e single, located.cell] at cell
      exact (some.inj cell).symm
    subst only
    have absent : Absent (sameKey compareFunc) newKey (before'' ++ behind'') := by
      have whole := rep.other_keys located' equal'
      have entries := located''.entries
      rw [update_self] at entries
      rw [entries] at whole
      exact whole.without
    obtain ⟨s'', order'', result, rep''⟩ := rep'.rekey_eq located'' value equal absent
    have erased := rep'.erase_eq located'' equal
    rw [update_self] at erased
    rw [update_idem] at rep''
    rw [rep.erase_eq located' equal', erased]
    refine ⟨s'', order'', ?_, rep''⟩
    simp [scanned', single, removed, result]

omit [DecidableEq M] [DecidableEq V] in
theorem first (h : M) :
    ((s.maps h).iterateListHead = none ∧ A h = []) ∨
    ∃ e entry back behind, (s.maps h).iterateListHead = some e ∧
      Located s order A h e entry [] back [] behind := by
  have contents := rep.contents h
  cases nodes : order h with
  | nil =>
    rw [nodes, map_nil, eq_comm, map_eq_nil_iff] at contents
    refine .inl ⟨?_, contents⟩
    rw [rep.valid.head, nodes, head?_nil]
  | cons e back =>
    have split : order h = [] ++ e :: back := nodes
    obtain ⟨entry, before, behind, located⟩ := rep.locate split
    have nothing := located.ahead
    rw [map_nil, eq_comm, map_eq_nil_iff] at nothing
    subst nothing
    refine .inr ⟨e, entry, back, behind, ?_, located⟩
    rw [rep.valid.head, nodes, head?_cons]

section

omit [DecidableEq V]

theorem hashmapStealFirst (null : V) (h : M) :
    Returns compareFunc (hashmapStealFirst null s h)
      (update A h (expectedStealFirst null (A h)).1) (expectedStealFirst null (A h)).2 := by
  rw [Maps.hashmapStealFirst]
  obtain ⟨head, empty⟩ | ⟨e, entry, back, behind, head, located⟩ := rep.first h
  · rw [head, empty, expectedStealFirst, ← empty, update_eq_self]
    exact ⟨s, order, rfl, rep⟩
  · obtain ⟨s', removed, rep', -⟩ := rep.removeEntry located
    rw [head, located.entries]
    refine ⟨s', _, ?_, rep'⟩
    simp [located.cell, removed, expectedStealFirst]

theorem clearLoop_eq (h : M) (fuel : Nat) (enough : (A h).length < fuel) :
    ∃ s' order', clearLoop h fuel s = some s' ∧ Represents compareFunc s' order' (update A h []) := by
  induction fuel generalizing s order A with
  | zero => simp at enough
  | succ fuel ih =>
    rw [clearLoop]
    obtain ⟨head, empty⟩ | ⟨e, entry, back, behind, head, located⟩ := rep.first h
    · rw [head, ← empty, update_eq_self]
      exact ⟨s, order, rfl, rep⟩
    · obtain ⟨s', removed, rep', -⟩ := rep.removeEntry located
      have shorter : (update A h ([] ++ behind) h).length < fuel := by
        rw [located.entries] at enough
        rw [update_self]
        simpa using enough
      obtain ⟨s'', order'', result, rep''⟩ := ih rep' shorter
      rw [update_idem] at rep''
      rw [head]
      refine ⟨s'', order'', ?_, rep''⟩
      simp [removed, result]

theorem hashmapClear (h : M) :
    ∃ s' order', hashmapClear s h = some s' ∧ Represents compareFunc s' order' (update A h []) := by
  refine rep.clearLoop_eq h _ ?_
  rw [rep.valid.count, rep.length_eq]
  exact Nat.lt_succ_self _

end

end

end Represents

end

end Systemd.Maps
