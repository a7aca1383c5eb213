import Mathlib.Data.List.Infix
import Systemd.Basic.HashmapRefines

set_option autoImplicit false

namespace Systemd.Maps

open Association List Function

inductive Iterator where
  | first
  | entry (e : Ptr)
  | last

section

variable {M K V : Type}

def iterateEntry (s : Store M K V) (e : Ptr) : Option (Iterator × Option K × V) :=
  (s.cell e).map fun (key, value) =>
    (match s.iterateNext e with
      | some next => .entry next
      | none => .last, some key, value)

-- One call of hashmap_iterate; a key of none is a NULL key, and none that the iterator points to an
-- entry that has been freed.
def hashmapIterateStep (null : V) (s : Store M K V) (h : Option M) (i : Iterator) :
    Option (Iterator × Option K × V) :=
  match h, i with
  | none, _ | some _, .last => some (.last, none, null)
  | some h, .first =>
    match (s.maps h).iterateListHead with
    | none => some (.last, none, null)
    | some e => iterateEntry s e
  | some _, .entry e => iterateEntry s e

variable [DecidableEq M]

def removeKeys (null : V) (h : M) (keys : List K) (s : Store M K V) : Option (Store M K V) :=
  keys.foldlM (fun s key => (hashmapRemove null s h key).map Prod.fst) s

variable [DecidableEq V]

-- HASHMAP_FOREACH_KEY with a body that removes the keys `removals` names, given the entries returned
-- so far, the current one included. The result has all the entries the loop has returned.
def foreachLoop (null : V) (h : M) (removals : List (K × V) -> List K) :
    Nat -> Store M K V -> Iterator -> List (K × V) -> Option (Store M K V × List (K × V))
  | 0, _, _, _ => none
  | fuel + 1, s, i, returned => do
    let (i, key, value) ← hashmapIterateStep null s (some h) i
    match key with
    | none => some (s, returned)
    | some key =>
      if value = null then some (s, returned)
      else
        let returned := returned ++ [(key, value)]
        let s ← removeKeys null h (removals returned) s
        foreachLoop null h removals fuel s i returned

def hashmapForeach (null : V) (h : M) (removals : List (K × V) -> List K) (fuel : Nat)
    (s : Store M K V) : Option (Store M K V × List (K × V)) :=
  foreachLoop null h removals fuel s .first []

end

/-- The keys a whole loop removes that returns the entries. -/
def removedKeys {K V : Type} (removals : List (K × V) -> List K) (entries : List (K × V)) : List K :=
  entries.inits.tail.flatMap removals

def without {K V : Type} (compareFunc : K -> K -> Int) (keys : List K) (entries : List (K × V)) : List (K × V) :=
  entries.filter fun entry => keys.all fun key => compareFunc entry.1 key ≠ 0

/-- The map of a loop under way: `back` are the entries still to be returned, and the removals have
only thinned out what stands before them. -/
structure Midway {M K V : Type} (compareFunc : K -> K -> Int) (s : Store M K V) (A : M -> List (K × V)) (h : M)
    (back : List Ptr) (behind : List (K × V)) : Prop where
  represents : ∃ order front before, Represents compareFunc s order A ∧
    order h = front ++ back ∧ A h = before ++ behind ∧ front.length = before.length

section

variable {M K V : Type} [DecidableEq M] [DecidableEq V] {compareFunc : K -> K -> Int}
  {s : Store M K V} {A : M -> List (K × V)} {h : M} {e : Ptr} {back : List Ptr} {behind : List (K × V)}

theorem removedKeys_concat {K V : Type} (removals : List (K × V) -> List K) (returned : List (K × V))
    (entry : K × V) :
    removedKeys removals (returned ++ [entry]) =
      removedKeys removals returned ++ removals (returned ++ [entry]) := by
  have some : returned.inits ≠ [] := by cases returned <;> simp
  rw [removedKeys, removedKeys, inits_append, tail_append_of_ne_nil some]
  simp

theorem without_append {K V : Type} (compareFunc : K -> K -> Int) (first second : List K)
    (entries : List (K × V)) :
    without compareFunc second (without compareFunc first entries) =
      without compareFunc (first ++ second) entries := by
  simp only [without, filter_filter, all_append, Bool.and_comm]

theorem without_nil {K V : Type} (compareFunc : K -> K -> Int) (entries : List (K × V)) :
    without compareFunc [] entries = entries := by
  simp [without]

def iteratorAt (back : List Ptr) : Iterator :=
  match back.head? with
  | some e => .entry e
  | none => .last

omit [DecidableEq M] [DecidableEq V] in
theorem Midway.step (midway : Midway compareFunc s A h (e :: back) behind) :
    ∃ entry rest, behind = entry :: rest ∧ Midway compareFunc s A h back rest ∧
      iterateEntry s e = some (iteratorAt back, some entry.1, entry.2) := by
  obtain ⟨order, front, before, rep, nodes, entries, aligned⟩ := midway.represents
  obtain ⟨entry, rest, rfl, located⟩ := rep.locate_at nodes entries aligned
  refine ⟨entry, rest, rfl, ⟨order, front ++ [e], before ++ [entry], rep, ?_, ?_, ?_⟩, ?_⟩
  · exact nodes.trans (append_cons front e back)
  · exact entries.trans (append_cons before entry rest)
  · simp [aligned]
  · rw [iterateEntry, located.cell, rep.iterateNext_eq nodes]
    rfl

omit [DecidableEq V] in
theorem Midway.hashmapRemove (midway : Midway compareFunc s A h back behind) (null : V) (key : K)
    (returned : ∀ entry ∈ behind, compareFunc entry.1 key ≠ 0) :
    ∃ s' value, hashmapRemove null s h key = some (s', value) ∧
      Midway compareFunc s' (update A h (without compareFunc [key] (A h))) h back behind := by
  obtain ⟨order, front, before, rep, nodes, entries, aligned⟩ := midway.represents
  rw [Maps.hashmapRemove]
  have apart {others : List (K × V)} (absent : Absent (sameKey compareFunc) key others) :
      without compareFunc [key] others = others := by
    refine filter_eq_self.mpr fun other mem => ?_
    have ne := absent other mem
    rw [sameKey, beq_eq_false_iff_ne] at ne
    simpa using ne
  obtain ⟨scanned, absent⟩ | ⟨p, entry, front', back', before', behind', scanned, located, equal⟩ :=
    rep.scan_cases h key
  · rw [apart absent, update_eq_self]
    exact ⟨s, null, by rw [scanned]; rfl, order, front, before, rep, nodes, entries, aligned⟩
  · obtain ⟨s', removed, rep', -⟩ := rep.removeEntry located
    have rest : without compareFunc [key] (A h) = before' ++ behind' := by
      rw [located.entries, without, filter_append, filter_cons_of_neg (by simp [equal]),
        ← filter_append]
      exact apart (rep.other_keys located equal)
    rw [rest]
    refine ⟨s', entry.2, by rw [scanned]; simp [located.cell, removed], ?_⟩
    have sameLength : front'.length = before'.length := by
      simpa using congrArg List.length located.ahead
    -- The entry found stands before the ones to come, at the same place in both lists.
    obtain ⟨between, rfl, rfl⟩ : ∃ between, before = before' ++ entry :: between ∧
        behind' = between ++ behind := by
      rcases append_eq_append_iff.mp (located.entries.symm.trans entries) with
        ⟨tail, ahead, after⟩ | ⟨tail, _, after⟩
      · cases tail with
        | nil =>
          rw [nil_append] at after
          exact absurd equal (returned entry (after ▸ mem_cons_self ..))
        | cons first between =>
          obtain ⟨rfl, rfl⟩ := List.cons.inj after
          exact ⟨between, ahead, rfl⟩
      · exact absurd equal (returned entry (by simp [after]))
    obtain ⟨nodesBetween, rfl, rfl⟩ : ∃ between, front = front' ++ p :: between ∧
        back' = between ++ back := by
      rw [length_append, length_cons] at aligned
      rcases append_eq_append_iff.mp (located.nodes.symm.trans nodes) with
        ⟨tail, ahead, after⟩ | ⟨tail, ahead, _⟩
      · cases tail with
        | nil =>
          rw [ahead, length_append, length_nil] at aligned
          omega
        | cons first between =>
          obtain ⟨rfl, rfl⟩ := List.cons.inj after
          exact ⟨between, ahead, rfl⟩
      · rw [ahead, length_append] at sameLength
        omega
    refine ⟨_, front' ++ nodesBetween, before' ++ between, rep', ?_, ?_, ?_⟩
    · simp
    · simp
    · simp only [length_append, length_cons] at aligned ⊢
      omega

omit [DecidableEq V] in
theorem Midway.removeKeys (midway : Midway compareFunc s A h back behind) (null : V) (keys : List K)
    (returned : ∀ key ∈ keys, ∀ entry ∈ behind, compareFunc entry.1 key ≠ 0) :
    ∃ s', removeKeys null h keys s = some s' ∧
      Midway compareFunc s' (update A h (without compareFunc keys (A h))) h back behind := by
  induction keys generalizing s A with
  | nil =>
    rw [without_nil, update_eq_self]
    exact ⟨s, rfl, midway⟩
  | cons key keys ih =>
    obtain ⟨s1, value, removed, midway1⟩ := midway.hashmapRemove null key (returned key (by simp))
    obtain ⟨s2, rest, midway2⟩ := ih midway1 fun key mem => returned key (by simp [mem])
    rw [update_self, update_idem, without_append] at midway2
    refine ⟨s2, ?_, midway2⟩
    rw [Maps.removeKeys, foldlM_cons, removed]
    exact rest

-- Induction on the entries to come. The pointer the iterator holds is that of the next one, which no
-- removal has touched.
theorem Midway.foreachLoop (null : V) (removals : List (K × V) -> List K) (entries : List (K × V))
    (values : ∀ entry ∈ entries, entry.2 ≠ null)
    (only : ∀ returned rest, entries = returned ++ rest -> ∀ key ∈ removals returned,
      ∀ entry ∈ rest, compareFunc entry.1 key ≠ 0)
    (returned : List (K × V)) (split : entries = returned ++ behind)
    (midway : Midway compareFunc s (update A h (without compareFunc (removedKeys removals returned) (A h)))
      h back behind) (fuel : Nat) (enough : behind.length < fuel) :
    ∃ s' order, foreachLoop null h removals fuel s (iteratorAt back) returned = some (s', entries) ∧
      Represents compareFunc s' order
        (update A h (without compareFunc (removedKeys removals entries) (A h))) := by
  induction back generalizing s behind returned fuel with
  | nil =>
    obtain ⟨order, front, before, rep, nodes, held, aligned⟩ := midway.represents
    have nothing := rep.none_behind nodes held aligned
    subst nothing
    obtain ⟨fuel, rfl⟩ := Nat.exists_eq_succ_of_ne_zero (Nat.ne_of_gt enough)
    rw [append_nil] at split
    subst split
    exact ⟨s, order, rfl, rep⟩
  | cons e back ih =>
    obtain ⟨entry, rest, rfl, next, iterated⟩ := midway.step
    obtain ⟨fuel, rfl⟩ := Nat.exists_eq_succ_of_ne_zero (Nat.ne_of_gt (Nat.zero_lt_of_lt enough))
    have split' : entries = (returned ++ [entry]) ++ rest := by simpa using split
    obtain ⟨s1, removed, midway1⟩ := next.removeKeys null _ (only _ rest split')
    rw [update_self, update_idem, without_append, ← removedKeys_concat] at midway1
    obtain ⟨s2, order, finished, rep⟩ :=
      ih (returned ++ [entry]) split' midway1 fuel (by simpa using enough)
    refine ⟨s2, order, ?_, rep⟩
    have value : entry.2 ≠ null := values entry (by simp [split])
    have called : hashmapIterateStep null s (some h) (iteratorAt (e :: back)) =
        some (iteratorAt back, some entry.1, entry.2) := iterated
    rw [Maps.foreachLoop, called]
    simp [value, removed, finished]

end

section

variable {M K V : Type} [DecidableEq M] [DecidableEq V] {compareFunc : K -> K -> Int}
  {s : Store M K V} {order : M -> List Ptr} {A : M -> List (K × V)}

omit [DecidableEq M] [DecidableEq V] in
theorem Represents.distinct_keys (rep : Represents compareFunc s order A) (h : M)
    {returned rest : List (K × V)} (split : A h = returned ++ rest) :
    ∀ a ∈ returned, ∀ b ∈ rest, compareFunc a.1 b.1 ≠ 0 := by
  intro a memberA b memberB clash
  have contents := rep.contents h
  rw [split, map_append] at contents
  obtain ⟨front, back, nodes, ahead, after⟩ := map_eq_append_iff.mp contents
  have inFront : some a ∈ front.map s.cell := ahead ▸ mem_map_of_mem memberA
  have inBack : some b ∈ back.map s.cell := after ▸ mem_map_of_mem memberB
  obtain ⟨p, memberP, cellP⟩ := mem_map.mp inFront
  obtain ⟨q, memberQ, cellQ⟩ := mem_map.mp inBack
  have twin := rep.keys (nodes ▸ mem_append_left _ memberP)
    (nodes ▸ mem_append_right _ memberQ) cellP cellQ clash
  have nodup := (rep.valid.iterate h).nodup
  rw [nodes] at nodup
  exact disjoint_of_nodup_append nodup memberP (twin ▸ memberQ)

theorem Represents.hashmapForeach (rep : Represents compareFunc s order A) (null : V) (h : M)
    (removals : List (K × V) -> List K) (values : ∀ entry ∈ A h, entry.2 ≠ null)
    (only : ∀ returned, returned <+: A h -> ∀ key ∈ removals returned,
      ∃ entry ∈ returned, compareFunc entry.1 key = 0)
    (fuel : Nat) (enough : (A h).length < fuel) :
    ∃ s' order', hashmapForeach null h removals fuel s = some (s', A h) ∧
      Represents compareFunc s' order'
        (update A h (without compareFunc (removedKeys removals (A h)) (A h))) := by
  have law := (rep.lawful h).equivalence
  have midway : Midway compareFunc s (update A h (without compareFunc (removedKeys removals []) (A h))) h
      (order h) (A h) := by
    rw [show removedKeys removals [] = [] from rfl, without_nil, update_eq_self]
    exact ⟨order, [], [], rep, rfl, rfl, rfl⟩
  obtain ⟨s', order', finished, rep'⟩ := Midway.foreachLoop null removals (A h) values
    (by
      intro returned rest split key mem entry later clash
      obtain ⟨other, before, equal⟩ := only returned ⟨rest, split.symm⟩ key mem
      exact rep.distinct_keys h split other before entry later (law.trans equal (law.symm clash)))
    [] rfl midway fuel enough
  obtain ⟨fuel, rfl⟩ := Nat.exists_eq_succ_of_ne_zero (Nat.ne_of_gt (Nat.zero_lt_of_lt enough))
  have first : hashmapIterateStep null s (some h) .first =
      hashmapIterateStep null s (some h) (iteratorAt (order h)) := by
    have head := rep.valid.head h
    unfold hashmapIterateStep iteratorAt
    cases nodes : order h with
    | nil => simp [head, nodes]
    | cons e back => simp [head, nodes]
  refine ⟨s', order', ?_, rep'⟩
  rw [Maps.hashmapForeach, ← finished, Maps.foreachLoop, Maps.foreachLoop, first]

-- Whatever the calls before, and whichever of the entries it has been given the body of the loop
-- removes. Afterwards these are gone, and nothing else is.
theorem foreach_returns_each_entry {hashFunc : K -> UInt32} (lawful : Lawful hashFunc compareFunc)
    (null : V) (ops : List (Operation M K V)) (A : M -> List (K × V)) (ans : List (Answer V))
    (calls : expectedCalls null (sameKey compareFunc) (fun _ => []) ops = some (A, ans)) (h : M)
    (values : ∀ entry ∈ A h, entry.2 ≠ null) (removals : List (K × V) -> List K)
    (only : ∀ returned, returned <+: A h -> ∀ key ∈ removals returned,
      ∃ entry ∈ returned, compareFunc entry.1 key = 0)
    (fuel : Nat) (enough : (A h).length < fuel) :
    ∃ s s' order' A', executeAll null (newMaps hashFunc compareFunc) ops = some (s, ans) ∧
      hashmapForeach null h removals fuel s = some (s', A h) ∧ Represents compareFunc s' order' A' ∧
      A' h = without compareFunc (removedKeys removals (A h)) (A h) ∧ ∀ other, other ≠ h -> A' other = A other := by
  have run := (newMaps_represents (M := M) (V := V) lawful).executeAll_matches null ops
  rw [calls] at run
  obtain ⟨s, order, executed, rep⟩ := run
  obtain ⟨s', order', finished, rep'⟩ := rep.hashmapForeach null h removals values only fuel enough
  exact ⟨s, s', order', _, executed, finished, rep', update_self _ _ _,
    fun other apart => update_of_ne apart _ _⟩

end

theorem foreach_returns_each_colliding :
    ∃ s s' order' A', executeAll 0 (newMaps Nat.toUInt32 differ) collidingCalls =
        some (s, [.code (.ok 1), .code (.ok 1), .code (.ok 1), .code (.error .eexist), .code (.ok 0),
          .code (.ok 0), .code (.ok 1), .nothing]) ∧
      hashmapForeach 0 false (fun returned => (returned.map Prod.fst).filter (· ≠ 1)) 4 s =
        some (s', [(5, 50), (1, 20), (3, 13)]) ∧
      Represents differ s' order' A' ∧ A' false = [(1, 20)] := by
  obtain ⟨s, s', order', A', executed, finished, represents, left, -⟩ :=
    foreach_returns_each_entry differ_lawful 0 collidingCalls _ _ rfl false (by decide)
      (fun returned => (returned.map Prod.fst).filter (· ≠ 1))
      (by
        intro returned _ key mem
        obtain ⟨entry, inside, rfl⟩ := mem_map.mp (mem_of_mem_filter mem)
        exact ⟨entry, inside, differ_lawful.equivalence.refl _⟩)
      4 (by decide)
  exact ⟨s, s', order', A', executed, finished, represents, left⟩

end Systemd.Maps
