import Mathlib.Data.List.Perm.Subperm
import Systemd.Basic.HashmapLinks
import Systemd.Shared.Association

set_option autoImplicit false

namespace Systemd.Maps

open Association Chains List Function

section

variable {M K V : Type}

def sameKey (compareFunc : K -> K -> Int) (a b : K) : Bool :=
  compareFunc a b == 0

/-- The maps are well formed, and each holds the entries that the association list `A h` holds, in
the same order. -/
structure Represents (compareFunc : K -> K -> Int) (s : Store M K V) (order : M -> List Ptr)
    (A : M -> List (K × V)) : Prop where
  valid : Valid s order
  compare : ∀ h, (s.maps h).compareFunc = compareFunc
  contents : ∀ h, (order h).map s.cell = (A h).map some

structure Located (s : Store M K V) (order : M -> List Ptr) (A : M -> List (K × V)) (h : M) (e : Ptr)
    (entry : K × V) (front back : List Ptr) (before behind : List (K × V)) : Prop where
  nodes : order h = front ++ e :: back
  entries : A h = before ++ entry :: behind
  cell : s.cell e = some entry
  ahead : front.map s.cell = before.map some
  after : back.map s.cell = behind.map some

variable {compareFunc : K -> K -> Int} {s : Store M K V} {order : M -> List Ptr}
  {A : M -> List (K × V)} {h : M} {e : Ptr}
  {entry : K × V} {front back : List Ptr} {before behind : List (K × V)}

theorem Located.mem (located : Located s order A h e entry front back before behind) : e ∈ order h := by
  simp [located.nodes]

namespace Represents

section

variable (rep : Represents compareFunc s order A)
include rep

theorem lawful (h : M) : Lawful (s.maps h).hashFunc compareFunc := by
  rw [← rep.compare h]
  exact rep.valid.lawful h

theorem keys {p q : Ptr} {a b : K × V} (mem : p ∈ order h) (mem' : q ∈ order h)
    (first : s.cell p = some a) (second : s.cell q = some b) (equal : compareFunc a.1 b.1 = 0) :
    p = q := by
  rw [← rep.compare h] at equal
  exact rep.valid.keys h p mem q mem' a b first second equal

theorem length_eq (h : M) : (order h).length = (A h).length := by
  have equal := congrArg List.length (rep.contents h)
  simpa using equal

theorem length_lt (h : M) : (A h).length < 2 ^ 32 := by
  have bound := (s.maps h).nEntries.toNat_lt
  rwa [rep.valid.count, rep.length_eq] at bound

theorem locate (split : order h = front ++ e :: back) :
    ∃ entry before behind, Located s order A h e entry front back before behind := by
  have contents := rep.contents h
  rw [split, map_append, map_cons] at contents
  obtain ⟨before, rest, entries, ahead, tail⟩ := append_eq_map_iff.mp contents
  obtain ⟨entry, behind, rfl, cell, after⟩ := map_eq_cons_iff.mp tail
  exact ⟨entry, before, behind, split, entries, cell.symm, ahead.symm, after.symm⟩

theorem node_of_entry (mem : entry ∈ A h) : ∃ p ∈ order h, s.cell p = some entry := by
  have inside : some entry ∈ (order h).map s.cell := by
    rw [rep.contents h]
    exact mem_map_of_mem mem
  simpa using inside

theorem entry_of_node (mem : e ∈ order h) (cell : s.cell e = some entry) : entry ∈ A h := by
  have inside : some entry ∈ (A h).map some := by
    rw [← rep.contents h, ← cell]
    exact mem_map_of_mem mem
  simpa using inside

theorem nodup_split (located : Located s order A h e entry front back before behind) :
    e ∉ front ++ back := by
  have nodup := (rep.valid.iterate h).nodup
  rw [located.nodes, nodup_middle, nodup_cons] at nodup
  exact nodup.1

theorem other_keys (located : Located s order A h e entry front back before behind) {key : K}
    (equal : compareFunc entry.1 key = 0) : Absent (sameKey compareFunc) key (before ++ behind) := by
  intro other mem
  have inside : some other ∈ (front ++ back).map s.cell := by
    rw [map_append, located.ahead, located.after, ← map_append]
    exact mem_map_of_mem mem
  obtain ⟨p, mem', cell'⟩ := mem_map.mp inside
  have listed : p ∈ order h := by
    rw [located.nodes]
    exact List.Sublist.mem mem' ((sublist_cons_self e back).append_left front)
  have law := (rep.lawful h).equivalence
  rw [sameKey, beq_eq_false_iff_ne]
  intro clash
  have twin := rep.keys listed located.mem cell' located.cell
    (law.trans clash (law.symm equal))
  exact rep.nodup_split located (twin ▸ mem')

theorem bucketOf_eq {a b : K} (equal : compareFunc a b = 0) :
    bucketOf (s.maps h) a = bucketOf (s.maps h) b := by
  rw [bucketOf, bucketOf, (rep.lawful h).hash a b equal]

end

end Represents

theorem scanChain_eq (h : M) (key : K) (nodes : List Ptr) (follows : Follows s.bucketNext nodes)
    (cells : ∀ p ∈ nodes, ∃ entry, s.cell p = some entry) (fuel : Nat) (enough : nodes.length ≤ fuel) :
    scanChain s h key fuel nodes.head? =
      some (nodes.find? fun p =>
        (s.cell p).any fun entry => sameKey (s.maps h).compareFunc entry.1 key) := by
  induction nodes generalizing fuel with
  | nil => cases fuel <;> rfl
  | cons p nodes ih =>
    cases fuel with
    | zero => simp at enough
    | succ fuel =>
      obtain ⟨entry, cell⟩ := cells p (by simp)
      rw [head?_cons, scanChain, cell]
      by_cases equal : (s.maps h).compareFunc entry.1 key = 0
      · simp [cell, sameKey, equal]
      · have rest := ih follows.2 (fun q mem => cells q (by simp [mem])) fuel
          (by simpa using enough)
        simp only [equal, if_false, follows.1, rest]
        simp [cell, sameKey, equal]

theorem Represents.scan_cases (rep : Represents compareFunc s order A) (h : M) (key : K) :
    (scan s h key = some none ∧ Absent (sameKey compareFunc) key (A h)) ∨
    ∃ e entry front back before behind, scan s h key = some (some e) ∧
      Located s order A h e entry front back before behind ∧
      compareFunc entry.1 key = 0 := by
  obtain ⟨nodes, chain, top, members⟩ := rep.valid.buckets h (bucketOf (s.maps h) key)
  have enough : nodes.length ≤ (s.maps h).nEntries.toNat := by
    rw [rep.valid.count]
    exact (List.Nodup.subperm chain.nodup fun p mem => ((members p).mp mem).1).length_le
  have scanned := scanChain_eq h key nodes chain.next
    (fun p mem => rep.valid.cells h p ((members p).mp mem).1) _ enough
  rw [← top, ← hashScan, ← scan, rep.compare] at scanned
  cases found : nodes.find? _ with
  | none =>
    rw [found] at scanned
    refine .inl ⟨scanned, ?_⟩
    intro entry mem
    obtain ⟨p, listed, cell⟩ := rep.node_of_entry mem
    by_contra equal
    simp only [sameKey, Bool.not_eq_false, beq_iff_eq] at equal
    have inside := (members p).mpr ⟨listed, entry, cell, rep.bucketOf_eq equal⟩
    have missed := find?_eq_none.mp found p inside
    simp [cell, sameKey, equal] at missed
  | some e =>
    rw [found] at scanned
    have listed := ((members e).mp (mem_of_find?_eq_some found)).1
    obtain ⟨front, back, split⟩ := append_of_mem listed
    obtain ⟨entry, before, behind, located⟩ := rep.locate split
    have equal := find?_some found
    simp only [located.cell, Option.any_some, sameKey, beq_iff_eq] at equal
    exact .inr ⟨e, entry, front, back, before, behind, scanned, located, equal⟩

end

section

variable {M K V : Type} [DecidableEq M] {compareFunc : K -> K -> Int} {s : Store M K V} {order : M -> List Ptr}
  {A : M -> List (K × V)} {h : M} {e : Ptr} {entry : K × V} {front back : List Ptr}
  {before behind : List (K × V)}

section

variable (rep : Represents compareFunc s order A)
include rep

theorem Represents.unlinked (located : Located s order A h e entry front back before behind) :
    Represents compareFunc (unlinked s h e (bucketOf (s.maps h) entry.1))
      (update order h (front ++ back)) (update A h (before ++ behind)) := by
  refine ⟨rep.valid.unlinked located.nodes located.cell, ?_, ?_⟩
  · intro h'
    rw [(unlinked_sameCells s h e _).compareFunc, rep.compare]
  intro h'
  rw [(unlinked_sameCells s h e _).cell]
  by_cases here : h' = h
  · subst here
    rw [update_self, update_self, map_append, map_append,
      located.ahead, located.after]
  · rw [update_of_ne here, update_of_ne here]
    exact rep.contents h'

theorem Represents.detached (located : Located s order A h e entry front back before behind) (h' : M) :
    e ∉ update order h (front ++ back) h' := by
  by_cases here : h' = h
  · subst here
    rw [update_self]
    exact rep.nodup_split located
  · rw [update_of_ne here]
    exact fun mem => here (rep.valid.apart h' h e mem located.mem)

theorem Represents.linked (cell : s.cell e = some entry) (detached : ∀ h', e ∉ order h')
    (new : Absent (sameKey compareFunc) entry.1 (A h)) (fits : (A h).length + 1 < 2 ^ 32) :
    Represents compareFunc (linked s h e (bucketOf (s.maps h) entry.1))
      (update order h (order h ++ [e])) (update A h (A h ++ [entry])) := by
  refine ⟨rep.valid.linked cell detached ?_ ?_, ?_, ?_⟩
  · intro p mem a cell'
    simpa [sameKey, rep.compare] using new a (rep.entry_of_node mem cell')
  · rwa [rep.length_eq]
  · intro h'
    rw [(linked_sameCells s h e _).compareFunc, rep.compare]
  · intro h'
    rw [(linked_sameCells s h e _).cell]
    by_cases here : h' = h
    · subst here
      simp [rep.contents, cell]
    · rw [update_of_ne here, update_of_ne here]
      exact rep.contents h'

omit [DecidableEq M] in
theorem Represents.update_cell (detached : ∀ h', e ∉ order h') (content : Option (K × V))
    (nextEntry : Ptr) (kept : s.nextEntry ≤ nextEntry) (below : content = none ∨ e < nextEntry) :
    Represents compareFunc { s with cell := update s.cell e content, nextEntry := nextEntry }
      order A := by
  have same : ∀ h', ∀ p ∈ order h', update s.cell e content p = s.cell p := by
    intro h' p mem
    exact update_of_ne (fun equal => detached h' (by rwa [← equal])) _ _
  refine ⟨⟨rep.valid.iterate, rep.valid.head, rep.valid.tail, ?_, ?_, rep.valid.apart, ?_,
    rep.valid.count, ?_, rep.valid.lawful⟩, rep.compare, ?_⟩
  · intro h' b
    obtain ⟨nodes, chain, top, members⟩ := rep.valid.buckets h' b
    refine ⟨nodes, chain, top, ?_⟩
    intro p
    rw [members]
    refine and_congr_right ?_
    intro mem
    simp only [same h' p mem]
  · intro h' p mem
    simp only [same h' p mem]
    exact rep.valid.cells h' p mem
  · intro h' p mem q mem' a b first second
    simp only [same h' p mem] at first
    simp only [same h' q mem'] at second
    exact rep.valid.keys h' p mem q mem' a b first second
  · intro p entry' cell
    simp only at cell ⊢
    by_cases here : p = e
    · subst here
      rw [update_self] at cell
      rcases below with free | below
      · simp [free] at cell
      · exact below
    · rw [update_of_ne here] at cell
      exact Nat.lt_of_lt_of_le (rep.valid.fresh p entry' cell) kept
  · intro h'
    rw [← rep.contents h']
    exact map_congr_left (same h')

theorem Represents.rewrite_cell (located : Located s order A h e entry front back before behind)
    {key : K} (value : V) (equal : compareFunc entry.1 key = 0) :
    Represents compareFunc { s with cell := update s.cell e (some (key, value)) } order
      (update A h (before ++ (key, value) :: behind)) := by
  have law := (rep.lawful h).equivalence
  have foreign : ∀ h', h' ≠ h -> ∀ p ∈ order h', p ≠ e :=
    fun h' other p mem clash => other (rep.valid.apart h' h e (clash ▸ mem) located.mem)
  refine ⟨⟨rep.valid.iterate, rep.valid.head, rep.valid.tail, ?_, ?_, rep.valid.apart, ?_,
    rep.valid.count, ?_, rep.valid.lawful⟩, rep.compare, ?_⟩
  · intro h' b
    obtain ⟨nodes, chain, top, members⟩ := rep.valid.buckets h' b
    refine ⟨nodes, chain, top, ?_⟩
    intro p
    rw [members]
    refine and_congr_right ?_
    intro mem
    by_cases here : p = e
    · subst here
      have home := rep.valid.apart h' h p mem located.mem
      subst home
      simp [located.cell, rep.bucketOf_eq equal]
    · simp [update_of_ne here]
  · intro h' p mem
    by_cases here : p = e
    · exact ⟨(key, value), by simp [here]⟩
    · simpa [here] using rep.valid.cells h' p mem
  · intro h' p mem q mem' a b first second clash
    by_cases here : h' = h
    · subst here
      -- Both entries stand for the ones that were there before.
      have old : ∀ r ∈ order h', ∀ c, update s.cell e (some (key, value)) r = some c ->
          ∃ c', s.cell r = some c' ∧ compareFunc c'.1 c.1 = 0 := by
        intro r _ c cell
        by_cases own : r = e
        · subst own
          rw [update_self] at cell
          cases cell
          exact ⟨entry, located.cell, equal⟩
        · rw [update_of_ne own] at cell
          exact ⟨c, cell, law.refl c.1⟩
      obtain ⟨a', first', equal'⟩ := old p mem a first
      obtain ⟨b', second', equal''⟩ := old q mem' b second
      simp only [rep.compare] at clash
      exact rep.keys mem mem' first' second'
        (law.trans equal' (law.trans clash (law.symm equal'')))
    · simp only [update_of_ne (foreign h' here p mem)] at first
      simp only [update_of_ne (foreign h' here q mem')] at second
      exact rep.valid.keys h' p mem q mem' a b first second clash
  · intro p entry' cell
    by_cases here : p = e
    · subst here
      exact rep.valid.fresh p entry located.cell
    · simp only [update_of_ne here] at cell
      exact rep.valid.fresh p entry' cell
  · intro h'
    by_cases here : h' = h
    · subst here
      have distinct := rep.nodup_split located
      rw [mem_append, not_or] at distinct
      have ahead : front.map (update s.cell e (some (key, value))) = before.map some := by
        rw [← located.ahead]
        exact map_congr_left fun p mem =>
          update_of_ne (ne_of_mem_of_not_mem mem distinct.1) _ _
      have after : back.map (update s.cell e (some (key, value))) = behind.map some := by
        rw [← located.after]
        exact map_congr_left fun p mem =>
          update_of_ne (ne_of_mem_of_not_mem mem distinct.2) _ _
      simp only [located.nodes, update_self, map_append, map_cons, ahead, after]
    · rw [update_of_ne here, ← rep.contents h']
      exact map_congr_left fun p mem => update_of_ne (foreign h' here p mem) _ _

end

end

end Systemd.Maps
