import Mathlib.Algebra.Group.Nat.Defs
import Systemd.Basic.Hashmap

set_option autoImplicit false

namespace Systemd.Maps

open Chains List Option Function

structure Lawful {K : Type} (hashFunc : K -> UInt32) (compareFunc : K -> K -> Int) : Prop where
  equivalence : Equivalence fun a b => compareFunc a b = 0
  hash : ∀ a b, compareFunc a b = 0 -> hashFunc a = hashFunc b

section

variable {M K V : Type}

/-- The maps are well formed; `order` lists the entries of each map as they are iterated. Entries
that are in no map may exist. -/
structure Valid (s : Store M K V) (order : M -> List Ptr) : Prop where
  iterate : ∀ h, Chain s.iterateNext s.iteratePrevious (order h)
  head : ∀ h, (s.maps h).iterateListHead = (order h).head?
  tail : ∀ h, (s.maps h).iterateListTail = (order h).getLast?
  buckets : ∀ h b, ∃ nodes, Chain s.bucketNext s.bucketPrevious nodes ∧
    (s.maps h).byHash b = nodes.head? ∧
    ∀ p, p ∈ nodes ↔ p ∈ order h ∧ ∃ entry, s.cell p = some entry ∧ bucketOf (s.maps h) entry.1 = b
  cells : ∀ h, ∀ p ∈ order h, ∃ entry, s.cell p = some entry
  apart : ∀ h h' p, p ∈ order h -> p ∈ order h' -> h = h'
  keys : ∀ h, ∀ p ∈ order h, ∀ q ∈ order h, ∀ a b, s.cell p = some a -> s.cell q = some b ->
    (s.maps h).compareFunc a.1 b.1 = 0 -> p = q
  count : ∀ h, (s.maps h).nEntries.toNat = (order h).length
  fresh : ∀ p entry, s.cell p = some entry -> p < s.nextEntry
  lawful : ∀ h, Lawful (s.maps h).hashFunc (s.maps h).compareFunc

theorem assignAt_apply (field : Ptr -> Option Ptr) (pointer value : Option Ptr) (p : Ptr) :
    assignAt field pointer value p = if pointer = some p then value else field p := by
  cases pointer with
  | none => simp [assignAt]
  | some q =>
    by_cases same : p = q
    · subst same
      simp [assignAt]
    · simp [assignAt, same, Ne.symm same]

variable {p e : Ptr} {entry : K × V} {h h' : M} {b : Nat} {key : K} {value : V} {front back : List Ptr}

theorem allocated_of_cell {s : Store M K V} (cell : s.cell p = some entry) : s.allocated p = true := by
  simp [Store.allocated, cell]

variable {s : Store M K V} {order : M -> List Ptr}

theorem Valid.allocated (valid : Valid s order) (mem : p ∈ order h) : s.allocated p = true := by
  obtain ⟨entry, cell⟩ := valid.cells h p mem
  exact allocated_of_cell cell

theorem all_allocated {nodes : List Ptr} (each : ∀ p ∈ nodes, s.allocated p = true) :
    nodes.head?.all s.allocated = true ∧ nodes.getLast?.all s.allocated = true := by
  constructor
  · cases top : nodes.head? with
    | none => rfl
    | some p => exact each p (mem_of_head? top)
  · cases bottom : nodes.getLast? with
    | none => rfl
    | some p => exact each p (mem_of_getLast? bottom)

structure SameCells (s s' : Store M K V) : Prop where
  cell : s'.cell = s.cell
  nextEntry : s'.nextEntry = s.nextEntry
  hashFunc : ∀ h, (s'.maps h).hashFunc = (s.maps h).hashFunc
  compareFunc : ∀ h, (s'.maps h).compareFunc = (s.maps h).compareFunc

theorem SameCells.bucketOf {s' : Store M K V} (same : SameCells s s') (h : M) (key : K) :
    bucketOf (s'.maps h) key = bucketOf (s.maps h) key := by
  simp [Maps.bucketOf, same.hashFunc]

variable [DecidableEq M]

def linked (s : Store M K V) (h : M) (e : Ptr) (hash : Nat) : Store M K V :=
  { s with
    bucketNext := update s.bucketNext e ((s.maps h).byHash hash)
    bucketPrevious :=
      assignAt (update s.bucketPrevious e none) ((s.maps h).byHash hash) (some e)
    iteratePrevious := update s.iteratePrevious e (s.maps h).iterateListTail
    iterateNext :=
      assignAt (update s.iterateNext e none) (s.maps h).iterateListTail (some e)
    maps := update s.maps h
      { s.maps h with
        byHash := update (s.maps h).byHash hash (some e)
        iterateListHead :=
          if (s.maps h).iterateListTail.isSome then (s.maps h).iterateListHead else some e
        iterateListTail := some e
        nEntries := (s.maps h).nEntries + 1 } }

theorem linked_sameCells (s : Store M K V) (h : M) (e : Ptr) (hash : Nat) :
    SameCells s (linked s h e hash) := by
  refine ⟨rfl, rfl, ?_, ?_⟩
  all_goals
    intro h'
    by_cases same : h' = h
    · subst same
      simp [linked]
    · simp [linked, same]

theorem uint32_succ_ge_one (n : UInt32) : (n + 1 ≥ 1) ↔ n.toNat + 1 < 2 ^ 32 := by
  have bound := n.toNat_lt
  rw [ge_iff_le, UInt32.le_iff_toNat_le, UInt32.toNat_add, UInt32.toNat_one]
  omega

theorem linkIterate_eq (own : s.allocated e = true)
    (last : (s.maps h).iterateListTail.all s.allocated = true)
    (ends : (s.maps h).iterateListTail.isSome = (s.maps h).iterateListHead.isSome) :
    linkIterate s h e =
      if (s.maps h).nEntries.toNat + 1 < 2 ^ 32 then
        some
          { s with
            iteratePrevious := update s.iteratePrevious e (s.maps h).iterateListTail
            iterateNext :=
              assignAt (update s.iterateNext e none) (s.maps h).iterateListTail (some e)
            maps := update s.maps h
              { s.maps h with
                iterateListHead :=
                  if (s.maps h).iterateListTail.isSome then (s.maps h).iterateListHead else some e
                iterateListTail := some e
                nEntries := (s.maps h).nEntries + 1 } }
      else
        none := by
  simp only [linkIterate, own, last, ends, uint32_succ_ge_one, Bool.true_and, beq_self_eq_true,
    decide_eq_true_eq]

theorem linkEntry_eq (valid : Valid s order) (h : M) (hash : Nat) (own : s.allocated e = true) :
    linkEntry s h e hash =
      if (order h).length + 1 < 2 ^ 32 then some (linked s h e hash) else none := by
  have first : ((s.maps h).byHash hash).all s.allocated = true := by
    obtain ⟨nodes, -, top, members⟩ := valid.buckets h hash
    rw [top]
    exact (all_allocated fun p mem => valid.allocated ((members p).mp mem).1).1
  have last : (s.maps h).iterateListTail.all s.allocated = true := by
    rw [valid.tail]
    exact (all_allocated fun p mem => valid.allocated mem).2
  have ends : (s.maps h).iterateListTail.isSome = (s.maps h).iterateListHead.isSome := by
    rw [valid.tail, valid.head]
    cases order h with
    | nil => rfl
    | cons p rest => simp [getLast?_cons]
  have bucket : linkBucket s h e hash = some
      { s with
        bucketNext := update s.bucketNext e ((s.maps h).byHash hash)
        bucketPrevious :=
          assignAt (update s.bucketPrevious e none) ((s.maps h).byHash hash) (some e)
        maps := update s.maps h
          { s.maps h with byHash := update (s.maps h).byHash hash (some e) } } := by
    simp [linkBucket, own, first]
  rw [linkEntry, bucket, bind_eq_bind, bind_some, linkIterate_eq]
  · simp only [update_self, update_idem, valid.count, linked]
  · exact own
  · simp only [update_self]
    exact last
  · simp only [update_self]
    exact ends

omit [DecidableEq M] in
theorem Valid.bucket_unique (valid : Valid s order) {b' : Nat}
    (first : p ∈ order h ∧ ∃ entry, s.cell p = some entry ∧ bucketOf (s.maps h) entry.1 = b)
    (second : p ∈ order h' ∧ ∃ entry, s.cell p = some entry ∧ bucketOf (s.maps h') entry.1 = b') :
    h = h' ∧ b = b' := by
  obtain ⟨mem, entry, cell, place⟩ := first
  obtain ⟨mem', entry', cell', place'⟩ := second
  have equal := valid.apart h h' p mem mem'
  subst equal
  rw [cell] at cell'
  cases cell'
  exact ⟨rfl, place.symm.trans place'⟩

theorem mem_order_linked (mem : p ∈ update order h (order h ++ [e]) h') :
    p ∈ order h' ∨ (p = e ∧ h' = h) := by
  by_cases here : h' = h
  · subst here
    rw [update_self, mem_append, mem_singleton] at mem
    rcases mem with old | rfl
    · exact .inl old
    · exact .inr ⟨rfl, rfl⟩
  · rw [update_of_ne here] at mem
    exact .inl mem

section

variable (valid : Valid s order)
include valid

theorem Valid.linked_iterate (h : M) (hash : Nat) (detached : ∀ h', e ∉ order h') (h' : M) :
    Chain (linked s h e hash).iterateNext (linked s h e hash).iteratePrevious
      (update order h (order h ++ [e]) h') := by
  have distinct : ∀ h' p, p ∈ order h' -> p ≠ e := fun h' p mem equal =>
    detached h' (equal ▸ mem)
  have notTail : ∀ h' p, p ∈ order h' -> (s.maps h).iterateListTail = some p -> h' = h := by
    intro h' p mem last
    rw [valid.tail] at last
    exact valid.apart h' h p mem (mem_of_getLast? last)
  by_cases here : h' = h
  · subst here
    rw [update_self]
    refine (valid.iterate h').concat (detached h') ?_ ?_ ?_ ?_ ?_
    · have notLast : (s.maps h').iterateListTail ≠ some e := by
        intro last
        rw [valid.tail] at last
        exact detached h' (mem_of_getLast? last)
      simp [linked, assignAt_apply, notLast]
    · simp [linked, valid.tail]
    · intro p mem
      simp [linked, distinct h' p mem]
    · intro p last
      simp [linked, assignAt_apply, valid.tail, last]
    · intro p mem inner
      simp [linked, assignAt_apply, valid.tail, inner, distinct h' p mem]
  · rw [update_of_ne here]
    refine (valid.iterate h').frame ?_ ?_
    · intro p mem
      have inner : (s.maps h).iterateListTail ≠ some p := fun last => here (notTail h' p mem last)
      simp [linked, assignAt_apply, inner, distinct h' p mem]
    · intro p mem
      simp [linked, distinct h' p mem]

theorem Valid.linked_head (h : M) (e : Ptr) (hash : Nat) (h' : M) :
    ((linked s h e hash).maps h').iterateListHead = (update order h (order h ++ [e]) h').head? := by
  by_cases here : h' = h
  · subst here
    simp only [linked, update_self, valid.tail, valid.head]
    cases order h' with
    | nil => rfl
    | cons p rest => simp [getLast?_cons]
  · simpa [linked, here] using valid.head h'

theorem Valid.linked_tail (h : M) (e : Ptr) (hash : Nat) (h' : M) :
    ((linked s h e hash).maps h').iterateListTail = (update order h (order h ++ [e]) h').getLast? := by
  by_cases here : h' = h
  · subst here
    simp [linked]
  · simpa [linked, here] using valid.tail h'

theorem Valid.linked_bucket_own (h : M) (cell : s.cell e = some (key, value))
    (detached : ∀ h', e ∉ order h') :
    ∃ nodes, Chain (linked s h e (bucketOf (s.maps h) key)).bucketNext
        (linked s h e (bucketOf (s.maps h) key)).bucketPrevious nodes ∧
      ((linked s h e (bucketOf (s.maps h) key)).maps h).byHash (bucketOf (s.maps h) key) =
        nodes.head? ∧
      ∀ p, p ∈ nodes ↔ p ∈ order h ++ [e] ∧
        ∃ entry, s.cell p = some entry ∧ bucketOf (s.maps h) entry.1 = bucketOf (s.maps h) key := by
  obtain ⟨nodes, chain, top, members⟩ := valid.buckets h (bucketOf (s.maps h) key)
  have absent : e ∉ nodes := fun mem => detached h ((members e).mp mem).1
  have distinct : ∀ p ∈ nodes, p ≠ e := fun p mem equal => absent (equal ▸ mem)
  refine ⟨e :: nodes, ?_, by simp [linked], ?_⟩
  · refine chain.cons absent ?_ ?_ ?_ ?_ ?_
    · simp [linked, top]
    · have notFirst : (s.maps h).byHash (bucketOf (s.maps h) key) ≠ some e := by
        intro first
        rw [top] at first
        exact absent (mem_of_head? first)
      simp [linked, assignAt_apply, notFirst]
    · intro p mem
      simp [linked, distinct p mem]
    · intro p first
      simp [linked, assignAt_apply, top, first]
    · intro p mem inner
      simp [linked, assignAt_apply, top, inner, distinct p mem]
  · intro p
    rw [mem_cons, mem_append, mem_singleton, members]
    constructor
    · rintro (rfl | ⟨mem, rest⟩)
      · exact ⟨.inr rfl, (key, value), cell, rfl⟩
      · exact ⟨.inl mem, rest⟩
    · rintro ⟨mem | rfl, rest⟩
      · exact .inr ⟨mem, rest⟩
      · exact .inl rfl

theorem Valid.linked_bucket_other (cell : s.cell e = some (key, value)) (detached : ∀ h', e ∉ order h')
    (other : ¬ (h' = h ∧ b = bucketOf (s.maps h) key)) :
    ∃ nodes, Chain (linked s h e (bucketOf (s.maps h) key)).bucketNext
        (linked s h e (bucketOf (s.maps h) key)).bucketPrevious nodes ∧
      ((linked s h e (bucketOf (s.maps h) key)).maps h').byHash b = nodes.head? ∧
      ∀ p, p ∈ nodes ↔ p ∈ update order h (order h ++ [e]) h' ∧
        ∃ entry, s.cell p = some entry ∧ bucketOf (s.maps h') entry.1 = b := by
  obtain ⟨nodes, chain, top, members⟩ := valid.buckets h' b
  obtain ⟨firsts, -, top', members'⟩ := valid.buckets h (bucketOf (s.maps h) key)
  have distinct : ∀ p ∈ nodes, p ≠ e := fun p mem equal =>
    detached h' (equal ▸ ((members p).mp mem).1)
  refine ⟨nodes, chain.frame ?_ ?_, ?_, ?_⟩
  · intro p mem
    simp [linked, distinct p mem]
  · intro p mem
    have inner : (s.maps h).byHash (bucketOf (s.maps h) key) ≠ some p := by
      intro first
      rw [top'] at first
      exact other (valid.bucket_unique ((members p).mp mem)
        ((members' p).mp (mem_of_head? first)))
    simp [linked, assignAt_apply, inner, distinct p mem]
  · by_cases here : h' = h
    · subst here
      have apart : b ≠ bucketOf (s.maps h') key := fun equal => other ⟨rfl, equal⟩
      simpa [linked, apart] using top
    · simpa [linked, here] using top
  · intro p
    rw [members]
    by_cases here : h' = h
    · subst here
      rw [update_self, mem_append, mem_singleton]
      constructor
      · rintro ⟨mem, rest⟩
        exact ⟨.inl mem, rest⟩
      · rintro ⟨mem | rfl, entry, cell', place⟩
        · exact ⟨mem, entry, cell', place⟩
        · rw [cell] at cell'
          cases cell'
          exact absurd ⟨rfl, place.symm⟩ other
    · rw [update_of_ne here]

theorem Valid.linked_keys (cell : s.cell e = some (key, value))
    (new : ∀ p ∈ order h, ∀ a, s.cell p = some a -> (s.maps h).compareFunc a.1 key ≠ 0) (h' : M) :
    ∀ p ∈ update order h (order h ++ [e]) h',
      ∀ q ∈ update order h (order h ++ [e]) h', ∀ a b, s.cell p = some a ->
        s.cell q = some b -> (s.maps h').compareFunc a.1 b.1 = 0 -> p = q := by
  intro p mem q mem' a b first second equal
  have law := (valid.lawful h').equivalence
  rcases mem_order_linked mem with old | ⟨rfl, rfl⟩
  · rcases mem_order_linked mem' with old' | ⟨rfl, rfl⟩
    · exact valid.keys h' p old q old' a b first second equal
    · rw [cell] at second
      cases second
      exact absurd equal (new p old a first)
  · rcases mem_order_linked mem' with old' | ⟨rfl, -⟩
    · rw [cell] at first
      cases first
      exact absurd (law.symm equal) (new q old' b second)
    · rfl

theorem Valid.linked_count (e : Ptr) (hash : Nat) (fits : (order h).length + 1 < 2 ^ 32) (h' : M) :
    ((linked s h e hash).maps h').nEntries.toNat = (update order h (order h ++ [e]) h').length := by
  by_cases here : h' = h
  · subst here
    have count := valid.count h'
    simp only [linked, update_self, length_append, length_singleton]
    rw [UInt32.toNat_add, UInt32.toNat_one, count]
    omega
  · simpa [linked, here] using valid.count h'

theorem Valid.linked (cell : s.cell e = some (key, value)) (detached : ∀ h', e ∉ order h')
    (new : ∀ p ∈ order h, ∀ a, s.cell p = some a -> (s.maps h).compareFunc a.1 key ≠ 0)
    (fits : (order h).length + 1 < 2 ^ 32) :
    Valid (linked s h e (bucketOf (s.maps h) key)) (update order h (order h ++ [e])) := by
  have same := linked_sameCells s h e (bucketOf (s.maps h) key)
  constructor
  · exact valid.linked_iterate h _ detached
  · exact valid.linked_head h e _
  · exact valid.linked_tail h e _
  · intro h' b
    simp only [same.cell, same.bucketOf]
    by_cases own : h' = h ∧ b = bucketOf (s.maps h) key
    · obtain ⟨rfl, rfl⟩ := own
      rw [update_self]
      exact valid.linked_bucket_own h' cell detached
    · exact valid.linked_bucket_other cell detached own
  · intro h' p mem
    rw [same.cell]
    rcases mem_order_linked mem with old | ⟨rfl, -⟩
    · exact valid.cells h' p old
    · exact ⟨_, cell⟩
  · intro h' h'' p mem mem'
    rcases mem_order_linked mem with old | ⟨rfl, rfl⟩
    · rcases mem_order_linked mem' with old' | ⟨rfl, rfl⟩
      · exact valid.apart h' h'' p old old'
      · exact absurd old (detached h')
    · rcases mem_order_linked mem' with old' | ⟨-, rfl⟩
      · exact absurd old' (detached h'')
      · rfl
  · intro h'
    simp only [same.cell, same.compareFunc]
    exact valid.linked_keys cell new h'
  · exact valid.linked_count e _ fits
  · intro p entry cell'
    rw [same.cell] at cell'
    rw [same.nextEntry]
    exact valid.fresh p entry cell'
  · intro h'
    rw [same.hashFunc, same.compareFunc]
    exact valid.lawful h'

end

def unlinked (s : Store M K V) (h : M) (e : Ptr) (hash : Nat) : Store M K V :=
  { s with
    bucketPrevious := assignAt s.bucketPrevious (s.bucketNext e) (s.bucketPrevious e)
    bucketNext := assignAt s.bucketNext (s.bucketPrevious e) (s.bucketNext e)
    iteratePrevious := assignAt s.iteratePrevious (s.iterateNext e) (s.iteratePrevious e)
    iterateNext := assignAt s.iterateNext (s.iteratePrevious e) (s.iterateNext e)
    maps := update s.maps h
      { s.maps h with
        byHash :=
          if (s.bucketPrevious e).isSome then (s.maps h).byHash
          else update (s.maps h).byHash hash (s.bucketNext e)
        iterateListHead :=
          if (s.iteratePrevious e).isSome then (s.maps h).iterateListHead else s.iterateNext e
        iterateListTail :=
          if (s.iterateNext e).isSome then (s.maps h).iterateListTail else s.iteratePrevious e
        nEntries := (s.maps h).nEntries - 1 } }

theorem unlinked_sameCells (s : Store M K V) (h : M) (e : Ptr) (hash : Nat) :
    SameCells s (unlinked s h e hash) := by
  refine ⟨rfl, rfl, ?_, ?_⟩
  all_goals
    intro h'
    by_cases same : h' = h
    · subst same
      simp [unlinked]
    · simp [unlinked, same]

section

variable (valid : Valid s order)
include valid

omit [DecidableEq M] in
theorem Valid.bucket_split (mem : e ∈ order h) (cell : s.cell e = some entry) :
    ∃ front back, Chain s.bucketNext s.bucketPrevious (front ++ e :: back) ∧
      (s.maps h).byHash (bucketOf (s.maps h) entry.1) = (front ++ e :: back).head? ∧
      ∀ p, p ∈ front ++ e :: back ↔ p ∈ order h ∧
        ∃ other, s.cell p = some other ∧ bucketOf (s.maps h) other.1 = bucketOf (s.maps h) entry.1 := by
  obtain ⟨nodes, chain, top, members⟩ := valid.buckets h (bucketOf (s.maps h) entry.1)
  obtain ⟨front, back, rfl⟩ := append_of_mem ((members e).mpr ⟨mem, entry, cell, rfl⟩)
  exact ⟨front, back, chain, top, members⟩

variable (hash : Nat)

theorem unlinkEntry_eq (mem : e ∈ order h) : unlinkEntry s h e hash = some (unlinked s h e hash) := by
  have own := valid.allocated mem
  obtain ⟨entry, cell⟩ := valid.cells h e mem
  obtain ⟨front, back, chain, -, members⟩ := valid.bucket_split mem cell
  have inBucket : ∀ p ∈ front ++ e :: back, s.allocated p = true :=
    fun p inside => valid.allocated ((members p).mp inside).1
  have next : (s.bucketNext e).all s.allocated = true := by
    rw [chain.next_eq]
    exact (all_allocated fun p inside => inBucket p (by simp [inside])).1
  have previous : (s.bucketPrevious e).all s.allocated = true := by
    rw [chain.previous_eq]
    exact (all_allocated fun p inside => inBucket p (by simp [inside])).2
  obtain ⟨before, behind, split⟩ := append_of_mem mem
  have list := valid.iterate h
  have inList : ∀ p ∈ before ++ e :: behind, s.allocated p = true :=
    fun p inside => valid.allocated (split ▸ inside)
  rw [split] at list
  have next' : (s.iterateNext e).all s.allocated = true := by
    rw [list.next_eq]
    exact (all_allocated fun p inside => inList p (by simp [inside])).1
  have previous' : (s.iteratePrevious e).all s.allocated = true := by
    rw [list.previous_eq]
    exact (all_allocated fun p inside => inList p (by simp [inside])).2
  have counted : (s.maps h).nEntries ≥ 1 := by
    rw [ge_iff_le, UInt32.le_iff_toNat_le, valid.count h, UInt32.toNat_one]
    exact length_pos_of_mem mem
  have iterate : unlinkIterate s h e = some
      { s with
        iteratePrevious := assignAt s.iteratePrevious (s.iterateNext e) (s.iteratePrevious e)
        iterateNext := assignAt s.iterateNext (s.iteratePrevious e) (s.iterateNext e)
        maps := update s.maps h
          { s.maps h with
            iterateListHead :=
              if (s.iteratePrevious e).isSome then (s.maps h).iterateListHead else s.iterateNext e
            iterateListTail :=
              if (s.iterateNext e).isSome then (s.maps h).iterateListTail
              else s.iteratePrevious e } } := by
    simp [unlinkIterate, own, next', previous']
  rw [unlinkEntry, iterate, bind_eq_bind, bind_some, unlinkBucket, if_pos]
  · simp only [update_self, update_idem, unlinked]
  · simp only [update_self, Bool.and_eq_true, decide_eq_true_eq]
    exact ⟨⟨⟨own, next⟩, previous⟩, counted⟩

section

variable (split : order h = front ++ e :: back)
include split

omit [DecidableEq M] in
theorem Valid.mem_without (p : Ptr) : p ∈ front ++ back ↔ p ∈ order h ∧ p ≠ e := by
  have nodup := (valid.iterate h).nodup
  rw [split, nodup_middle, nodup_cons] at nodup
  constructor
  · intro inside
    refine ⟨?_, fun equal => nodup.1 (equal ▸ inside)⟩
    rw [split]
    exact List.Sublist.mem inside ((sublist_cons_self e back).append_left front)
  · rintro ⟨inside, distinct⟩
    rw [split] at inside
    simpa [distinct] using inside

theorem Valid.mem_order_unlinked (inside : p ∈ update order h (front ++ back) h') :
    p ∈ order h' ∧ p ≠ e := by
  by_cases here : h' = h
  · subst here
    rw [update_self] at inside
    exact (valid.mem_without split p).mp inside
  · rw [update_of_ne here] at inside
    refine ⟨inside, fun equal => here (valid.apart h' h e (equal ▸ inside) ?_)⟩
    simp [split]

theorem Valid.unlinked_iterate (h' : M) :
    Chain (unlinked s h e hash).iterateNext (unlinked s h e hash).iteratePrevious
      (update order h (front ++ back) h') := by
  have list := valid.iterate h
  rw [split] at list
  have next := list.next_eq
  have previous := list.previous_eq
  have neighbour : ∀ p, s.iterateNext e = some p ∨ s.iteratePrevious e = some p -> p ∈ order h := by
    intro p either
    rw [next, previous] at either
    rw [split]
    rcases either with after | before
    · simp [mem_of_head? after]
    · simp [mem_of_getLast? before]
  by_cases here : h' = h
  · subst here
    rw [update_self]
    refine list.remove ?_ ?_ ?_ ?_
    · intro p before
      simp [unlinked, assignAt_apply, previous, next, before]
    · intro p inside inner
      simp [unlinked, assignAt_apply, previous, inner]
    · intro p after
      simp [unlinked, assignAt_apply, previous, next, after]
    · intro p inside inner
      simp [unlinked, assignAt_apply, next, inner]
  · have foreign : ∀ p ∈ order h', p ∉ order h := fun p inside inside' =>
      here (valid.apart h' h p inside inside')
    rw [update_of_ne here]
    refine (valid.iterate h').frame ?_ ?_
    · intro p inside
      have inner : s.iteratePrevious e ≠ some p :=
        fun before => foreign p inside (neighbour p (.inr before))
      simp [unlinked, assignAt_apply, inner]
    · intro p inside
      have inner : s.iterateNext e ≠ some p :=
        fun after => foreign p inside (neighbour p (.inl after))
      simp [unlinked, assignAt_apply, inner]

theorem Valid.unlinked_head (h' : M) :
    ((unlinked s h e hash).maps h').iterateListHead = (update order h (front ++ back) h').head? := by
  have list := valid.iterate h
  rw [split] at list
  by_cases here : h' = h
  · subst here
    simp only [unlinked, update_self, list.previous_eq, list.next_eq, valid.head, split]
    cases front with
    | nil => simp
    | cons p front => simp [getLast?_cons]
  · simpa [unlinked, here] using valid.head h'

theorem Valid.unlinked_tail (h' : M) :
    ((unlinked s h e hash).maps h').iterateListTail = (update order h (front ++ back) h').getLast? := by
  have list := valid.iterate h
  rw [split] at list
  by_cases here : h' = h
  · subst here
    simp only [unlinked, update_self, list.previous_eq, list.next_eq, valid.tail, split]
    cases back with
    | nil => simp
    | cons p back => simp [getLast?_append, getLast?_cons]
  · simpa [unlinked, here] using valid.tail h'

theorem Valid.unlinked_bucket_own (cell : s.cell e = some entry) :
    ∃ nodes, Chain (unlinked s h e (bucketOf (s.maps h) entry.1)).bucketNext
        (unlinked s h e (bucketOf (s.maps h) entry.1)).bucketPrevious nodes ∧
      ((unlinked s h e (bucketOf (s.maps h) entry.1)).maps h).byHash
        (bucketOf (s.maps h) entry.1) = nodes.head? ∧
      ∀ p, p ∈ nodes ↔ p ∈ front ++ back ∧ ∃ other, s.cell p = some other ∧
        bucketOf (s.maps h) other.1 = bucketOf (s.maps h) entry.1 := by
  have mem : e ∈ order h := by simp [split]
  obtain ⟨ahead, behind, chain, top, members⟩ := valid.bucket_split mem cell
  have next := chain.next_eq
  have previous := chain.previous_eq
  refine ⟨ahead ++ behind, ?_, ?_, ?_⟩
  · refine chain.remove ?_ ?_ ?_ ?_
    · intro p before
      simp [unlinked, assignAt_apply, previous, next, before]
    · intro p inside inner
      simp [unlinked, assignAt_apply, previous, inner]
    · intro p after
      simp [unlinked, assignAt_apply, previous, next, after]
    · intro p inside inner
      simp [unlinked, assignAt_apply, next, inner]
  · simp only [unlinked, update_self, previous, next]
    cases ahead with
    | nil => simp
    | cons p ahead => simpa [getLast?_cons] using top
  · intro p
    have nodup := chain.nodup
    rw [nodup_middle, nodup_cons] at nodup
    rw [valid.mem_without split]
    constructor
    · intro inside
      obtain ⟨listed, rest⟩ := (members p).mp
        (List.Sublist.mem inside ((sublist_cons_self e behind).append_left ahead))
      exact ⟨⟨listed, fun equal => nodup.1 (equal ▸ inside)⟩, rest⟩
    · rintro ⟨⟨listed, distinct⟩, rest⟩
      simpa [distinct] using (members p).mpr ⟨listed, rest⟩

theorem Valid.unlinked_bucket_other (cell : s.cell e = some entry)
    (other : ¬ (h' = h ∧ b = bucketOf (s.maps h) entry.1)) :
    ∃ nodes, Chain (unlinked s h e (bucketOf (s.maps h) entry.1)).bucketNext
        (unlinked s h e (bucketOf (s.maps h) entry.1)).bucketPrevious nodes ∧
      ((unlinked s h e (bucketOf (s.maps h) entry.1)).maps h').byHash b = nodes.head? ∧
      ∀ p, p ∈ nodes ↔ p ∈ update order h (front ++ back) h' ∧
        ∃ entry, s.cell p = some entry ∧ bucketOf (s.maps h') entry.1 = b := by
  have mem : e ∈ order h := by simp [split]
  obtain ⟨ahead, behind, chain, -, members⟩ := valid.bucket_split mem cell
  obtain ⟨nodes, chain', top, members'⟩ := valid.buckets h' b
  have disjoint : ∀ p ∈ nodes, p ∉ ahead ++ e :: behind := fun p inside inside' =>
    other (valid.bucket_unique ((members' p).mp inside) ((members p).mp inside'))
  refine ⟨nodes, chain'.frame ?_ ?_, ?_, ?_⟩
  · intro p inside
    have inner : s.bucketPrevious e ≠ some p := by
      intro before
      rw [chain.previous_eq] at before
      exact disjoint p inside (by simp [mem_of_getLast? before])
    simp [unlinked, assignAt_apply, inner]
  · intro p inside
    have inner : s.bucketNext e ≠ some p := by
      intro after
      rw [chain.next_eq] at after
      exact disjoint p inside (by simp [mem_of_head? after])
    simp [unlinked, assignAt_apply, inner]
  · by_cases here : h' = h
    · subst here
      have apart : b ≠ bucketOf (s.maps h') entry.1 := fun equal => other ⟨rfl, equal⟩
      simp only [unlinked, update_self]
      split
      · exact top
      · rw [update_of_ne apart]
        exact top
    · simpa [unlinked, here] using top
  · intro p
    rw [members']
    by_cases here : h' = h
    · subst here
      rw [update_self, valid.mem_without split]
      constructor
      · rintro ⟨listed, found, cell', place⟩
        refine ⟨⟨listed, ?_⟩, found, cell', place⟩
        rintro rfl
        rw [cell] at cell'
        cases cell'
        exact other ⟨rfl, place.symm⟩
      · rintro ⟨⟨listed, -⟩, rest⟩
        exact ⟨listed, rest⟩
    · rw [update_of_ne here]

theorem Valid.unlinked_count (h' : M) :
    ((unlinked s h e hash).maps h').nEntries.toNat = (update order h (front ++ back) h').length := by
  by_cases here : h' = h
  · subst here
    have count := valid.count h'
    have bound := (s.maps h').nEntries.toNat_lt
    rw [split, length_append, length_cons] at count
    simp only [unlinked, update_self, length_append]
    rw [UInt32.toNat_sub_of_le]
    · rw [UInt32.toNat_one, count]
      omega
    · rw [UInt32.le_iff_toNat_le, UInt32.toNat_one, count]
      omega
  · simpa [unlinked, here] using valid.count h'

theorem Valid.unlinked (cell : s.cell e = some entry) :
    Valid (unlinked s h e (bucketOf (s.maps h) entry.1)) (update order h (front ++ back)) := by
  have same := unlinked_sameCells s h e (bucketOf (s.maps h) entry.1)
  constructor
  · exact valid.unlinked_iterate _ split
  · exact valid.unlinked_head _ split
  · exact valid.unlinked_tail _ split
  · intro h' b
    simp only [same.cell, same.bucketOf]
    by_cases own : h' = h ∧ b = bucketOf (s.maps h) entry.1
    · obtain ⟨rfl, rfl⟩ := own
      rw [update_self]
      exact valid.unlinked_bucket_own split cell
    · exact valid.unlinked_bucket_other split cell own
  · intro h' p inside
    rw [same.cell]
    exact valid.cells h' p (valid.mem_order_unlinked split inside).1
  · intro h' h'' p inside inside'
    exact valid.apart h' h'' p (valid.mem_order_unlinked split inside).1
      (valid.mem_order_unlinked split inside').1
  · intro h' p inside q inside' a b first second equal
    rw [same.cell] at first second
    rw [same.compareFunc] at equal
    exact valid.keys h' p (valid.mem_order_unlinked split inside).1 q
      (valid.mem_order_unlinked split inside').1 a b first second equal
  · exact valid.unlinked_count _ split
  · intro p entry' cell'
    rw [same.cell] at cell'
    rw [same.nextEntry]
    exact valid.fresh p entry' cell'
  · intro h'
    rw [same.hashFunc, same.compareFunc]
    exact valid.lawful h'

end

end

end

end Systemd.Maps
