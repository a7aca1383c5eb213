import Mathlib.Data.List.Nodup
import Mathlib.Logic.Function.Basic
import Systemd.Shared.Chain

set_option autoImplicit false

namespace Systemd.Sharing

open Chains List Option Function

variable {P K : Type}

structure Links (P : Type) where
  next : P -> Option P
  previous : P -> Option P

namespace Links

def empty : Links P := ⟨fun _ => none, fun _ => none⟩

def Lists (links : Links P) (nodes : List P) : Prop := Chain links.next links.previous nodes

def Untouched (links links' : Links P) (p : P) : Prop :=
  links'.next p = links.next p ∧ links'.previous p = links.previous p

theorem Lists.frame {links links' : Links P} {nodes : List P} (lists : links.Lists nodes)
    (same : ∀ p ∈ nodes, links.Untouched links' p) : links'.Lists nodes :=
  Chain.frame lists (fun p mem => (same p mem).1) fun p mem => (same p mem).2

variable [DecidableEq P]

-- The item becomes the head of the list.
def prepend (links : Links P) (head : Option P) (item : P) : Links P where
  next := update links.next item head
  previous :=
    let previous := match head with
      | some second => update links.previous second (some item)
      | none => links.previous
    update previous item none

-- Returns the new head too. none stands for the failing assertion that an item without a
-- predecessor is the head.
def remove (links : Links P) (head : Option P) (item : P) : Option (Links P × Option P) :=
  let previous := match links.next item with
    | some behind => update links.previous behind (links.previous item)
    | none => links.previous
  match previous item with
  | some before =>
    let next := update links.next before (links.next item)
    some (⟨update next item none, update previous item none⟩, head)
  | none =>
    if head = some item then
      some (⟨update links.next item none, update previous item none⟩,
        links.next item)
    else none

variable {l : Links P} {nodes front back : List P} {item : P}

theorem prepend_lists (lists : l.Lists nodes) (fresh : item ∉ nodes) :
    (l.prepend nodes.head? item).Lists (item :: nodes) := by
  have other : ∀ p ∈ nodes, p ≠ item := fun p mem same => fresh (same ▸ mem)
  refine Chain.cons lists fresh ?_ ?_ ?_ ?_ ?_
  · simp [prepend]
  · simp [prepend]
  · intro p mem
    simp [prepend, other p mem]
  · intro p first
    have mem := mem_of_head? first
    simp [prepend, first, other p mem]
  · intro p mem inner
    cases first : nodes.head? with
    | none => simp [prepend, other p mem]
    | some second =>
      have ne : p ≠ second := fun same => inner (same ▸ first)
      simp [prepend, other p mem, ne]

theorem prepend_untouched {p : P} (head : Option P) (ne : p ≠ item) (inner : head ≠ some p) :
    l.Untouched (l.prepend head item) p := by
  refine ⟨by simp [prepend, ne], ?_⟩
  cases head with
  | none => simp [prepend, ne]
  | some second =>
    have other : p ≠ second := fun same => inner (congrArg some same.symm)
    simp [prepend, ne, other]

theorem remove_lists (lists : l.Lists (front ++ item :: back)) :
    ∃ links', l.remove (front ++ item :: back).head? item = some (links', (front ++ back).head?) ∧
      links'.Lists (front ++ back) ∧ links'.next item = none ∧ links'.previous item = none ∧
      ∀ p ∉ front ++ item :: back, l.Untouched links' p := by
  have nodup := lists.nodup
  have next := Chain.next_eq lists
  have previous := Chain.previous_eq lists
  have notFront : item ∉ front := fun mem =>
    disjoint_of_nodup_append nodup mem mem_cons_self
  have notBack : item ∉ back := (nodup_cons.mp nodup.of_append_right).1
  let links' : Links P :=
    { next := update
        (match front.getLast? with
          | some before => update l.next before back.head?
          | none => l.next) item none
      previous := update
        (match back.head? with
          | some behind => update l.previous behind front.getLast?
          | none => l.previous) item none }
  have behind : ∀ p, back.head? = some p -> p ∈ back := fun p first => mem_of_head? first
  have before : ∀ p, front.getLast? = some p -> p ∈ front := fun p last => mem_of_getLast? last
  refine ⟨links', ?_, ?_, by simp [links'], by simp [links'], ?_⟩
  · cases first : back.head? with
    | none =>
      obtain rfl : back = [] := head?_eq_none_iff.mp first
      cases last : front.getLast? with
      | none =>
        obtain rfl : front = [] := getLast?_eq_none_iff.mp last
        simp only [first, last] at next previous
        simp [remove, next, previous, links']
      | some p =>
        simp only [first, last] at next previous
        obtain ⟨q, rest, rfl⟩ : ∃ q rest, front = q :: rest :=
          exists_cons_of_ne_nil fun empty => by simp [empty] at last
        simp [remove, next, previous, links', last]
    | some r =>
      have apart : item ≠ r := fun same => notBack (same ▸ behind r first)
      cases last : front.getLast? with
      | none =>
        obtain rfl : front = [] := getLast?_eq_none_iff.mp last
        simp only [first, last] at next previous
        simp [remove, next, previous, links', first, apart]
      | some p =>
        simp only [first, last] at next previous
        obtain ⟨q, rest, rfl⟩ : ∃ q rest, front = q :: rest :=
          exists_cons_of_ne_nil fun empty => by simp [empty] at last
        simp [remove, next, previous, links', first, last, apart]
  · have other : ∀ p ∈ front ++ back, p ≠ item := by
      rintro p mem rfl
      exact (mem_append.mp mem).elim notFront notBack
    refine Chain.remove lists ?_ ?_ ?_ ?_
    · intro p last
      have ne := other p (mem_append_left _ (before p last))
      simp [links', last, ne]
    · intro p mem inner
      cases last : front.getLast? with
      | none => simp [links', last, other p mem]
      | some q =>
        have ne : p ≠ q := fun same => inner (same ▸ last)
        simp [links', last, other p mem, ne]
    · intro p first
      have ne := other p (mem_append_right _ (behind p first))
      simp [links', first, ne]
    · intro p mem inner
      cases first : back.head? with
      | none => simp [links', first, other p mem]
      | some q =>
        have ne : p ≠ q := fun same => inner (same ▸ first)
        simp [links', first, other p mem, ne]
  · intro p outside
    simp only [mem_append, mem_cons, not_or] at outside
    obtain ⟨notInFront, ne, notInBack⟩ := outside
    constructor
    · cases last : front.getLast? with
      | none => simp [links', last, ne]
      | some q =>
        have other : p ≠ q := fun same => notInFront (same ▸ before q last)
        simp [links', last, ne, other]
    · cases first : back.head? with
      | none => simp [links', first, ne]
      | some q =>
        have other : p ≠ q := fun same => notInBack (same ▸ behind q first)
        simp [links', first, ne, other]

end Links

/-- What the table has under a key: the first of the nodes, and the node whose string the entry uses
as its key. -/
structure Entry (P : Type) where
  owner : P
  first : P
  deriving DecidableEq

/-- Nodes that share a key are chained in a list, and a table finds the list by the key. The key of
an entry is borrowed: it is the string of one of the nodes, and goes with it. -/
structure Shared (P K : Type) where
  key : P -> Option K
  links : Links P
  table : K -> Option (Entry P)

namespace Shared

def empty : Shared P K where
  key := fun _ => none
  links := .empty
  table := fun _ => none

structure Listed (s : Shared P K) (k : K) (nodes : List P) : Prop where
  lists : s.links.Lists nodes
  members : ∀ p, p ∈ nodes ↔ s.key p = some k
  first : (s.table k).map Entry.first = nodes.head?
  owner : ∀ entry, s.table k = some entry -> entry.owner ∈ nodes

structure Sound (s : Shared P K) : Prop where
  listed : ∀ k, ∃ nodes, s.Listed k nodes
  alone : ∀ p, s.key p = none -> s.links.next p = none ∧ s.links.previous p = none

theorem empty_sound : (empty : Shared P K).Sound where
  listed := fun k => ⟨[], Chain.nil, by simp [empty], rfl, by simp [empty]⟩
  alone := fun _ _ => ⟨rfl, rfl⟩

variable {s : Shared P K} {k : K} {nodes : List P}

theorem Listed.borrowed (listed : s.Listed k nodes) {entry : Entry P} (found : s.table k = some entry) :
    s.key entry.owner = some k :=
  (listed.members _).mp (listed.owner entry found)

theorem Listed.untouched {s' : Shared P K} (listed : s.Listed k nodes) (entry : s'.table k = s.table k)
    (key : ∀ p, s'.key p = some k ↔ s.key p = some k)
    (same : ∀ p ∈ nodes, s.links.Untouched s'.links p) : s'.Listed k nodes where
  lists := listed.lists.frame same
  members := fun p => (listed.members p).trans (key p).symm
  first := by rw [entry]; exact listed.first
  owner := fun e found => listed.owner e (entry ▸ found)

def Dangling (s : Shared P K) (k : K) : Prop :=
  ∃ entry, s.table k = some entry ∧ s.key entry.owner ≠ some k

section

variable [DecidableEq K]

-- Comparing with the key of an entry reads it. none: it has been freed.
def get (s : Shared P K) (k : K) : Option (Option P) :=
  match s.table k with
  | none => some none
  | some entry => if s.key entry.owner = some k then some (some entry.first) else none

theorem Listed.get (listed : s.Listed k nodes) : s.get k = some nodes.head? := by
  have first := listed.first
  unfold Shared.get
  cases found : s.table k with
  | none =>
    rw [found] at first
    rw [← first]
    rfl
  | some entry =>
    rw [found] at first
    simpa [listed.borrowed found] using first

theorem Dangling.get (dangling : s.Dangling k) : s.get k = none := by
  obtain ⟨entry, found, lost⟩ := dangling
  simp [Shared.get, found, lost]

variable [DecidableEq P]

-- A node without a key takes one and is put in front of the list.
def join (s : Shared P K) (item : P) (k : K) : Option (Shared P K) :=
  (s.get k).map fun first =>
    { key := update s.key item (some k)
      links := s.links.prepend first item
      table := update s.table k (some ⟨item, item⟩) }

-- A node leaves its list and gives up its key; if the list goes on, `heir` tells from the node that
-- leaves and the one that is first now whose string the entry uses.
def leave (heir : P -> P -> P) (s : Shared P K) (item : P) : Option (Shared P K) :=
  match s.key item with
  | none => some s
  | some k => do
    let first ← s.get k
    let (links, first) ← s.links.remove first item
    some
      { key := update s.key item none
        links := links
        table := update s.table k (first.map fun first => ⟨heir item first, first⟩) }

variable {item : P}

theorem join_listed (sound : s.Sound) (free : s.key item = none) (listed : s.Listed k nodes) :
    ∃ s', s.join item k = some s' ∧ s'.Sound ∧ s'.key = update s.key item (some k) ∧
      s'.Listed k (item :: nodes) ∧ ∀ k' nodes', k' ≠ k -> s.Listed k' nodes' -> s'.Listed k' nodes' := by
  have fresh : ∀ {k' nodes'}, s.Listed k' nodes' -> item ∉ nodes' := by
    intro k' nodes' listed' mem
    rw [listed'.members, free] at mem
    cases mem
  let s' : Shared P K :=
    { key := update s.key item (some k)
      links := s.links.prepend nodes.head? item
      table := update s.table k (some ⟨item, item⟩) }
  have here : s'.Listed k (item :: nodes) := by
    refine ⟨Links.prepend_lists listed.lists (fresh listed), fun p => ?_, by simp [s'], ?_⟩
    · by_cases same : p = item
      · simp [s', same]
      · simp [s', same, listed.members]
    · intro entry found
      obtain rfl : ⟨item, item⟩ = entry := by simpa [s'] using found
      simp
  have others : ∀ k' nodes', k' ≠ k -> s.Listed k' nodes' -> s'.Listed k' nodes' := by
    intro k' nodes' other listed'
    refine listed'.untouched (by simp [s', other]) (fun p => ?_) fun p mem => ?_
    · by_cases same : p = item
      · simp [s', same, free, Ne.symm other]
      · simp [s', same]
    · refine Links.prepend_untouched _ (fun same => fresh listed' (same ▸ mem)) fun first => ?_
      have mine := (listed.members p).mp (mem_of_head? first)
      exact other (some.inj (((listed'.members p).mp mem).symm.trans mine))
  refine ⟨s', by simp [join, listed.get, s'], ⟨fun k' => ?_, fun p none => ?_⟩, rfl, here, others⟩
  · by_cases same : k' = k
    · exact ⟨_, same ▸ here⟩
    · obtain ⟨nodes', listed'⟩ := sound.listed k'
      exact ⟨nodes', others k' nodes' same listed'⟩
  · have ne : p ≠ item := by
      rintro rfl
      simp [s'] at none
    have before : s.key p = Option.none := by simpa [s', ne] using none
    have inner : nodes.head? ≠ some p := fun first => by
      have mine := (listed.members p).mp (mem_of_head? first)
      rw [before] at mine
      cases mine
    obtain ⟨next, previous⟩ := Links.prepend_untouched (l := s.links) nodes.head? ne inner
    obtain ⟨noNext, noPrevious⟩ := sound.alone p before
    exact ⟨next.trans noNext, previous.trans noPrevious⟩

theorem leave_listed (heir : P -> P -> P) (sound : s.Sound) {front back : List P}
    (listed : s.Listed k (front ++ item :: back)) :
    ∃ s', s.leave heir item = some s' ∧ s'.key = update s.key item none ∧
      (∀ k' nodes', k' ≠ k -> s.Listed k' nodes' -> s'.Listed k' nodes') ∧
      ((∀ first, (front ++ back).head? = some first -> heir item first ∈ front ++ back) ->
        s'.Sound ∧ s'.Listed k (front ++ back)) ∧
      ∀ first, (front ++ back).head? = some first -> heir item first ∉ front ++ back ->
        s'.Dangling k := by
  have own : s.key item = some k := (listed.members item).mp (by simp)
  obtain ⟨links', removed, lists, next, previous, untouched⟩ := Links.remove_lists listed.lists
  let s' : Shared P K :=
    { key := update s.key item none
      links := links'
      table := update s.table k
        ((front ++ back).head?.map fun first => ⟨heir item first, first⟩) }
  have left : s.leave heir item = some s' := by
    simp only [leave, own, listed.get, bind_eq_bind, bind_some, removed]
    rfl
  have gone : item ∉ front ++ back := by
    have nodup := listed.lists.nodup
    rw [nodup_append, nodup_cons] at nodup
    intro mem
    rcases mem_append.mp mem with first | second
    · exact nodup.2.2 item first item (by simp) rfl
    · exact nodup.2.1.1 second
  have members : ∀ p, p ∈ front ++ back ↔ s'.key p = some k := by
    intro p
    by_cases same : p = item
    · simpa [s', same] using gone
    · have before := listed.members p
      simp only [mem_append, mem_cons, same, false_or] at before
      simpa [s', same] using before
  have others : ∀ k' nodes', k' ≠ k -> s.Listed k' nodes' -> s'.Listed k' nodes' := by
    intro k' nodes' other listed'
    have apart : ∀ p ∈ nodes', p ∉ front ++ item :: back := fun p mem mine =>
      other (some.inj (((listed'.members p).mp mem).symm.trans ((listed.members p).mp mine)))
    refine listed'.untouched (by simp [s', other]) (fun p => ?_) fun p mem => untouched p (apart p mem)
    by_cases same : p = item
    · simp [s', same, own, Ne.symm other]
    · simp [s', same]
  refine ⟨s', left, rfl, others, fun inherited => ?_, fun first head lost => ?_⟩
  · have here : s'.Listed k (front ++ back) := by
      refine ⟨lists, members, ?_, fun entry found => ?_⟩
      · simp [s', comp_def]
      · simp only [s', update_self, map_eq_some_iff] at found
        obtain ⟨first, head, rfl⟩ := found
        exact inherited first head
    refine ⟨⟨fun k' => ?_, fun p none => ?_⟩, here⟩
    · by_cases same : k' = k
      · exact ⟨_, same ▸ here⟩
      · obtain ⟨nodes', listed'⟩ := sound.listed k'
        exact ⟨nodes', others k' nodes' same listed'⟩
    · by_cases same : p = item
      · exact same ▸ ⟨next, previous⟩
      · have before : s.key p = Option.none := by simpa [s', same] using none
        have outside : p ∉ front ++ item :: back := fun mem => by
          have mine := (listed.members p).mp mem
          rw [before] at mine
          cases mine
        obtain ⟨sameNext, samePrevious⟩ := untouched p outside
        obtain ⟨noNext, noPrevious⟩ := sound.alone p before
        exact ⟨sameNext.trans noNext, samePrevious.trans noPrevious⟩
  · refine ⟨⟨heir item first, first⟩, ?_, fun key => lost ((members _).mpr key)⟩
    simp only [s', update_self, head, map_some]

theorem leave_unlisted (heir : P -> P -> P) (free : s.key item = none) : s.leave heir item = some s := by
  simp [leave, free]

theorem leave_first (sound : s.Sound) (item : P) :
    ∃ s', s.leave (fun _ first => first) item = some s' ∧ s'.Sound ∧
      s'.key = update s.key item none ∧
      ∀ k nodes, s.Listed k nodes -> s'.Listed k (nodes.erase item) := by
  cases own : s.key item with
  | none =>
    refine ⟨s, leave_unlisted _ own, sound, ?_, fun k nodes listed => ?_⟩
    · rw [← own, update_eq_self]
    · have outside : item ∉ nodes := fun mem => by
        rw [listed.members, own] at mem
        cases mem
      rwa [erase_of_not_mem outside]
  | some k =>
    obtain ⟨nodes, listed⟩ := sound.listed k
    obtain ⟨front, back, rfl⟩ := append_of_mem ((listed.members item).mpr own)
    obtain ⟨s', left, keys, others, inherited, _⟩ := leave_listed (fun _ first => first) sound listed
    obtain ⟨sound', here⟩ := inherited fun first head => mem_of_head? head
    refine ⟨s', left, sound', keys, fun k' nodes' listed' => ?_⟩
    by_cases same : k' = k
    · subst same
      have erased : (front ++ item :: back).erase item = front ++ back := by
        have fresh := (nodup_cons.mp (nodup_middle.mp listed.lists.nodup)).1
        rw [erase_append_right _ fun mem => fresh (mem_append_left _ mem),
          erase_cons_head]
      have equal : nodes' = front ++ item :: back := by
        refine Follows.unique listed'.lists.next listed.lists.next ?_
        rw [← listed'.first, ← listed.first]
      rw [equal, erased]
      exact here
    · have outside : item ∉ nodes' := fun mem => by
        rw [listed'.members, own] at mem
        exact same (some.inj mem).symm
      rw [erase_of_not_mem outside]
      exact others k' nodes' same listed'

theorem Dangling.leave (dangling : s.Dangling k) (heir : P -> P -> P) {s' : Shared P K}
    (left : s.leave heir item = some s') : s'.Dangling k := by
  unfold Shared.leave at left
  cases own : s.key item with
  | none =>
    rw [own] at left
    exact some.inj left ▸ dangling
  | some k' =>
    rw [own] at left
    by_cases same : k' = k
    · subst same
      simp [dangling.get] at left
    · obtain ⟨first, _, left⟩ := bind_eq_some_iff.mp left
      obtain ⟨⟨links', first'⟩, _, left⟩ := bind_eq_some_iff.mp left
      obtain rfl := some.inj left
      obtain ⟨entry, found, lost⟩ := dangling
      refine ⟨entry, by simp [Ne.symm same, found], ?_⟩
      by_cases owned : entry.owner = item
      · simp [owned]
      · simpa [owned] using lost

end

end Shared

end Systemd.Sharing
