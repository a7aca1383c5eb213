import Systemd.Shared.Sharing

set_option autoImplicit false

namespace Systemd.Sharing

open Chains List Option

variable {P K : Type}

-- The nodes that a pointer leads to, one after the other.
def walk (step : P -> Option P) : Nat -> Option P -> List P
  | 0, _ => []
  | _ + 1, none => []
  | bound + 1, some p => p :: walk step bound (step p)

theorem walk_follows {step : P -> Option P} {nodes : List P} (follows : Chains.Follows step nodes) {bound : Nat}
    (enough : nodes.length ≤ bound) : walk step bound nodes.head? = nodes := by
  induction nodes generalizing bound with
  | nil => cases bound <;> rfl
  | cons p back ih =>
    cases bound with
    | zero => simp at enough
    | succ bound =>
      rw [head?_cons, walk, follows.1, ih follows.2 (Nat.le_of_succ_le_succ enough)]

def following (links : Links P) (leads : P -> Bool) (bound : Nat) (p : P) : Option P :=
  if leads p then none
  else
    let after := walk links.next bound (links.next p)
    let before := walk links.previous bound (links.previous p)
    ((after.find? leads).or (before.find? leads)).or before.getLast?

def chief (leads : P -> Bool) (nodes : List P) : Option P := (nodes.find? leads).or nodes.head?

variable {links : Links P} {leads : P -> Bool} {nodes : List P} {bound : Nat}

variable {p : P} {follow : P -> Option P} {s : Shared P K}

theorem find?_only (mem : p ∈ nodes) (leader : leads p = true)
    (only : ∀ q ∈ nodes, leads q = true -> q = p) : nodes.find? leads = some p := by
  obtain ⟨q, found⟩ := isSome_iff_exists.mp
    (find?_isSome.mpr ⟨p, mem, leader⟩)
  rw [found, only q (mem_of_find?_eq_some found) (find?_some found)]

theorem following_lists [DecidableEq P] (lists : links.Lists nodes) (enough : nodes.length ≤ bound)
    (single : ∀ p ∈ nodes, ∀ q ∈ nodes, leads p = true -> leads q = true -> p = q) (mem : p ∈ nodes) :
    following links leads bound p = if chief leads nodes = some p then none else chief leads nodes := by
  obtain ⟨front, back, rfl⟩ := append_of_mem mem
  have nodup := lists.nodup
  rw [length_append, length_cons] at enough
  have after : walk links.next bound (links.next p) = back := by
    rw [Chain.next_eq lists]
    exact walk_follows lists.next.behind.2 (by omega)
  have before : walk links.previous bound (links.previous p) = front.reverse := by
    have reversed := lists.previous
    rw [reverse_append, reverse_cons, append_assoc, singleton_append] at reversed
    rw [Chain.previous_eq lists, ← head?_reverse]
    exact walk_follows reversed.behind.2 (by simp; omega)
  have apart : ∀ q, q ∈ front ∨ q ∈ back -> q ≠ p := by
    rintro q elsewhere rfl
    have outside := (nodup_cons.mp (nodup_middle.mp nodup)).1
    exact outside (mem_append.mpr elsewhere)
  unfold following
  simp only [after, before, getLast?_reverse]
  -- Whether it leads itself, another node does, or none.
  by_cases own : leads p = true
  · have found := find?_only mem own fun q inside leader => single q inside p mem leader own
    simp [own, chief, found]
  · rw [if_neg own]
    by_cases led : ∃ q ∈ front ++ p :: back, leads q = true
    · obtain ⟨q, inside, leader⟩ := led
      have only : ∀ r ∈ front ++ p :: back, leads r = true -> r = q := fun r inside' leader' =>
        single r inside' q inside leader' leader
      have found := find?_only inside leader only
      have ne : q ≠ p := fun same => own (same ▸ leader)
      have whole : (back.find? leads).or (front.reverse.find? leads) = some q := by
        rcases mem_append.mp inside with first | second
        · have there := find?_only (mem_reverse.mpr first) leader fun r here =>
            only r (mem_append_left _ (mem_reverse.mp here))
          cases behind : back.find? leads with
          | none => simpa using there
          | some r =>
            have inBack := mem_of_find?_eq_some behind
            simp [only r (by simp [inBack]) (find?_some behind)]
        · have inBack := (mem_cons.mp second).resolve_left ne
          have there := find?_only inBack leader fun r here => only r (by simp [here])
          simp [there]
      simp [whole, chief, found, ne]
    · have none : ∀ q ∈ front ++ p :: back, ¬ leads q = true := fun q inside leader =>
        led ⟨q, inside, leader⟩
      have noBack : back.find? leads = Option.none :=
        find?_eq_none.mpr fun q inside => none q (by simp [inside])
      have noFront : front.reverse.find? leads = Option.none :=
        find?_eq_none.mpr fun q inside => none q (by simp [mem_reverse.mp inside])
      have noOne : (front ++ p :: back).find? leads = Option.none := find?_eq_none.mpr none
      simp only [noBack, noFront, chief, noOne, or_none, none_or]
      cases first : front with
      | nil => simp
      | cons q rest => simp [apart q (.inl (by simp [first]))]

def FollowOne (follow : P -> Option P) (nodes : List P) : Prop :=
  ∃ p ∈ nodes, follow p = none ∧ ∀ q ∈ nodes, q ≠ p -> follow q = some p

theorem followOne_of_chief [DecidableEq P] (full : nodes ≠ [])
    (each : ∀ p ∈ nodes, follow p = if chief leads nodes = some p then none else chief leads nodes) :
    FollowOne follow nodes := by
  obtain ⟨first, head⟩ := isSome_iff_exists.mp (isSome_head?.mpr full)
  obtain ⟨p, found, mem⟩ : ∃ p, chief leads nodes = some p ∧ p ∈ nodes := by
    cases leader : nodes.find? leads with
    | none => exact ⟨first, by simp [chief, leader, head], mem_of_head? head⟩
    | some p => exact ⟨p, by simp [chief, leader], mem_of_find?_eq_some leader⟩
  refine ⟨p, mem, by simp [each p mem, found], fun q inside ne => ?_⟩
  simp [each q inside, found, Ne.symm ne]

-- A request is forwarded to the node that is followed, which may forward it in turn.
def redirect (follow : P -> Option P) : Nat -> P -> Option P
  | 0, _ => none
  | turns + 1, p =>
    match follow p with
    | none => some p
    | some q => redirect follow turns q

theorem FollowOne.redirect (one : FollowOne follow nodes) (mem : p ∈ nodes) :
    ∃ q ∈ nodes, Sharing.redirect follow 2 p = some q := by
  obtain ⟨q, inside, none, others⟩ := one
  refine ⟨q, inside, ?_⟩
  by_cases same : p = q
  · simp [Sharing.redirect, same, none]
  · simp [Sharing.redirect, others p mem same, none]

/-- Each key leads to a list of exactly the nodes that are there and have it, and where no two of them
lead, they follow one of them. -/
def InOrder (s : Shared P K) (present : P -> Prop) (leads : P -> Bool) (follow : P -> Option P) : Prop :=
  ∀ k, ∃ nodes, s.links.Lists nodes ∧ (∀ p, p ∈ nodes ↔ present p ∧ s.key p = some k) ∧
    (s.table k).map Entry.first = nodes.head? ∧
    (∀ entry, s.table k = some entry -> entry.owner ∈ nodes) ∧
    ((∀ p ∈ nodes, ∀ q ∈ nodes, leads p = true -> leads q = true -> p = q) -> nodes ≠ [] ->
      FollowOne follow nodes ∧ ∀ p ∈ nodes, ∃ q ∈ nodes, Sharing.redirect follow 2 p = some q)

variable {present : P -> Prop}

theorem Shared.Sound.inOrder [DecidableEq P] (sound : s.Sound)
    (known : ∀ p, (s.key p).isSome = true -> present p) (each : ∀ k nodes, s.Listed k nodes -> (∀ p ∈
      nodes, ∀ q ∈ nodes, leads p = true -> leads q = true -> p = q) -> ∀ p ∈ nodes, follow p = if chief
      leads nodes = some p then none else chief leads nodes) : InOrder s present leads follow := by
  intro k
  obtain ⟨nodes, listed⟩ := sound.listed k
  refine ⟨nodes, listed.lists, fun p => ?_, listed.first, listed.owner, fun single full => ?_⟩
  · refine (listed.members p).trans ⟨fun key => ⟨known p ?_, key⟩, And.right⟩
    rw [key, isSome_some]
  · have one := followOne_of_chief full (each k nodes listed single)
    exact ⟨one, fun p mem => one.redirect mem⟩

theorem Shared.Sound.not_inOrder (sound : s.Sound) (held : (s.key p).isSome = true)
    (gone : ¬ present p) : ¬ InOrder s present leads follow := by
  intro inOrder
  obtain ⟨k, key⟩ := isSome_iff_exists.mp held
  obtain ⟨nodes, lists, members, first, _⟩ := inOrder k
  obtain ⟨nodes', listed⟩ := sound.listed k
  obtain rfl : nodes = nodes' := Follows.unique lists.next listed.lists.next (by rw [← first, listed.first])
  exact gone ((members p).mp ((listed.members p).mpr key)).1

end Systemd.Sharing
