import Mathlib.Data.List.Nodup

set_option autoImplicit false

namespace Systemd.Chains

open List

variable {P : Type}

def Follows (next : P -> Option P) : List P -> Prop
  | [] => True
  | p :: back => next p = back.head? ∧ Follows next back

namespace Follows

variable {next next' : P -> Option P} {nodes front back : List P} {e p : P}

theorem at_split (follows : Follows next (front ++ p :: back)) : next p = back.head? := by
  induction front with
  | nil => exact follows.1
  | cons q front ih => exact ih follows.2

theorem behind (follows : Follows next (front ++ back)) : Follows next back := by
  induction front with
  | nil => exact follows
  | cons q front ih => exact ih follows.2

section

variable (follows : Follows next nodes)
include follows

theorem frame (same : ∀ p ∈ nodes, next' p = next p) : Follows next' nodes := by
  induction nodes with
  | nil => trivial
  | cons p back ih =>
    refine ⟨(same p (by simp)).trans follows.1, ih follows.2 ?_⟩
    intro q mem
    exact same q (mem_cons_of_mem _ mem)

theorem unique (other : Follows next front) (same : nodes.head? = front.head?) : nodes = front := by
  induction nodes generalizing front with
  | nil => exact (head?_eq_none_iff.mp same.symm).symm
  | cons p back ih =>
    cases front with
    | nil => cases same
    | cons q rest =>
      obtain rfl := Option.some.inj same
      rw [ih follows.2 other.2 (follows.1.symm.trans other.1)]

theorem cons (own : next' e = nodes.head?) (same : ∀ p ∈ nodes, next' p = next p) :
    Follows next' (e :: nodes) :=
  ⟨own, follows.frame same⟩

theorem concat (nodup : nodes.Nodup) (own : next' e = none)
    (last : ∀ p, nodes.getLast? = some p -> next' p = some e)
    (same : ∀ p ∈ nodes, nodes.getLast? ≠ some p -> next' p = next p) :
    Follows next' (nodes ++ [e]) := by
  induction nodes with
  | nil => exact ⟨own, trivial⟩
  | cons p back ih =>
    obtain ⟨fresh, nodup⟩ := nodup_cons.mp nodup
    cases back with
    | nil => exact ⟨last p rfl, own, trivial⟩
    | cons q back =>
      rw [getLast?_cons_cons] at last same
      have inner : (q :: back).getLast? ≠ some p :=
        fun here => fresh (mem_of_getLast? here)
      refine ⟨(same p (by simp) inner).trans follows.1, ih follows.2 nodup last ?_⟩
      intro r mem
      exact same r (mem_cons_of_mem _ mem)

end

theorem remove (follows : Follows next (front ++ e :: back)) (nodup : (front ++ back).Nodup)
    (before : ∀ p, front.getLast? = some p -> next' p = back.head?)
    (same : ∀ p ∈ front ++ back, front.getLast? ≠ some p -> next' p = next p) :
    Follows next' (front ++ back) := by
  induction front with
  | nil =>
    refine follows.2.frame ?_
    intro p mem
    exact same p mem (by simp)
  | cons p front ih =>
    obtain ⟨fresh, nodup⟩ := nodup_cons.mp nodup
    cases front with
    | nil =>
      refine ⟨before p rfl, follows.2.2.frame ?_⟩
      intro q mem
      refine same q (mem_cons_of_mem _ mem) ?_
      rintro here
      simp only [getLast?_singleton, Option.some.injEq] at here
      exact fresh (by simpa [here] using mem)
    | cons q front =>
      rw [getLast?_cons_cons] at before same
      have inner : (q :: front).getLast? ≠ some p :=
        fun here => fresh (mem_append_left _ (mem_of_getLast? here))
      refine ⟨(same p (by simp) inner).trans follows.1, ih follows.2 nodup before ?_⟩
      intro r mem
      exact same r (mem_cons_of_mem _ mem)

end Follows

structure Chain (next previous : P -> Option P) (nodes : List P) : Prop where
  nodup : nodes.Nodup
  next : Follows next nodes
  previous : Follows previous nodes.reverse

namespace Chain

variable {next previous next' previous' : P -> Option P} {nodes front back : List P} {e p : P}

theorem nil : Chain next previous [] :=
  ⟨nodup_nil, trivial, trivial⟩

theorem next_eq (chain : Chain next previous (front ++ p :: back)) : next p = back.head? :=
  chain.next.at_split

theorem previous_eq (chain : Chain next previous (front ++ p :: back)) :
    previous p = front.getLast? := by
  have reversed := chain.previous
  rw [reverse_append, reverse_cons, append_assoc] at reversed
  simpa using reversed.at_split

section

variable (chain : Chain next previous nodes)
include chain

theorem frame (sameNext : ∀ p ∈ nodes, next' p = next p)
    (samePrevious : ∀ p ∈ nodes, previous' p = previous p) : Chain next' previous' nodes where
  nodup := chain.nodup
  next := chain.next.frame sameNext
  previous := chain.previous.frame fun p mem => samePrevious p (mem_reverse.mp mem)

theorem cons (fresh : e ∉ nodes) (ownNext : next' e = nodes.head?) (ownPrevious : previous' e = none)
    (sameNext : ∀ p ∈ nodes, next' p = next p)
    (second : ∀ p, nodes.head? = some p -> previous' p = some e)
    (samePrevious : ∀ p ∈ nodes, nodes.head? ≠ some p -> previous' p = previous p) :
    Chain next' previous' (e :: nodes) where
  nodup := nodup_cons.mpr ⟨fresh, chain.nodup⟩
  next := chain.next.cons ownNext sameNext
  previous := by
    rw [reverse_cons]
    refine chain.previous.concat (nodup_reverse.mpr chain.nodup) ownPrevious ?_ ?_
    · simpa using second
    · simpa using samePrevious

theorem concat (fresh : e ∉ nodes) (ownNext : next' e = none)
    (ownPrevious : previous' e = nodes.getLast?) (samePrevious : ∀ p ∈ nodes, previous' p = previous p)
    (last : ∀ p, nodes.getLast? = some p -> next' p = some e)
    (sameNext : ∀ p ∈ nodes, nodes.getLast? ≠ some p -> next' p = next p) :
    Chain next' previous' (nodes ++ [e]) where
  nodup := by
    rw [nodup_append]
    refine ⟨chain.nodup, nodup_singleton e, ?_⟩
    intro p mem q single
    rw [mem_singleton] at single
    rintro rfl
    exact fresh (single ▸ mem)
  next := chain.next.concat chain.nodup ownNext last sameNext
  previous := by
    rw [reverse_append, reverse_singleton, singleton_append]
    refine chain.previous.cons (by simpa using ownPrevious) ?_
    intro p mem
    exact samePrevious p (mem_reverse.mp mem)

end

theorem remove (chain : Chain next previous (front ++ e :: back))
    (before : ∀ p, front.getLast? = some p -> next' p = back.head?)
    (sameNext : ∀ p ∈ front ++ back, front.getLast? ≠ some p -> next' p = next p)
    (after : ∀ p, back.head? = some p -> previous' p = front.getLast?)
    (samePrevious : ∀ p ∈ front ++ back, back.head? ≠ some p -> previous' p = previous p) :
    Chain next' previous' (front ++ back) := by
  have nodup : (front ++ back).Nodup := by
    have all := chain.nodup
    rw [nodup_append, nodup_cons] at all
    rw [nodup_append]
    refine ⟨all.1, all.2.1.2, ?_⟩
    intro p first q second
    exact all.2.2 p first q (mem_cons_of_mem _ second)
  refine ⟨nodup, chain.next.remove nodup before sameNext, ?_⟩
  have reversed := chain.previous
  rw [reverse_append, reverse_cons, append_assoc, singleton_append] at reversed
  rw [reverse_append]
  refine reversed.remove ?_ ?_ ?_
  · rw [← reverse_append]
    exact nodup_reverse.mpr nodup
  · simpa using after
  · intro p mem inner
    refine samePrevious p ?_ (by simpa using inner)
    simpa [or_comm] using mem

end Chain

end Systemd.Chains
