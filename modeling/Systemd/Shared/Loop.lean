import Mathlib.Data.List.Basic
import Mathlib.Logic.Relation

set_option autoImplicit false

namespace Systemd.Loop

open List

variable {S A E : Type}

-- do { pick something; act on it } while (something was picked), bounded by a count of turns.
def repeatWhile (pick : S -> Option A) (act : S -> A -> S) : Nat -> S -> S
  | 0, state => state
  | turns + 1, state =>
    match pick state with
    | none => state
    | some item => repeatWhile pick act turns (act state item)

def forEach (body : S -> A -> S × Except E Unit) : S -> List A -> S × Except E Unit
  | state, [] => (state, .ok ())
  | state, item :: rest =>
    match body state item with
    | (state, .ok ()) => forEach body state rest
    | (state, .error e) => (state, .error e)

variable (body : S -> A -> S × Except E Unit) (pick : S -> Option A) (act : S -> A -> S)
  (Inv : S -> Prop)

theorem repeatWhile_invariant
    (step : ∀ state item, Inv state -> pick state = some item -> Inv (act state item)) (turns : Nat)
    (state : S) (start : Inv state) : Inv (repeatWhile pick act turns state) := by
  induction turns generalizing state with
  | zero => exact start
  | succ turns ih =>
    simp only [repeatWhile]
    cases picked : pick state with
    | none => exact start
    | some item => exact ih _ (step state item start picked)

theorem repeatWhile_exhausted (size : S -> Nat)
    (step : ∀ state item, Inv state -> pick state = some item -> Inv (act state item))
    (shrinks : ∀ state item, Inv state -> pick state = some item -> size (act state item) < size state)
    (turns : Nat) (state : S) (start : Inv state) (bound : size state ≤ turns) :
    pick (repeatWhile pick act turns state) = none := by
  induction turns generalizing state with
  | zero =>
    cases picked : pick state with
    | none => simpa [repeatWhile] using picked
    | some item =>
      have smaller := shrinks state item start picked
      omega
  | succ turns ih =>
    simp only [repeatWhile]
    cases picked : pick state with
    | none => exact picked
    | some item =>
      have smaller := shrinks state item start picked
      exact ih _ (step state item start picked) (by omega)

/-- The loop that takes a turn as long as `step` offers one, without a bound on their number, comes to
its end at `last`. -/
inductive Ends (step : S -> Option S) : S -> S -> Prop where
  | done (state : S) : step state = none -> Ends step state state
  | turn (state next last : S) : step state = some next -> Ends step next last -> Ends step state last

theorem repeatWhile_ends (size : S -> Nat)
    (step : ∀ state item, Inv state -> pick state = some item -> Inv (act state item))
    (shrinks : ∀ state item, Inv state -> pick state = some item -> size (act state item) < size state)
    (turns : Nat) (state : S) (start : Inv state) (bound : size state ≤ turns) :
    Ends (fun state => (pick state).map (act state)) state (repeatWhile pick act turns state) := by
  induction turns generalizing state with
  | zero =>
    cases picked : pick state with
    | none => exact .done state (by simp [picked])
    | some item =>
      have smaller := shrinks state item start picked
      omega
  | succ turns ih =>
    rw [repeatWhile]
    cases picked : pick state with
    | none => exact .done state (by simp [picked])
    | some item =>
      have smaller := shrinks state item start picked
      exact .turn _ (act state item) _ (by simp [picked])
        (ih _ (step state item start picked) (by omega))

-- A loop that comes to its end has taken a step for each item; one that stops early has taken them
-- up to the item whose body failed.
theorem forEach_steps (Step : S -> S -> Prop) (refl : ∀ state, Step state state)
    (trans : ∀ a b c, Step a b -> Step b c -> Step a c) (items : List A)
    (each : ∀ item ∈ items, ∀ state state', body state item = (state', .ok ()) -> Step state state')
    (state state' : S) (outcome : Except E Unit) (ran : forEach body state items = (state', outcome)) :
    match outcome with
    | .ok () => Step state state'
    | .error e => ∃ middle, ∃ item ∈ items, Step state middle ∧ body middle item = (state', .error e) := by
  induction items generalizing state with
  | nil =>
    obtain ⟨rfl, rfl⟩ := Prod.mk.inj ran
    exact refl state
  | cons item rest ih =>
    rw [forEach] at ran
    cases first : body state item with
    | mk middle result =>
      cases result with
      | error e =>
        simp only [first] at ran
        obtain ⟨rfl, rfl⟩ := Prod.mk.inj ran
        exact ⟨state, item, by simp, refl state, first⟩
      | ok =>
        simp only [first] at ran
        have step := each item (by simp) state middle first
        have later := ih (fun x mem => each x (mem_cons_of_mem _ mem)) middle ran
        cases outcome with
        | ok => exact trans _ _ _ step later
        | error e =>
          obtain ⟨last, x, mem, steps, failed⟩ := later
          exact ⟨last, x, mem_cons_of_mem _ mem, trans _ _ _ step steps, failed⟩

theorem forEach_always (Step : S -> S -> Prop) (refl : ∀ state, Step state state)
    (trans : ∀ a b c, Step a b -> Step b c -> Step a c) (items : List A)
    (each : ∀ item ∈ items, ∀ state, Step state (body state item).1) (state : S) :
    Step state (forEach body state items).1 := by
  induction items generalizing state with
  | nil => exact refl state
  | cons item rest ih =>
    have step := each item (by simp) state
    rw [forEach]
    cases first : body state item with
    | mk middle result =>
      rw [first] at step
      cases result with
      | error e => exact step
      | ok => exact trans _ _ _ step (ih (fun x mem => each x (mem_cons_of_mem _ mem)) middle)

theorem forEach_congr (body' : S -> A -> S × Except E Unit) (Inv : S -> Prop) (items : List A)
    (same : ∀ item ∈ items, ∀ state, Inv state -> body state item = body' state item)
    (kept : ∀ item ∈ items, ∀ state, Inv state -> Inv (body state item).1) (state : S)
    (start : Inv state) : forEach body state items = forEach body' state items := by
  induction items generalizing state with
  | nil => rfl
  | cons item rest ih =>
    have next := kept item (by simp) state start
    rw [forEach, forEach, ← same item (by simp) state start]
    cases first : body state item with
    | mk middle result =>
      rw [first] at next
      cases result with
      | error e => rfl
      | ok =>
        exact ih (fun x mem => same x (mem_cons_of_mem _ mem))
          (fun x mem => kept x (mem_cons_of_mem _ mem)) middle next

theorem bind_ok {B : Type} {first : Except E A} {next : A -> Except E B} {result : B}
    (ran : first >>= next = .ok result) : ∃ middle, first = .ok middle ∧ next middle = .ok result := by
  cases first with
  | error e => cases ran
  | ok middle => exact ⟨middle, rfl, ran⟩

theorem foldlM_steps (body : S -> A -> Except E S) (Step : S -> S -> Prop)
    (refl : ∀ state, Step state state) (trans : ∀ a b c, Step a b -> Step b c -> Step a c)
    (each : ∀ state item state', body state item = .ok state' -> Step state state') (items : List A)
    (state state' : S) (ran : items.foldlM body state = .ok state') : Step state state' := by
  induction items generalizing state with
  | nil =>
    obtain rfl : state = state' := Except.ok.inj ran
    exact refl state
  | cons item rest ih =>
    rw [foldlM_cons] at ran
    cases first : body state item with
    | error e =>
      rw [first] at ran
      cases ran
    | ok middle =>
      rw [first] at ran
      exact trans _ _ _ (each state item middle first) (ih middle ran)

theorem length_filter_lt_of_dropped (items : List A) (item : A) (mem : item ∈ items)
    {before after : A -> Bool} (fewer : ∀ x, after x = true -> before x = true) (was : before item = true)
    (gone : after item = false) : (items.filter after).length < (items.filter before).length := by
  have sub : (items.filter after).Sublist (items.filter before) :=
    monotone_filter_right items fewer
  refine Nat.lt_of_le_of_ne sub.length_le fun same => ?_
  have kept : item ∈ items.filter after := by
    rw [sub.eq_of_length same]
    exact mem_filter.mpr ⟨mem, was⟩
  simp [(mem_filter.mp kept).2] at gone

end Systemd.Loop

namespace Systemd.Loop

open Relation

variable {S : Type}

def Turn (step : S -> Option S) (state next : S) : Prop :=
  step state = some next

variable {last state : S} {step : S -> Option S}

section

variable (ends : Ends step state last)
include ends

theorem Ends.next {next : S} (turn : Turn step state next) : Ends step next last := by
  cases ends with
  | done _ stops => cases turn.symm.trans stops
  | turn _ other _ goes rest =>
    obtain rfl := Option.some.inj (goes.symm.trans turn)
    exact rest

theorem Ends.reached {middle : S} (path : ReflTransGen (Turn step) state middle) :
    Ends step middle last := by
  induction path with
  | refl => exact ends
  | tail _ turn ih => exact ih.next turn

theorem Ends.same {other : S} (also : Ends step state other) : last = other := by
  induction ends with
  | done _ stops =>
    cases also with
    | done => rfl
    | turn _ _ _ goes _ => cases stops.symm.trans goes
  | turn _ _ _ goes _ ih => exact ih (also.next goes)

theorem Ends.stops : step last = none := by
  induction ends with
  | done _ stops => exact stops
  | turn _ _ _ _ _ ih => exact ih

theorem Ends.path : ReflTransGen (Turn step) state last := by
  induction ends with
  | done => exact .refl
  | turn _ _ _ goes _ ih => exact .head goes ih

end

variable (Inv : S -> Prop)

theorem not_ends_of_forever (forever : ∀ state, Inv state -> ∃ next, Turn step state next ∧ Inv next)
    (start : Inv state) (last : S) : ¬Ends step state last := by
  intro ends
  induction ends with
  | done state stops =>
    obtain ⟨next, turn, _⟩ := forever state start
    cases turn.symm.trans stops
  | turn state next last goes _ ih =>
    obtain ⟨other, turn, holds⟩ := forever state start
    obtain rfl := Option.some.inj (goes.symm.trans turn)
    exact ih holds

theorem ends_of_measure (size : S -> Nat)
    (shrinks : ∀ state next, Inv state -> Turn step state next -> Inv next ∧ size next < size state)
    (start : Inv state) : ∃ last, Ends step state last := by
  induction bound : size state using Nat.strongRecOn generalizing state with
  | _ bound ih =>
    cases goes : step state with
    | none => exact ⟨state, .done state goes⟩
    | some next =>
      obtain ⟨holds, smaller⟩ := shrinks state next start goes
      obtain ⟨last, ends⟩ := ih (size next) (by omega) holds rfl
      exact ⟨last, .turn state next last goes ends⟩

theorem path_invariant (keeps : ∀ state next, Inv state -> Turn step state next -> Inv next)
    (path : ReflTransGen (Turn step) state last) (start : Inv state) : Inv last := by
  induction path with
  | refl => exact start
  | tail _ turn ih => exact keeps _ _ ih turn

end Systemd.Loop
