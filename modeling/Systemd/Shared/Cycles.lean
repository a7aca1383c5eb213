import Mathlib.Algebra.BigOperators.Group.Finset.Basic
import Mathlib.Data.Fintype.EquivFin
import Mathlib.Data.List.Chain
import Mathlib.Logic.Relation
import Mathlib.Order.WellFounded

set_option autoImplicit false

namespace Systemd.Cycles

open Relation List

variable {V : Type}

def Within (inside : V -> Prop) (edge : V -> V -> Prop) (a b : V) : Prop :=
  inside a ∧ inside b ∧ edge a b

def Acyclic (edge : V -> V -> Prop) : Prop :=
  ∀ v, ¬ TransGen edge v v

variable {edge : V -> V -> Prop}

theorem Acyclic.mono {edge' : V -> V -> Prop} (acyclic : Acyclic edge')
    (fewer : ∀ a b, edge a b -> edge' a b) : Acyclic edge :=
  fun v loop => acyclic v (TransGen.mono fewer _ _ loop)

theorem Acyclic.within {inside inside' : V -> Prop} (acyclic : Acyclic (Within inside' edge))
    (fewer : ∀ v, inside v -> inside' v) : Acyclic (Within inside edge) :=
  acyclic.mono fun a b ⟨insideA, insideB, step⟩ => ⟨fewer a insideA, fewer b insideB, step⟩

theorem Acyclic.flip (acyclic : Acyclic edge) : Acyclic fun a b => edge b a :=
  fun v loop => acyclic v (transGen_swap.mp loop)

theorem Acyclic.exists_minimal [Finite V] (acyclic : Acyclic edge) (chosen : V -> Prop)
    (nonempty : ∃ v, chosen v) : ∃ v, chosen v ∧ ∀ w, chosen w -> ¬ edge w v := by
  have trans : IsTrans V (TransGen edge) := ⟨fun _ _ _ => TransGen.trans⟩
  have irrefl : Std.Irrefl (TransGen edge) := ⟨acyclic⟩
  have wellFounded := Finite.wellFounded_of_trans_of_irrefl (TransGen edge)
  obtain ⟨v, mem, least⟩ := wellFounded.has_min {v | chosen v} nonempty
  exact ⟨v, mem, fun w chosenW step => least w chosenW (.single step)⟩

theorem transGen_onLoop (v : V) (loop : TransGen edge v v) :
    TransGen (Within (fun w => TransGen edge w w) edge) v v := by
  have forward : ∀ w, TransGen edge v w -> ReflTransGen edge w v ->
      TransGen (Within (fun w => TransGen edge w w) edge) v w := by
    intro w path
    induction path with
    | single step =>
      intro back
      exact .single ⟨loop, .trans_right back (.single step), step⟩
    | tail path step ih =>
      intro back
      have backHere := ReflTransGen.head step back
      refine (ih backHere).tail ⟨?_, ?_, step⟩
      · exact .trans_right backHere path
      · exact .trans_right back (path.tail step)
  exact forward v loop .refl

theorem not_transGen_of_acc (v : V) (acc : Acc (fun b a => edge a b) v) : ¬ TransGen edge v v := by
  induction acc with
  | intro v _ ih =>
    intro loop
    obtain ⟨w, step, rest⟩ := TransGen.head'_iff.mp loop
    exact ih w step (TransGen.tail' rest step)

theorem isChain_loop (edge : V -> V -> Prop) (path : List V) (chain : path.IsChain fun a b => edge b a)
    (closing : ∀ first, path.head? = some first -> ∀ last, path.getLast? = some last -> edge first last)
    (v : V) (mem : v ∈ path) : TransGen (Within (· ∈ path) edge) v v := by
  have nonempty := ne_nil_of_mem mem
  have inside : path.IsChain fun a b => Within (· ∈ path) edge b a :=
    chain.imp_of_mem_imp fun _ _ memberA memberB step => ⟨memberB, memberA, step⟩
  have toFirst : ReflTransGen (Within (· ∈ path) edge) v (path.head nonempty) :=
    inside.induction (fun w => ReflTransGen (Within (· ∈ path) edge) w (path.head nonempty)) path
      (fun _ _ step rest => .head step rest) (fun _ => .refl) v mem
  have fromLast : ReflTransGen (Within (· ∈ path) edge) (path.getLast nonempty) v :=
    inside.backwards_induction (fun w => ReflTransGen (Within (· ∈ path) edge) (path.getLast nonempty) w)
      path (fun _ _ step rest => .tail rest step) (fun _ => .refl) v mem
  have closed : Within (· ∈ path) edge (path.head nonempty) (path.getLast nonempty) :=
    ⟨head_mem nonempty, getLast_mem nonempty,
      closing _ (head?_eq_some_head nonempty) _ (getLast?_eq_some_getLast nonempty)⟩
  exact TransGen.trans_right toFirst (TransGen.trans_left (.single closed) fromLast)

open Classical in
theorem exists_weight [Fintype V] (edge : V -> V -> Prop) (least : Nat) :
    ∃ weight : V -> Nat, ∀ v, Acc (fun b a => edge a b) v ->
      weight v = least + ∑ w, if edge v w then weight w else 0 := by
  let below (b a : V) : Prop := edge a b ∧ Acc (fun b a => edge a b) a
  have wellFounded : WellFounded below := by
    refine ⟨fun v => ?_⟩
    by_cases acc : Acc (fun b a => edge a b) v
    · induction acc with
      | intro v _ ih => exact ⟨v, fun w step => ih w step.1⟩
    · exact ⟨v, fun w step => absurd step.2 acc⟩
  let weight := wellFounded.fix fun v smaller => least + ∑ w, if step : below w v then smaller w step else 0
  refine ⟨weight, fun v acc => ?_⟩
  have unfolded : weight v = least + ∑ w, if below w v then weight w else 0 := by
    simp only [weight]
    rw [WellFounded.fix_eq]
    simp
  rw [unfolded]
  simp [below, acc]

end Systemd.Cycles

namespace Systemd.Avoid

open Relation

variable {V : Type}

inductive Leads (next : V -> V -> Prop) (goal blocked : V -> Prop) : V -> Prop where
  | here {v : V} (free : ¬ blocked v) (found : goal v) : Leads next goal blocked v
  | step {v w : V} (free : ¬ blocked v) (edge : next v w) (rest : Leads next goal blocked w) :
      Leads next goal blocked v

variable {next : V -> V -> Prop} {goal blocked : V -> Prop}

variable {v : V}

theorem Leads.free (leads : Leads next goal blocked v) : ¬ blocked v := by
  cases leads with
  | here free _ => exact free
  | step free _ _ => exact free

theorem Leads.reaches (leads : Leads next goal blocked v) : ∃ w, ReflTransGen next v w ∧ goal w := by
  induction leads with
  | here _ found => exact ⟨_, .refl, found⟩
  | step _ edge _ ih =>
    obtain ⟨w, path, found⟩ := ih
    exact ⟨w, .head edge path, found⟩

theorem leads_of_reaches {w : V} (path : ReflTransGen next v w) (found : goal w)
    (free : ∀ x, ¬ blocked x) : Leads next goal blocked v := by
  induction path using ReflTransGen.head_induction_on with
  | refl => exact .here (free _) found
  | head edge _ ih => exact .step (free _) edge ih

theorem Leads.miss {w : V} (leads : Leads next goal blocked w) :
    Leads next goal (fun x => blocked x ∨ x = v) w ∨
      goal v ∨ ∃ x, next v x ∧ Leads next goal (fun x => blocked x ∨ x = v) x := by
  induction leads with
  | @here x free found =>
    by_cases same : x = v
    · exact .inr (.inl (same ▸ found))
    · exact .inl (.here (by simp [free, same]) found)
  | @step x y free edge _ ih =>
    rcases ih with missed | later
    · by_cases same : x = v
      · exact .inr (.inr ⟨y, same ▸ edge, missed⟩)
      · exact .inl (.step (by simp [free, same]) edge missed)
    · exact .inr later

theorem Leads.first (leads : Leads next goal blocked v) :
    goal v ∨ ∃ x, next v x ∧ Leads next goal (fun x => blocked x ∨ x = v) x := by
  rcases leads.miss (v := v) with missed | later
  · exact absurd (Or.inr rfl) missed.free
  · exact later

theorem Leads.widen {blocked' : V -> Prop} (leads : Leads next goal blocked v)
    (fewer : ∀ x, blocked' x -> blocked x) : Leads next goal blocked' v := by
  induction leads with
  | here free found => exact .here (fun inside => free (fewer _ inside)) found
  | step free edge _ ih => exact .step (fun inside => free (fewer _ inside)) edge ih

end Systemd.Avoid
