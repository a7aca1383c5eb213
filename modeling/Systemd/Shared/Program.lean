set_option autoImplicit false

namespace Systemd

open Option

def Program (S E A : Type) := S -> Option (Except E A × S)

namespace Program

variable {S E A B : Type}

def abort : Program S E A := fun _ => none

def fail (e : E) : Program S E A := fun s => some (.error e, s)

def read : Program S E S := fun s => some (.ok s, s)

def change (f : S -> S) : Program S E Unit := fun s => some (.ok (), f s)

def attempt (p : Program S E A) : Program S E (Except E A) :=
  fun s => (p s).map fun ended => (.ok ended.1, ended.2)

instance : Monad (Program S E) where
  pure a := fun s => some (.ok a, s)
  bind p f := fun s =>
    match p s with
    | none => none
    | some (.error e, s') => some (.error e, s')
    | some (.ok a, s') => f a s'

def forEach : List A -> (A -> Program S E Unit) -> Program S E Unit
  | [], _ => pure ()
  | a :: rest, f => do
    f a
    forEach rest f

def untilFails : List A -> (A -> Program S E Unit) -> Program S E Unit
  | [], _ => pure ()
  | a :: rest, f => do
    match ← attempt (f a) with
    | .ok () => untilFails rest f
    | .error _ => pure ()

section

variable {p : Program S E A} {f : A -> Program S E B} {s s' : S}

variable {r : Except E A}

theorem pure_eq_some {a : A} : (pure a : Program S E A) s = some (r, s') ↔ r = .ok a ∧ s' = s := by
  simp only [pure, some.injEq, Prod.mk.injEq]
  constructor <;> exact fun both => ⟨both.1.symm, both.2.symm⟩

theorem fail_eq_some {e : E} : (fail e : Program S E A) s = some (r, s') ↔ r = .error e ∧ s' = s := by
  simp only [fail, some.injEq, Prod.mk.injEq]
  constructor <;> exact fun both => ⟨both.1.symm, both.2.symm⟩

theorem read_eq_some {r : Except E S} :
    (read : Program S E S) s = some (r, s') ↔ r = .ok s ∧ s' = s := by
  simp only [read, some.injEq, Prod.mk.injEq]
  constructor <;> exact fun both => ⟨both.1.symm, both.2.symm⟩

theorem change_eq_some {g : S -> S} {r : Except E Unit} :
    (change g : Program S E Unit) s = some (r, s') ↔ r = .ok () ∧ s' = g s := by
  simp only [change, some.injEq, Prod.mk.injEq]
  constructor <;> exact fun both => ⟨both.1.symm, both.2.symm⟩

theorem attempt_eq_some {r : Except E (Except E A)} :
    attempt p s = some (r, s') ↔ ∃ inner, r = .ok inner ∧ p s = some (inner, s') := by
  rw [attempt, map_eq_some_iff]
  constructor
  · rintro ⟨⟨inner, last⟩, ran, same⟩
    simp only [Prod.mk.injEq] at same
    exact ⟨inner, same.1.symm, same.2 ▸ ran⟩
  · rintro ⟨inner, rfl, ran⟩
    exact ⟨(inner, s'), ran, rfl⟩

variable {r : Except E B}

theorem bind_eq_some :
    (p >>= f) s = some (r, s') ↔
      (∃ e, p s = some (.error e, s') ∧ r = .error e) ∨
        ∃ a middle, p s = some (.ok a, middle) ∧ f a middle = some (r, s') := by
  change (match p s with
    | none => none
    | some (.error e, s') => some (.error e, s')
    | some (.ok a, s') => f a s') = some (r, s') ↔ _
  constructor
  · intro run
    split at run
    · cases run
    · rename_i e middle stops
      cases run
      exact .inl ⟨e, stops, rfl⟩
    · rename_i a middle first
      exact .inr ⟨a, middle, first, run⟩
  · rintro (⟨e, stops, rfl⟩ | ⟨a, middle, first, later⟩)
    · rw [stops]
    · rw [first]
      exact later

theorem bind_of_ok {a : A} (run : p s = some (.ok a, s')) : (p >>= f) s = f a s' := by
  change (match p s with
    | none => none
    | some (.error e, s') => some (.error e, s')
    | some (.ok a, s') => f a s' : Option (Except E B × S)) = _
  rw [run]

theorem read_bind (f : S -> Program S E B) : (read >>= f) s = f s s := rfl

theorem change_bind (g : S -> S) (f : Unit -> Program S E B) : (change g >>= f) s = f () (g s) := rfl

theorem map_bind {O : Type} {o : Option O} {a : O -> A} {g : O -> S}
    (ends : p s = o.map fun x => (.ok (a x), g x)) :
    (p >>= f) s = some (r, s') ↔ ∃ x, o = some x ∧ f (a x) (g x) = some (r, s') := by
  rw [bind_eq_some, ends]
  cases o with
  | none => simp
  | some x =>
    constructor
    · rintro (⟨e, wrong, -⟩ | ⟨value, middle, first, later⟩)
      · cases wrong
      · cases first
        exact ⟨x, rfl, later⟩
    · rintro ⟨y, same, later⟩
      cases same
      exact .inr ⟨_, _, rfl, later⟩

theorem attempt_bind {f : Except E A -> Program S E B} :
    (attempt p >>= f) s = some (r, s') ↔
      ∃ inner middle, p s = some (inner, middle) ∧ f inner middle = some (r, s') := by
  rw [bind_eq_some]
  constructor
  · rintro (⟨e, stops, -⟩ | ⟨inner, middle, first, later⟩)
    · obtain ⟨inner, wrong, -⟩ := attempt_eq_some.mp stops
      cases wrong
    · obtain ⟨same, here, ran⟩ := attempt_eq_some.mp first
      cases here
      exact ⟨inner, middle, ran, later⟩
  · rintro ⟨inner, middle, first, later⟩
    exact .inr ⟨inner, middle, attempt_eq_some.mpr ⟨inner, rfl, first⟩, later⟩

end

/-- If the program starts in a state with the first property and is not cut off, then the result and
the last state have the second one. -/
def Triple (P : S -> Prop) (p : Program S E A) (Q : Except E A -> S -> Prop) : Prop :=
  ∀ s r s', P s -> p s = some (r, s') -> Q r s'

def onOk (M : A -> S -> Prop) (Q : Except E B -> S -> Prop) : Except E A -> S -> Prop
  | .ok a => M a
  | .error e => Q (.error e)

namespace Triple

variable {P P' : S -> Prop} {p : Program S E A} {f : A -> Program S E B} {Q Q' : Except E A -> S -> Prop}

theorem consequence (given : Triple P p Q) (before : ∀ s, P' s -> P s)
    (after : ∀ r s, Q r s -> Q' r s) : Triple P' p Q' :=
  fun s r s' holds ran => after r s' (given s r s' (before s holds) ran)

theorem either (left : Triple P p Q) (right : Triple P' p Q) : Triple (fun s => P s ∨ P' s) p Q := by
  rintro s r s' (first | second) ran
  · exact left s r s' first ran
  · exact right s r s' second ran

theorem pure {a : A} (given : ∀ s, P s -> Q (.ok a) s) : Triple P (pure a) Q := by
  intro s r s' holds ran
  obtain ⟨rfl, rfl⟩ := pure_eq_some.mp ran
  exact given s' holds

theorem fail {e : E} (given : ∀ s, P s -> Q (.error e) s) : Triple P (Program.fail e) Q := by
  intro s r s' holds ran
  obtain ⟨rfl, rfl⟩ := fail_eq_some.mp ran
  exact given s' holds

theorem abort : Triple P Program.abort Q := by
  intro s r s' _ ran
  cases ran

theorem change {g : S -> S} {Q : Except E Unit -> S -> Prop} (given : ∀ s, P s -> Q (.ok ()) (g s)) :
    Triple P (Program.change g) Q := by
  intro s r s' holds ran
  obtain ⟨rfl, rfl⟩ := change_eq_some.mp ran
  exact given s holds

variable {Q : Except E B -> S -> Prop}

theorem bind {M : A -> S -> Prop} (first : Triple P p (onOk M Q)) (second : ∀ a, Triple (M a) (f a) Q) :
    Triple P (p >>= f) Q := by
  intro s r s' holds ran
  rcases bind_eq_some.mp ran with ⟨e, stops, rfl⟩ | ⟨a, middle, here, later⟩
  · exact first s _ s' holds stops
  · exact second a middle r s' (first s _ middle holds here) later

theorem read {f : S -> Program S E B} (given : ∀ s, P s -> Triple (fun now => now = s ∧ P now) (f s) Q) :
    Triple P (Program.read >>= f) Q := by
  intro s r s' holds ran
  rcases bind_eq_some.mp ran with ⟨e, stops, -⟩ | ⟨a, middle, here, later⟩
  · cases stops
  · obtain ⟨same, rfl⟩ := read_eq_some.mp here
    cases same
    exact given _ holds _ r s' ⟨rfl, holds⟩ later

theorem attempt {Q : Except E (Except E A) -> S -> Prop}
    (given : Triple P p fun r s => Q (.ok r) s) : Triple P (attempt p) Q := by
  intro s r s' holds ran
  obtain ⟨inner, rfl, ended⟩ := attempt_eq_some.mp ran
  exact given s inner s' holds ended

end Triple

def Keeps (P : S -> Prop) (p : Program S E A) : Prop :=
  Triple P p fun _ => P

namespace Keeps

variable {P : S -> Prop} {p : Program S E A} {f : A -> Program S E B}

theorem pure (a : A) : Keeps P (pure a : Program S E A) := Triple.pure fun _ holds => holds

theorem fail (e : E) : Keeps P (Program.fail e : Program S E A) := Triple.fail fun _ holds => holds

theorem abort : Keeps P (Program.abort : Program S E A) := Triple.abort

theorem attempt (first : Keeps P p) : Keeps P (attempt p) := Triple.attempt first

theorem bind (first : Keeps P p) (second : ∀ a, Keeps P (f a)) : Keeps P (p >>= f) := by
  refine Triple.bind (M := fun _ => P) ?_ second
  refine first.consequence (fun _ holds => holds) ?_
  intro r s holds
  cases r <;> exact holds

theorem read {f : S -> Program S E B} (given : ∀ s, Keeps P (f s)) : Keeps P (Program.read >>= f) :=
  Triple.read fun s _ => (given s).consequence (fun _ both => both.2) fun _ _ holds => holds

theorem forEach {values : List A} {f : A -> Program S E Unit} (turn : ∀ a ∈ values, Keeps P (f a)) :
    Keeps P (Program.forEach values f) := by
  induction values with
  | nil => exact pure ()
  | cons a rest ih =>
    rw [List.forall_mem_cons] at turn
    exact bind turn.1 fun _ => ih turn.2

end Keeps

variable {P : S -> Prop}

def Passes (P : S -> Prop) (p : Program S E A) : Prop :=
  Triple P p fun r s => (∃ a, r = .ok a) ∧ P s

namespace Passes

variable {P : S -> Prop} {p : Program S E A} {f : A -> Program S E B}

theorem pure (a : A) : Passes P (pure a : Program S E A) := Triple.pure fun _ holds => ⟨⟨a, rfl⟩, holds⟩

theorem attempt (first : Keeps P p) : Passes P (attempt p) :=
  Triple.attempt fun s r s' holds ran => ⟨⟨r, rfl⟩, first s r s' holds ran⟩

theorem followed {Q : Except E B -> S -> Prop} (first : Passes P p) (later : ∀ a, Triple P (f a) Q) :
    Triple P (p >>= f) Q := by
  refine .bind (M := fun _ => P) ?_ later
  refine first.consequence (fun _ holds => holds) ?_
  rintro _ s ⟨⟨a, rfl⟩, holds⟩
  exact holds

theorem bind (first : Passes P p) (second : ∀ a, Passes P (f a)) : Passes P (p >>= f) :=
  first.followed second

theorem read {f : S -> Program S E B} (given : ∀ s, Passes P (f s)) : Passes P (Program.read >>= f) :=
  Triple.read fun s _ => (given s).consequence (fun _ both => both.2) fun _ _ passed => passed

variable {f : A -> Program S E Unit}

theorem forEach {values : List A} (turn : ∀ a ∈ values, Passes P (f a)) :
    Passes P (Program.forEach values f) := by
  induction values with
  | nil => exact pure ()
  | cons a rest ih =>
    rw [List.forall_mem_cons] at turn
    exact bind turn.1 fun _ => ih turn.2

theorem untilFails {values : List A} (turn : ∀ a ∈ values, Keeps P (f a)) :
    Passes P (Program.untilFails values f) := by
  induction values with
  | nil => exact pure ()
  | cons a rest ih =>
    rw [List.forall_mem_cons] at turn
    refine bind (attempt turn.1) fun outcome => ?_
    cases outcome with
    | ok _ => exact ih turn.2
    | error _ => exact pure ()

theorem keeps (passes : Passes P p) : Keeps P p :=
  passes.consequence (fun _ holds => holds) fun _ _ passed => passed.2

end Passes

theorem Keeps.untilFails {values : List A} {f : A -> Program S E Unit}
    (turn : ∀ a ∈ values, Keeps P (f a)) : Keeps P (Program.untilFails values f) :=
  (Passes.untilFails turn).keeps

end Program

end Systemd

namespace Systemd.Program

variable {S E A B : Type}

def ofResult : Except E A -> Program S E A
  | .ok a => pure a
  | .error e => fail e

/-- A program that depends on its fuel. From this much fuel on it is not cut off, and more fuel makes no
difference. -/
def Settles (P : S -> Prop) (enough : Nat) (p : Nat -> Program S E A) : Prop :=
  ∀ s, P s -> ∃ r s', P s' ∧ ∀ fuel, enough ≤ fuel -> p fuel s = some (r, s')

namespace Settles

variable {P : S -> Prop} {enough : Nat} {p : Nat -> Program S E A} {f : Nat -> A -> Program S E B}

theorem pure (a : A) : Settles P enough fun _ => (pure a : Program S E A) :=
  fun s holds => ⟨.ok a, s, holds, fun _ _ => rfl⟩

theorem fail (e : E) : Settles P enough fun _ => (Program.fail e : Program S E A) :=
  fun s holds => ⟨.error e, s, holds, fun _ _ => rfl⟩

theorem bind (first : Settles P enough p) (second : ∀ a, Settles P enough fun fuel => f fuel a) :
    Settles P enough fun fuel => p fuel >>= f fuel := by
  intro s holds
  obtain ⟨r, middle, held, run⟩ := first s holds
  cases r with
  | error e =>
    exact ⟨.error e, middle, held, fun fuel more => bind_eq_some.mpr (.inl ⟨e, run fuel more, rfl⟩)⟩
  | ok a =>
    obtain ⟨r, s', held', run'⟩ := second a middle held
    refine ⟨r, s', held', fun fuel more => ?_⟩
    change (p fuel >>= f fuel) s = some (r, s')
    rw [bind_of_ok (run fuel more)]
    exact run' fuel more

theorem bracket {Q : S -> Prop} {A' : Type} {opens : Program S E A'} {body : Nat -> A' -> Program S E A}
    {closes : S -> S}
    (opened : ∀ s, P s -> (∃ e s', P s' ∧ opens s = some (.error e, s')) ∨
      ∃ a s', Q s' ∧ opens s = some (.ok a, s'))
    (inside : ∀ a, Settles Q enough fun fuel => body fuel a) (closed : ∀ s, Q s -> P (closes s)) :
    Settles P enough fun fuel => (do
      let a ← opens
      let result ← attempt (body fuel a)
      Program.change closes
      ofResult result) := by
  intro s holds
  rcases opened s holds with ⟨e, s', held, run⟩ | ⟨a, middle, held, run⟩
  · exact ⟨.error e, s', held, fun fuel _ => bind_eq_some.mpr (.inl ⟨e, run, rfl⟩)⟩
  · obtain ⟨r, s', held', run'⟩ := inside a middle held
    refine ⟨r, closes s', closed s' held', fun fuel more => ?_⟩
    refine (bind_of_ok run).trans (attempt_bind.mpr ⟨r, s', run' fuel more, ?_⟩)
    rw [change_bind]
    cases r with
    | ok value => rfl
    | error e => rfl

theorem succ {q : Nat -> Program S E A} (given : Settles P enough p) (step : ∀ fuel, q (fuel + 1) = p fuel) :
    Settles P (enough + 1) q := by
  intro s holds
  obtain ⟨r, s', held, run⟩ := given s holds
  refine ⟨r, s', held, fun fuel more => ?_⟩
  obtain ⟨less, rfl⟩ := Nat.exists_eq_add_of_le' (show 1 ≤ fuel by omega)
  rw [step, run less (by omega)]

end Settles

end Systemd.Program
