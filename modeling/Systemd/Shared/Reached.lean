set_option autoImplicit false

namespace Systemd.Steps

open Option

variable {S A : Type} {start : S} {take : A -> S -> Option S} {allowed : A -> S -> Prop}

/-- The states that steps lead to, where each step is allowed in the state it is taken in. -/
inductive Reached (start : S) (take : A -> S -> Option S) (allowed : A -> S -> Prop) : S -> Prop where
  | start : Reached start take allowed start
  | step (action : A) (state next : S) : Reached start take allowed state -> allowed action state ->
      take action state = some next -> Reached start take allowed next

variable {state : S} {actions : List A} {Allowed : A -> S -> Prop}

theorem Reached.invariant (Inv : S -> Prop) (initial : Inv start) (kept : ∀ action state next, Inv state
      -> allowed action state -> take action state = some next -> Inv next)
    (reached : Reached start take allowed state) : Inv state := by
  induction reached with
  | start => exact initial
  | step action state next _ permitted taken ih => exact kept action state next ih permitted taken

def Throughout (take : A -> S -> Option S) (Holds : S -> Prop) : List A -> S -> Prop
  | [], state => Holds state
  | action :: rest, state =>
    Holds state ∧ ∀ next, take action state = some next -> Throughout take Holds rest next

def EachStep (take : A -> S -> Option S) (Allowed : A -> S -> Prop) : List A -> S -> Prop
  | [], _ => True
  | action :: rest, state =>
    ∀ next, take action state = some next -> Allowed action state ∧ EachStep take Allowed rest next

theorem Reached.run {last : S} (reached : Reached start take allowed state)
    (each : EachStep take allowed actions state)
    (ran : actions.foldlM (fun state action => take action state) state = some last) :
    Reached start take allowed last := by
  induction actions generalizing state with
  | nil => exact some.inj ran ▸ reached
  | cons action rest ih =>
    rw [List.foldlM_cons] at ran
    obtain ⟨next, taken, ran⟩ := bind_eq_some_iff.mp ran
    obtain ⟨permitted, later⟩ := each next taken
    exact ih (reached.step action state next permitted taken) later ran

theorem Reached.of_run {P : S -> Bool} (each : EachStep take allowed actions start)
    (ends : (actions.foldlM (fun state action => take action state) start).any P = true) :
    ∃ last, Reached start take allowed last ∧ P last = true := by
  obtain ⟨last, ran, facts⟩ := (any_eq_true _ _).mp ends
  exact ⟨last, Reached.start.run each ran, facts⟩

def checked (take : A -> S -> Option S) (check : A -> S -> S -> Bool) : List A -> S -> Bool
  | [], _ => true
  | action :: rest, state =>
    match take action state with
    | none => true
    | some next => check action state next && checked take check rest next

theorem EachStep.of_checked {c : A -> S -> S -> Bool} (sound : ∀ action state next, take action state =
      some next -> c action state next = true -> Allowed action state)
    (passes : checked take c actions state = true) : EachStep take Allowed actions state := by
  induction actions generalizing state with
  | nil => trivial
  | cons action rest ih =>
    intro next taken
    simp only [checked, taken, Bool.and_eq_true] at passes
    exact ⟨sound action state next taken passes.1, ih passes.2⟩

theorem EachStep.always (actions : List A) (state : S) :
    EachStep take (fun _ _ => True) actions state := by
  induction actions generalizing state with
  | nil => trivial
  | cons _ _ ih => exact fun next _ => ⟨trivial, ih next⟩

theorem EachStep.strengthen {Inv : S -> Prop} (kept : ∀ action state next, Inv state -> allowed action
      state -> take action state = some next -> Inv next)
    (sound : ∀ action state, Inv state -> allowed action state -> Allowed action state)
    (initial : Inv state) (each : EachStep take allowed actions state) :
    EachStep take Allowed actions state := by
  induction actions generalizing state with
  | nil => trivial
  | cons action rest ih =>
    intro next taken
    obtain ⟨permitted, later⟩ := each next taken
    exact ⟨sound action state initial permitted,
      ih (kept action state next initial permitted taken) later⟩

theorem Throughout.last {Holds : S -> Prop} {last : S} (throughout : Throughout take Holds actions state)
    (ran : actions.foldlM (fun state action => take action state) state = some last) : Holds last := by
  induction actions generalizing state with
  | nil => exact some.inj ran ▸ throughout
  | cons action rest ih =>
    rw [List.foldlM_cons] at ran
    obtain ⟨next, taken, ran⟩ := bind_eq_some_iff.mp ran
    exact ih (throughout.2 next taken) ran

theorem throughout_iff {Inv Holds : S -> Prop} (holds : ∀ state, Inv state -> Holds state) (kept : ∀
      action state next, Inv state -> take action state = some next -> allowed action state -> Inv next)
      (exact : ∀ action state next, Inv state -> take action state = some next -> Holds next -> allowed
      action state) (run : List A) (initial : Inv start) :
    Throughout take Holds run start ↔ EachStep take allowed run start := by
  induction run generalizing start with
  | nil => simpa [Throughout, EachStep] using holds start initial
  | cons action rest ih =>
    constructor
    next =>
      intro throughout next taken
      have later := throughout.2 next taken
      have holding : Holds next := by
        cases rest with
        | nil => exact later
        | cons _ _ => exact later.1
      have permitted := exact action start next initial taken holding
      exact ⟨permitted, (ih (kept action start next initial taken permitted)).mp later⟩
    next =>
      intro each
      refine ⟨holds start initial, fun next taken => ?_⟩
      obtain ⟨permitted, later⟩ := each next taken
      exact (ih (kept action start next initial taken permitted)).mpr later

end Systemd.Steps
