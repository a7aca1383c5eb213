import Systemd.Basic.PathNames
import Systemd.Units.Path

set_option autoImplicit false

namespace Systemd

open List

def Tidy : Bool -> List UInt8 -> Prop
  | flag, [] => flag = false
  | flag, byte :: rest => if byte = '/'.toUInt8 then flag = false ∧ Tidy true rest else Tidy false rest

theorem killSlashesLoop_tidy {flag : Bool} {rest : List UInt8} (tidy : Tidy flag rest)
    (written : List UInt8) :
    killSlashesLoop rest flag written =
      (written ++ (if flag then ['/'.toUInt8] else []) ++ rest, false) := by
  induction rest generalizing flag written with
  | nil =>
    have plain : flag = false := tidy
    simp [killSlashesLoop, plain]
  | cons byte rest ih =>
    rw [Tidy] at tidy
    rw [killSlashesLoop]
    split at tidy
    next here =>
      rw [if_pos here, ih tidy.2, tidy.1, here]
      simp
    next other =>
      rw [if_neg other]
      cases flag <;> simp [ih tidy]

variable (rest : List UInt8) (flag : Bool) (written : List UInt8)

theorem killSlashesLoop_output (grows : ∀ more, Tidy false more -> Tidy false (written ++ more)) :
    Tidy false (killSlashesLoop rest flag written).1 := by
  induction rest generalizing flag written with
  | nil => simpa [killSlashesLoop] using grows [] rfl
  | cons byte rest ih =>
    rw [killSlashesLoop]
    split
    next => exact ih true written grows
    next other =>
      cases flag with
      | true =>
        refine ih false _ fun more tidy => ?_
        have next : Tidy false (['/'.toUInt8] ++ [byte] ++ more) := by simpa [Tidy, other] using tidy
        simpa using grows _ next
      | false =>
        refine ih false _ fun more tidy => ?_
        have next : Tidy false ([byte] ++ more) := by simpa [Tidy, other] using tidy
        simpa using grows _ next

theorem pathKillSlashes_twice (path : List UInt8) :
    pathKillSlashes (pathKillSlashes path) = pathKillSlashes path := by
  have tidy := killSlashesLoop_output path false [] fun _ tidy => tidy
  unfold pathKillSlashes
  dsimp only
  split
  next => rfl
  next =>
    rw [killSlashesLoop_tidy tidy]
    simp

theorem killSlashesLoop_components :
    components (killSlashesLoop rest flag written).1 =
      components (written ++ (if flag then ['/'.toUInt8] else []) ++ rest) := by
  induction rest generalizing flag written with
  | nil =>
    cases flag with
    | true =>
      have ended := components_append written []
      simpa [killSlashesLoop, components] using ended.symm
    | false => simp [killSlashesLoop]
  | cons byte rest ih =>
    rw [killSlashesLoop]
    split
    next here =>
      rw [ih, here]
      cases flag with
      | true =>
        have double := components_append written ('/'.toUInt8 :: rest)
        have single := components_append written rest
        rw [components_slash] at double
        simpa using single.trans double.symm
      | false => simp
    next other => cases flag <;> simp [ih]

theorem components_pathKillSlashes (path : List UInt8) :
    components (pathKillSlashes path) = components path := by
  have same := killSlashesLoop_components path false []
  unfold pathKillSlashes
  dsimp only
  split
  next empty =>
    rw [empty.1] at same
    rw [components_slash]
    simpa using same
  next => simpa using same

variable {path a b : List UInt8}

theorem tidy_behind_name (tidy : Tidy false path) :
    (path.dropWhile fun byte => !slash.contains byte) = [] ∨
      ∃ more, (path.dropWhile fun byte => !slash.contains byte) = '/'.toUInt8 :: more ∧
        Tidy true more := by
  induction path with
  | nil => exact .inl rfl
  | cons byte rest ih =>
    rw [Tidy] at tidy
    by_cases here : byte = '/'.toUInt8
    next =>
      rw [if_pos here] at tidy
      rw [dropWhile_cons_of_neg (by simp [slash, here]), here]
      exact .inr ⟨rest, rfl, tidy.2⟩
    next =>
      rw [if_neg here] at tidy
      rw [dropWhile_cons_of_pos (by simpa [slash] using here)]
      exact ih tidy

theorem tidy_atName (tidy : Tidy true path) : AtName path ∧ path ≠ [] ∧ Tidy false path := by
  cases path with
  | nil => simp [Tidy] at tidy
  | cons byte rest =>
    rw [Tidy] at tidy
    split at tidy
    next => simp at tidy
    next other => exact ⟨by simpa [AtName] using other, by simp, by rw [Tidy, if_neg other]; exact tidy⟩

theorem tidy_intercalate (tidy : Tidy true path) : List.intercalate slash (components path) = path := by
  induction size : path.length using Nat.strong_induction_on generalizing path with
  | _ n ih =>
    obtain ⟨atName, full, plain⟩ := tidy_atName tidy
    have whole := takeWhile_append_dropWhile (p := fun byte => !slash.contains byte) (l := path)
    have shorter := drop_name_shorter atName full
    rw [components_name atName full]
    rcases tidy_behind_name plain with last | ⟨more, next, tidy⟩
    next =>
      rw [last, append_nil] at whole
      rw [last, whole]
      simp [components, List.intercalate]
    next =>
      rw [next, length_cons] at shorter
      have names := ih more.length (by omega) tidy rfl
      have some : components more ≠ [] := by
        intro none
        rw [none] at names
        exact (tidy_atName tidy).2.1 names.symm
      rw [next] at whole
      rw [next, components_slash, intercalate_cons_of_ne_nil some, names]
      simpa [slash] using whole

theorem killSlashesLoop_head (some : written ≠ []) :
    (killSlashesLoop rest flag written).1.head? = written.head? := by
  have kept := killSlashesLoop_written rest flag written
  rw [kept, head?_append_of_ne_nil _ some]

theorem killSlashesLoop_pending :
    killSlashesLoop rest true [] = ([], true) ∨
      (killSlashesLoop rest true []).1.head? = some '/'.toUInt8 := by
  induction rest with
  | nil => exact .inl rfl
  | cons byte rest ih =>
    rw [killSlashesLoop]
    split
    next => exact ih
    next => exact .inr (killSlashesLoop_head rest false _ (by simp))

theorem pathIsAbsolute_pathKillSlashes (path : List UInt8) :
    pathIsAbsolute (pathKillSlashes path) = pathIsAbsolute path := by
  unfold pathKillSlashes
  cases path with
  | nil => rfl
  | cons byte rest =>
    dsimp only
    rw [killSlashesLoop]
    split
    next here =>
      rcases killSlashesLoop_pending rest with nothing | slash
      next => simp [nothing, here, pathIsAbsolute]
      next =>
        have some : (killSlashesLoop rest true []).1 ≠ [] := by
          intro none
          simp [none] at slash
        simp [some, slash, here, pathIsAbsolute]
    next other =>
      have head := killSlashesLoop_head rest false [byte] (by simp)
      have some : (killSlashesLoop rest false [byte]).1 ≠ [] := by
        intro none
        simp [none] at head
      simp [some, head, pathIsAbsolute]

theorem tidy_normal (tidy : Tidy false path) :
    path = (if pathIsAbsolute path then slash else []) ++ List.intercalate slash (components path) := by
  cases path with
  | nil => rfl
  | cons byte rest =>
    by_cases here : byte = '/'.toUInt8
    next =>
      rw [Tidy, if_pos here] at tidy
      rw [here, components_slash, tidy_intercalate tidy.2]
      rfl
    next =>
      have names : Tidy true (byte :: rest) := by
        rw [Tidy, if_neg here] at tidy ⊢
        exact tidy
      rw [tidy_intercalate names]
      simp [pathIsAbsolute, here]

theorem pathKillSlashes_normal (path : List UInt8) :
    pathKillSlashes path =
      (if pathIsAbsolute path then slash else []) ++ List.intercalate slash (components path) := by
  have absolute := pathIsAbsolute_pathKillSlashes path
  have names := components_pathKillSlashes path
  have tidy := killSlashesLoop_output path false [] fun _ tidy => tidy
  by_cases root : (killSlashesLoop path false []).1 = [] ∧ (killSlashesLoop path false []).2 = true
  next =>
    have same : pathKillSlashes path = ['/'.toUInt8] := if_pos root
    rw [same] at absolute names
    rw [same, ← absolute, ← names]
    rfl
  next =>
    have same : pathKillSlashes path = (killSlashesLoop path false []).1 := if_neg root
    rw [← same] at tidy
    rw [← absolute, ← names]
    exact tidy_normal tidy

theorem pathEqual_absolute (equal : pathEqual a b = true) : pathIsAbsolute a = pathIsAbsolute b := by
  by_contra other
  rw [pathEqual, if_pos other] at equal
  cases equal

theorem pathStartswith_absolute {start : List UInt8} (starts : pathStartswith path start = true) :
    pathIsAbsolute path = pathIsAbsolute start := by
  by_contra other
  rw [pathStartswith, if_pos other] at starts
  cases starts

theorem pathEqual_iff_killed (a b : List UInt8) :
    pathEqual a b = true ↔ pathKillSlashes a = pathKillSlashes b := by
  constructor
  next =>
    intro equal
    have absolute := pathEqual_absolute equal
    rw [pathKillSlashes_normal, pathKillSlashes_normal, absolute, (pathEqual_iff absolute).mp equal]
  next =>
    intro same
    have absolute : pathIsAbsolute a = pathIsAbsolute b := by
      rw [← pathIsAbsolute_pathKillSlashes a, same, pathIsAbsolute_pathKillSlashes]
    rw [pathEqual_iff absolute, ← components_pathKillSlashes a, same, components_pathKillSlashes]

theorem pathStartswith_refl (path : List UInt8) : pathStartswith path path = true :=
  (pathStartswith_iff rfl).mpr prefix_rfl

theorem pathStartswith_trans {c : List UInt8} (first : pathStartswith a b = true)
    (second : pathStartswith b c = true) : pathStartswith a c = true := by
  have absoluteA := pathStartswith_absolute first
  have absoluteB := pathStartswith_absolute second
  have front := (pathStartswith_iff absoluteB).mp second
  exact (pathStartswith_iff (absoluteA.trans absoluteB)).mpr
    (front.trans ((pathStartswith_iff absoluteA).mp first))

theorem pathStartswith_antisymm (a b : List UInt8) :
    pathStartswith a b = true ∧ pathStartswith b a = true ↔ pathEqual a b = true := by
  constructor
  next =>
    rintro ⟨first, second⟩
    have absolute := pathStartswith_absolute first
    have front := (pathStartswith_iff absolute).mp first
    have back := (pathStartswith_iff absolute.symm).mp second
    exact (pathEqual_iff absolute).mpr (back.eq_of_length (front.length_le.antisymm back.length_le).symm)
  next =>
    intro equal
    have absolute := pathEqual_absolute equal
    have same := (pathEqual_iff absolute).mp equal
    rw [pathStartswith_iff absolute, pathStartswith_iff absolute.symm, same]
    exact ⟨prefix_rfl, prefix_rfl⟩

/-- Comparing paths is comparing their normal forms. -/
theorem paths_normal (a b : CString) :
    (pathEqual a.bytes b.bytes = true ↔ pathKillSlashes a.bytes = pathKillSlashes b.bytes) ∧
      pathKillSlashes (pathKillSlashes a.bytes) = pathKillSlashes a.bytes ∧
      pathStartswith a.bytes a.bytes = true ∧
      (∀ c : CString, pathStartswith a.bytes b.bytes = true -> pathStartswith b.bytes c.bytes = true ->
        pathStartswith a.bytes c.bytes = true) ∧
      (pathStartswith a.bytes b.bytes = true ∧ pathStartswith b.bytes a.bytes = true ↔
        pathEqual a.bytes b.bytes = true) := by
  exact ⟨pathEqual_iff_killed _ _, pathKillSlashes_twice _, pathStartswith_refl _,
    fun c first second => pathStartswith_trans first second, pathStartswith_antisymm _ _⟩

end Systemd
