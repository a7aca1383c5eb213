import Mathlib.Data.List.Basic
import Mathlib.Data.List.TakeWhile
import Systemd.Basic.CString

set_option autoImplicit false

namespace Systemd

open List

def strspn (bytes accept : List UInt8) : Nat :=
  (bytes.takeWhile accept.contains).length

def strcspn (bytes reject : List UInt8) : Nat :=
  (bytes.takeWhile fun byte => !reject.contains byte).length

theorem take_length_takeWhile (test : UInt8 -> Bool) (bytes : List UInt8) :
    bytes.take (bytes.takeWhile test).length = bytes.takeWhile test :=
  (prefix_iff_eq_take.mp (List.takeWhile_prefix test)).symm

theorem drop_length_takeWhile (test : UInt8 -> Bool) (bytes : List UInt8) :
    bytes.drop (bytes.takeWhile test).length = bytes.dropWhile test := by
  have halves := take_append_drop (bytes.takeWhile test).length bytes
  rw [take_length_takeWhile] at halves
  exact append_cancel_left (halves.trans takeWhile_append_dropWhile.symm)

def slash : List UInt8 := ['/'.toUInt8]

def pathIsAbsolute (path : List UInt8) : Bool :=
  path.head? == some '/'.toUInt8

def pathStartswithLoop : Nat -> List UInt8 -> List UInt8 -> Bool
  | 0, _, _ => false
  | fuel + 1, path, start =>
    let path := path.drop (strspn path slash)
    let start := start.drop (strspn start slash)
    if start = [] then
      true
    else if path = [] then
      false
    else
      let a := strcspn path slash
      let b := strcspn start slash
      if a ≠ b then
        false
      else if path.take a ≠ start.take a then
        false
      else
        pathStartswithLoop fuel (path.drop a) (start.drop b)

def pathStartswith (path start : List UInt8) : Bool :=
  if pathIsAbsolute path ≠ pathIsAbsolute start then
    false
  else
    pathStartswithLoop (path.length + 1) path start

def pathEqualLoop : Nat -> List UInt8 -> List UInt8 -> Bool
  | 0, _, _ => false
  | fuel + 1, a, b =>
    let a := a.drop (strspn a slash)
    let b := b.drop (strspn b slash)
    if a = [] ∧ b = [] then
      true
    else if a = [] ∨ b = [] then
      false
    else
      let j := strcspn a slash
      let k := strcspn b slash
      if j ≠ k then
        false
      else if a.take j ≠ b.take j then
        false
      else
        pathEqualLoop fuel (a.drop j) (b.drop k)

def pathEqual (a b : List UInt8) : Bool :=
  if pathIsAbsolute a ≠ pathIsAbsolute b then
    false
  else
    pathEqualLoop (a.length + 1) a b

def components (path : List UInt8) : List (List UInt8) :=
  (path.splitOnP slash.contains).filter (· ≠ [])

theorem components_slash (rest : List UInt8) : components ('/'.toUInt8 :: rest) = components rest := by
  simp [components, splitOnP_cons_eq_if_modifyHead, slash]

variable (path : List UInt8)

theorem components_skip : components (path.dropWhile slash.contains) = components path := by
  induction path with
  | nil => rfl
  | cons byte rest ih =>
    by_cases here : byte = '/'.toUInt8
    · rw [here, components_slash, dropWhile_cons_of_pos (by simp [slash]), ih]
    · rw [dropWhile_cons_of_neg (by simpa [slash] using here)]

theorem components_append (front back : List UInt8) :
    components (front ++ '/'.toUInt8 :: back) = components front ++ components back := by
  rw [components, splitOnP_append_cons _ _ (by simp [slash]), filter_append]
  rfl

theorem components_single {name : List UInt8} (named : name ≠ []) (plain : '/'.toUInt8 ∉ name) :
    components name = [name] := by
  have single : name.splitOnP slash.contains = [name] := by
    apply splitOnP_eq_singleton
    intro byte mem
    have other : byte ≠ '/'.toUInt8 := fun same => plain (same ▸ mem)
    simpa [slash] using other
  simp [components, single, named]

def dot : List UInt8 := ['.'.toUInt8]

def dotDot : List UInt8 := ['.'.toUInt8, '.'.toUInt8]

-- The way of the file system from one directory to the next, where there are no symlinks.
def resolveStep (directory : List (List UInt8)) (name : List UInt8) : List (List UInt8) :=
  if name = dot then
    directory
  else if name = dotDot then
    directory.dropLast
  else
    directory ++ [name]

def resolve (path : List UInt8) : List (List UInt8) :=
  (components path).foldl resolveStep []

def AtName (path : List UInt8) : Prop :=
  path.head? ≠ some '/'.toUInt8

theorem atName_skip : AtName (path.dropWhile slash.contains) := by
  intro head
  induction path with
  | nil => simp at head
  | cons byte rest ih =>
    by_cases here : byte = '/'.toUInt8
    · rw [dropWhile_cons_of_pos (by simp [slash, here])] at head
      exact ih head
    · rw [dropWhile_cons_of_neg (by simpa [slash] using here)] at head
      exact here (by simpa using head)

section

variable {path : List UInt8} (atName : AtName path) (full : path ≠ [])

include atName full

theorem name_ne_nil : path.takeWhile (fun byte => !slash.contains byte) ≠ [] := by
  obtain ⟨byte, rest, rfl⟩ := exists_cons_of_ne_nil full
  have other : byte ≠ '/'.toUInt8 := by simpa [AtName] using atName
  rw [takeWhile_cons_of_pos (by simpa [slash] using other)]
  exact cons_ne_nil _ _

theorem components_name :
    components path =
      path.takeWhile (fun byte => !slash.contains byte) ::
        components (path.dropWhile fun byte => !slash.contains byte) := by
  have named := name_ne_nil atName full
  have plain : ∀ byte ∈ path.takeWhile (fun byte => !slash.contains byte), slash.contains byte = false := by
    intro byte mem
    simpa using mem_takeWhile_imp mem
  have stops := head?_dropWhile_not (fun byte => !slash.contains byte) path
  have whole := takeWhile_append_dropWhile (p := fun byte => !slash.contains byte) (l := path)
  generalize path.takeWhile (fun byte => !slash.contains byte) = name at *
  generalize path.dropWhile (fun byte => !slash.contains byte) = rest at *
  rw [← whole]
  cases rest with
  | nil => simp [components, splitOnP_eq_singleton plain, named]
  | cons byte rest =>
    have here : slash.contains byte := by simpa using stops
    have same : byte = '/'.toUInt8 := by simpa [slash] using here
    rw [components, splitOnP_append_cons _ _ here, splitOnP_eq_singleton plain, same, components_slash]
    simp [components, named]

theorem drop_name_shorter : (path.dropWhile fun byte => !slash.contains byte).length < path.length := by
  have named := length_pos_of_ne_nil (name_ne_nil atName full)
  have whole := takeWhile_append_dropWhile (p := fun byte => !slash.contains byte) (l := path)
  have size := congrArg List.length whole
  rw [length_append] at size
  omega

end

theorem names_equal {first second : List UInt8} :
    first.takeWhile (fun byte => !slash.contains byte) = second.takeWhile (fun byte => !slash.contains byte) ↔
      strcspn first slash = strcspn second slash ∧
        first.take (strcspn first slash) = second.take (strcspn first slash) := by
  constructor
  · intro same
    have size : strcspn first slash = strcspn second slash := by rw [strcspn, strcspn, same]
    refine ⟨size, ?_⟩
    conv_rhs => rw [size]
    rw [strcspn, strcspn, take_length_takeWhile, take_length_takeWhile, same]
  · rintro ⟨size, same⟩
    conv_rhs at same => rw [size]
    rwa [strcspn, strcspn, take_length_takeWhile, take_length_takeWhile] at same

theorem drop_strcspn :
    path.drop (strcspn path slash) = path.dropWhile fun byte => !slash.contains byte :=
  drop_length_takeWhile _ path

variable {a b start path : List UInt8}

theorem pathEqualLoop_iff {fuel : Nat} (enough : a.length < fuel) :
    pathEqualLoop fuel a b = true ↔ components a = components b := by
  induction fuel generalizing a b with
  | zero => omega
  | succ fuel ih =>
    rw [pathEqualLoop]
    simp only [strspn, drop_length_takeWhile]
    rw [← components_skip a, ← components_skip b]
    have nameA := atName_skip a
    have nameB := atName_skip b
    have short : (a.dropWhile slash.contains).length ≤ a.length := length_dropWhile_le _ _
    generalize a.dropWhile slash.contains = a at *
    generalize b.dropWhile slash.contains = b at *
    by_cases doneA : a = []
    · by_cases doneB : b = []
      · simp [doneA, doneB]
      · rw [if_neg (fun both => doneB both.2), if_pos (.inl doneA), components_name nameB doneB, doneA]
        simp [components]
    · by_cases doneB : b = []
      · rw [if_neg (fun both => doneA both.1), if_pos (.inr doneB), components_name nameA doneA, doneB]
        simp [components]
      · have shorter := drop_name_shorter nameA doneA
        rw [if_neg (fun both => doneA both.1), if_neg (by simp [doneA, doneB]), components_name nameA doneA,
          components_name nameB doneB, List.cons.injEq, names_equal, drop_strcspn, drop_strcspn,
          ← ih (by omega)]
        by_cases size : strcspn a slash = strcspn b slash
        · rw [if_neg (not_not.mpr size)]
          simp [size]
        · simp [size]

theorem pathStartswithLoop_iff {fuel : Nat} (enough : path.length < fuel) :
    pathStartswithLoop fuel path start = true ↔ components start <+: components path := by
  induction fuel generalizing path start with
  | zero => omega
  | succ fuel ih =>
    rw [pathStartswithLoop]
    simp only [strspn, drop_length_takeWhile]
    rw [← components_skip path, ← components_skip start]
    have namePath := atName_skip path
    have nameStart := atName_skip start
    have short : (path.dropWhile slash.contains).length ≤ path.length := length_dropWhile_le _ _
    generalize path.dropWhile slash.contains = path at *
    generalize start.dropWhile slash.contains = start at *
    by_cases doneStart : start = []
    · rw [if_pos doneStart, doneStart]
      simp [components]
    · rw [if_neg doneStart, components_name nameStart doneStart]
      by_cases donePath : path = []
      · rw [if_pos donePath, donePath]
        simp [components]
      · have shorter := drop_name_shorter namePath donePath
        rw [if_neg donePath, components_name namePath donePath, cons_prefix_cons,
          @eq_comm _ (start.takeWhile _), names_equal, drop_strcspn, drop_strcspn, ← ih (by omega)]
        by_cases size : strcspn path slash = strcspn start slash
        · rw [if_neg (not_not.mpr size)]
          simp [size]
        · simp [size]

theorem pathEqual_iff (absolute : pathIsAbsolute a = pathIsAbsolute b) :
    pathEqual a b = true ↔ components a = components b := by
  rw [pathEqual, if_neg (not_not.mpr absolute), pathEqualLoop_iff (Nat.lt_succ_self _)]

theorem pathStartswith_iff (absolute : pathIsAbsolute path = pathIsAbsolute start) :
    pathStartswith path start = true ↔ components start <+: components path := by
  rw [pathStartswith, if_neg (not_not.mpr absolute), pathStartswithLoop_iff (Nat.lt_succ_self _)]

end Systemd
