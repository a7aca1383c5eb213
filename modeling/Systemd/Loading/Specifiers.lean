import Systemd.Loading.DependencyWords

set_option autoImplicit false

namespace Systemd.Loading

open List Option

/-- An entry of a specifier table. What the lookup is given besides the letter belongs to it. -/
structure Specifier where
  specifier : UInt8
  lookup : Option (UInt8 -> Option CString)

-- The table ends with an entry that has neither, and no letter of a text is a NUL.
def lookedUp (table : List Specifier) (f : UInt8) : Option (Option CString) :=
  ((table.find? (·.specifier = f)).bind (·.lookup)).map (· f)

inductive Printed where
  | outside
  | null
  | string (r : CString)
  deriving DecidableEq

/-- The loop of specifier_printf() and the buffer that it fills: size is what is allocated, r what is
written already, and l what the source has left of the length of the text. -/
def specifierBuffer (table : List Specifier) :
    Bool -> Nat -> Nat -> List UInt8 -> List UInt8 -> Printed
  | _, _, size, r, [] => if r.length < size then .string (.ofBuffer r) else .outside
  | false, l, size, r, f :: text =>
    if f = percent then
      specifierBuffer table true (l - 1) size r text
    else if r.length < size then
      specifierBuffer table false (l - 1) size (r ++ [f]) text
    else
      .outside
  | true, l, size, r, f :: text =>
    if f = percent then
      if r.length < size then
        specifierBuffer table false (l - 1) size (r ++ [percent]) text
      else
        .outside
    else
      match lookedUp table f with
      | none =>
        if r.length + 1 < size then
          specifierBuffer table false (l - 1) size (r ++ [percent, f]) text
        else
          .outside
      | some none => .null
      -- The new buffer holds both memcpy() calls.
      | some (some w) =>
        specifierBuffer table false (l - 1) (r.length + w.bytes.length + l + 1) (r ++ w.bytes)
          text

def specifierPrintfBuffer (text : CString) (table : List Specifier) : Printed :=
  specifierBuffer table false text.bytes.length (text.bytes.length + 1) [] text.bytes

inductive Piece where
  | plain (c : UInt8)
  | pair (c : UInt8)
  | lone
  deriving DecidableEq

def pieces : List UInt8 -> List Piece
  | [] => []
  | [c] => if c = percent then [.lone] else [.plain c]
  | c :: d :: text => if c = percent then .pair d :: pieces text else .plain c :: pieces (d :: text)

def Piece.expand (table : List Specifier) : Piece -> Option (List UInt8)
  | .plain c => some [c]
  | .lone => some [percent]
  | .pair c =>
    if c = percent then
      some [percent]
    else
      match lookedUp table c with
      | none => some [percent, c]
      | some w => w.map (·.bytes)

def expansion (table : List Specifier) (text : CString) : Printed :=
  match (pieces text.bytes).mapM (Piece.expand table) with
  | none => .null
  | some texts => .string (.ofBuffer texts.flatten)

def printed : Option (List UInt8) -> Printed
  | none => .null
  | some text => .string (.ofBuffer text)

variable (table : List Specifier)

theorem specifierBuffer_loop (flag : Bool) (l size : Nat) (r text : List UInt8) (left : l = text.length)
    (fits : r.length + text.length + flag.toNat < size) :
    specifierBuffer table flag l size r text =
      printed ((specifierLoop (lookedUp table) flag text).map (r ++ ·)) := by
  fun_induction specifierBuffer table flag l size r text with
  | case1 flag l size r within => simp [specifierLoop, printed]
  | case2 flag l size r outside =>
    rw [length_nil] at fits
    omega
  | case3 l size r text ih =>
    rw [List.length_cons] at left fits
    rw [ih (by omega) (by simpa [Nat.add_assoc, Nat.add_comm] using fits), specifierLoop, if_pos rfl]
  | case4 l size r f text other within ih =>
    rw [List.length_cons] at left fits
    rw [ih (by omega) (by simpa using by omega), specifierLoop, if_neg other, Option.map_map]
    simp [Function.comp_def]
  | case5 l size r f text other outside =>
    rw [List.length_cons] at fits
    omega
  | case6 l size r text within ih =>
    rw [List.length_cons] at left fits
    rw [ih (by omega) (by simpa using by omega), specifierLoop, if_pos rfl, Option.map_map]
    simp [Function.comp_def]
  | case7 l size r text outside =>
    rw [List.length_cons] at fits
    omega
  | case8 l size r f text other unknown within ih =>
    rw [List.length_cons, Bool.toNat_true] at fits
    rw [List.length_cons] at left
    rw [ih (by omega) (by simpa using by omega), specifierLoop, if_neg other, unknown, Option.map_map]
    simp [Function.comp_def]
  | case9 l size r f text other unknown outside =>
    rw [List.length_cons, Bool.toNat_true] at fits
    omega
  | case10 l size r f text other failed =>
    rw [specifierLoop, if_neg other, failed]
    rfl
  | case11 l size r f text other w found ih =>
    rw [List.length_cons] at left
    rw [ih (by omega) (by simpa using by omega), specifierLoop, if_neg other, found, Option.map_map]
    simp [Function.comp_def]

theorem specifierPrintfBuffer_loop (text : CString) :
    specifierPrintfBuffer text table = printed (specifierLoop (lookedUp table) false text.bytes) := by
  rw [specifierPrintfBuffer, specifierBuffer_loop table false _ _ [] text.bytes rfl (by simp)]
  simp

theorem mapM_cons_flatten {A B : Type} (f : A -> Option (List B)) (value : A) (rest : List A) :
    ((value :: rest).mapM f).map List.flatten =
      (f value).bind fun first => ((rest.mapM f).map List.flatten).map (first ++ ·) := by
  rw [mapM_cons]
  cases f value <;> cases rest.mapM f <;> simp

theorem specifierLoop_pieces (text : List UInt8) :
    specifierLoop (lookedUp table) false text =
      (((pieces text).filter (· ≠ .lone)).mapM (Piece.expand table)).map List.flatten := by
  fun_induction pieces text with
  | case1 => rfl
  | case2 => rfl
  | case3 c other => simp [specifierLoop, other, Piece.expand]
  | case4 d text ih =>
    rw [specifierLoop, if_pos rfl, specifierLoop, ih, filter_cons_of_pos (by simp),
      mapM_cons_flatten, Piece.expand]
    by_cases escaped : d = percent
    next => simp [escaped]
    next =>
      rw [if_neg escaped, if_neg escaped]
      rcases lookedUp table d with _ | _ | w <;> simp
  | case5 c d text other ih =>
    rw [specifierLoop, if_neg other, ih, filter_cons_of_pos (by simp), mapM_cons_flatten]
    simp [Piece.expand]

theorem pieces_front (text : List UInt8) :
    pieces text = (pieces text).filter (· ≠ .lone) ++ if .lone ∈ pieces text then [.lone] else [] := by
  fun_induction pieces text with
  | case1 => rfl
  | case2 => rfl
  | case3 c other => simp
  | case4 d text ih => simpa using ih
  | case5 c d text other ih => simpa using ih

theorem specifierLoop_terminated {table : UInt8 -> Option (Option CString)} {flag : Bool}
    {text r : List UInt8} (terminated : 0 ∉ text) (run : specifierLoop table flag text = some r) :
    0 ∉ r := by
  have sign : (0 : UInt8) ≠ percent := by decide
  fun_induction specifierLoop table flag text generalizing r with
  | case1 =>
    obtain rfl : [] = r := some.inj run
    simp
  | case2 text ih => exact ih (by simpa [sign] using terminated) run
  | case3 f text other ih =>
    obtain ⟨rest, its, rfl⟩ := map_eq_some_iff.mp run
    have each : 0 ≠ f ∧ 0 ∉ text := by simpa using terminated
    simpa [each.1] using ih each.2 its
  | case4 text ih =>
    obtain ⟨rest, its, rfl⟩ := map_eq_some_iff.mp run
    simpa [sign] using ih (by simpa [sign] using terminated) its
  | case5 f text other unknown ih =>
    obtain ⟨rest, its, rfl⟩ := map_eq_some_iff.mp run
    have each : 0 ≠ f ∧ 0 ∉ text := by simpa using terminated
    simpa [sign, each.1] using ih each.2 its
  | case6 f text other failed => simp at run
  | case7 f text other w found ih =>
    obtain ⟨rest, its, rfl⟩ := map_eq_some_iff.mp run
    have each : 0 ≠ f ∧ 0 ∉ text := by simpa using terminated
    simpa [w.terminated] using ih each.2 its

theorem mapM_eq_none {A B : Type} (f : A -> Option B) (values : List A) :
    values.mapM f = none ↔ ∃ value ∈ values, f value = none := by
  induction values with
  | nil => simp
  | cons value rest ih =>
    rw [mapM_cons]
    cases first : f value with
    | none => simp [first]
    | some image => cases others : rest.mapM f <;> simp_all

theorem expand_eq_none (piece : Piece) :
    piece.expand table = none ↔ ∃ c, piece = .pair c ∧ c ≠ percent ∧ lookedUp table c = some none := by
  cases piece with
  | plain c => simp [Piece.expand]
  | lone => simp [Piece.expand]
  | pair c =>
    rw [Piece.expand]
    by_cases escaped : c = percent
    next => simp [escaped]
    next => rcases found : lookedUp table c with _ | _ | w <;> simp [escaped, found]

def LookupFails (table : List Specifier) (text : CString) : Prop :=
  ∃ c, .pair c ∈ pieces text.bytes ∧ c ≠ percent ∧ lookedUp table c = some none

theorem lookupFails_iff (text : CString) :
    LookupFails table text ↔
      ((pieces text.bytes).filter (· ≠ .lone)).mapM (Piece.expand table) = none := by
  rw [mapM_eq_none]
  constructor
  next =>
    rintro ⟨c, mem, other, failed⟩
    exact ⟨.pair c, mem_filter.mpr ⟨mem, by simp⟩,
      (expand_eq_none table _).mpr ⟨c, rfl, other, failed⟩⟩
  next =>
    rintro ⟨piece, mem, nothing⟩
    obtain ⟨c, rfl, other, failed⟩ := (expand_eq_none table piece).mp nothing
    exact ⟨c, (mem_filter.mp mem).1, other, failed⟩

/-- No write leaves the buffer, and what comes out is the expansion, unless a percent sign is left over
at the end. -/
theorem specifierPrintf_copies_iff (text : CString) :
    specifierPrintfBuffer text table = expansion table text ∧
        specifierPrintfBuffer text table ≠ .outside ↔
      .lone ∉ pieces text.bytes ∨ LookupFails table text := by
  have inside : printed (specifierLoop (lookedUp table) false text.bytes) ≠ .outside := by
    cases specifierLoop (lookedUp table) false text.bytes <;> simp [printed]
  rw [specifierPrintfBuffer_loop, and_iff_left inside, expansion, pieces_front text.bytes,
    mapM_append, lookupFails_iff]
  have loop := specifierLoop_pieces table text.bytes
  cases run : ((pieces text.bytes).filter (· ≠ .lone)).mapM (Piece.expand table) with
  | none =>
    rw [run] at loop
    simp [loop, printed]
  | some texts =>
    rw [run] at loop
    have terminated := specifierLoop_terminated text.terminated loop
    by_cases left : .lone ∈ pieces text.bytes
    next =>
      have longer : 0 ∉ texts.flatten ++ [percent] := by
        have sign : (0 : UInt8) ≠ percent := by decide
        simpa [sign] using terminated
      have apart : CString.ofBuffer texts.flatten ≠ .ofBuffer (texts.flatten ++ [percent]) := by
        intro same
        have bytes := congrArg CString.bytes same
        rw [CString.ofBuffer_bytes terminated, CString.ofBuffer_bytes longer] at bytes
        simpa using congrArg List.length bytes
      simpa [loop, printed, left, Piece.expand] using apart
    next =>
      simp [loop, printed, left]

/-- The percent sign at the end is lost. -/
theorem specifierPrintf_drops_last : ¬ (specifierPrintfBuffer (.ofString "100%") [] =
      expansion [] (.ofString "100%") ∧
    specifierPrintfBuffer (.ofString "100%") [] ≠ .outside) := by
  decide

end Systemd.Loading
