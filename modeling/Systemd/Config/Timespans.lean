import Systemd.Config.Spans

set_option autoImplicit false

namespace Systemd.Spans

open Serialization (decimal decimal_digits decimal_digit decimal_head scanDigits_append scanDigits_stop
  scanDigits_decimal isSpace isDigitOf scanDigits)

def store (buf : List UInt8) (p : Nat) (bytes : List UInt8) : Option (List UInt8) :=
  if p + bytes.length ≤ buf.length then
    some (buf.take p ++ bytes ++ buf.drop (p + bytes.length))
  else
    none

-- At most l bytes are written, the last of them a NUL.
def snprintf (buf : List UInt8) (p l : Nat) (text : List UInt8) : Option (List UInt8) :=
  if l = 0 then some buf else store buf p (text.take (l - 1) ++ [0])

def timespanTable : Table :=
  [(suffix "w", usecPerWeek), (suffix "d", usecPerDay), (suffix "h", usecPerHour),
    (suffix "min", usecPerMinute), (suffix "s", usecPerSec), (suffix "ms", usecPerMsec), (suffix "us", 1)]

def blank : UInt8 := 32

def formatLoop : Table -> List UInt8 -> Nat -> Nat -> Nat -> Option (List UInt8)
  | [], buf, p, _, _ => store buf p [0]
  | (suffix, usec) :: table, buf, p, l, t =>
    if t < usec then
      formatLoop table buf p l t
    else if l ≤ 1 then
      store buf p [0]
    else
      let text := (if 0 < p then [blank] else []) ++ decimal 20 (t / usec) ++ suffix
      let n := min text.length l
      match snprintf buf p l text with
      | none => none
      | some buf => formatLoop table buf (p + n) (l - n) (t % usec)

inductive Formatted where
  | aborted
  | outside
  | null
  | string (buf : List UInt8)
  deriving DecidableEq

-- The length l is that of the buffer.
def formatTimespan (buf : List UInt8) (t : UInt64) : Formatted :=
  if buf.length = 0 then
    .aborted
  else if t = -1 then
    .null
  else if t = 0 then
    match (snprintf buf 0 buf.length (suffix "0")).bind (store · (buf.length - 1) [0]) with
    | none => .outside
    | some buf => .string buf
  else
    match formatLoop timespanTable buf 0 buf.length t.toNat with
    | none => .outside
    | some buf => .string buf

def spanText : Table -> Bool -> Nat -> List UInt8
  | [], _, _ => []
  | (suffix, usec) :: table, later, t =>
    if t < usec then
      spanText table later t
    else
      (if later then [blank] else []) ++ decimal 20 (t / usec) ++ suffix ++ spanText table true (t % usec)

def spanItems : Table -> Nat -> List (Nat × Nat)
  | [], _ => []
  | (_, usec) :: table, t =>
    if t < usec then spanItems table t else (t / usec, usec) :: spanItems table (t % usec)

theorem store_fits (buf : List UInt8) (p : Nat) (bytes : List UInt8)
    (fits : p + bytes.length ≤ buf.length) :
    ∃ stored, store buf p bytes = some stored ∧ stored.length = buf.length ∧
      stored.take (p + bytes.length) = buf.take p ++ bytes := by
  have front : (buf.take p).length = p := List.length_take_of_le (by omega)
  refine ⟨_, if_pos fits, ?_, ?_⟩
  next =>
    simp only [List.length_append, front, List.length_drop]
    omega
  next =>
    have length : (buf.take p ++ bytes).length = p + bytes.length := by simp [front]
    rw [← length, List.take_left]

theorem decimal_nonempty (digits number : Nat) : 0 < (decimal (digits + 1) number).length := by
  rw [decimal]
  simp

variable {t p n : Nat} {table : Table} {later : Bool} {rest buf : List UInt8}

theorem formatLoop_text (table : Table) (buf : List UInt8) {l : Nat} (whole : p + l = buf.length)
    (fits : (spanText table (0 < p) t).length < l) :
    ∃ stored, formatLoop table buf p l t = some stored ∧ stored.length = buf.length ∧
      stored.take (p + (spanText table (0 < p) t).length + 1) =
        buf.take p ++ spanText table (0 < p) t ++ [0] := by
  induction table generalizing buf p l t with
  | nil =>
    obtain ⟨stored, it, length, front⟩ := store_fits buf p [0] (by
      rw [List.length_singleton]
      omega)
    exact ⟨stored, it, length, by simpa [spanText] using front⟩
  | cons row table ih =>
    obtain ⟨suffix, usec⟩ := row
    by_cases small : t < usec
    next =>
      simp only [spanText, if_pos small] at fits ⊢
      simp only [formatLoop, if_pos small]
      exact ih buf whole fits
    next =>
      generalize piece : (if 0 < p then [blank] else []) ++ decimal 20 (t / usec) ++ suffix = text
      have spanned : spanText ((suffix, usec) :: table) (0 < p) t =
          text ++ spanText table true (t % usec) := by
        rw [spanText, if_neg small, ← piece]
        simp
      have some : 0 < text.length := by
        have digits : 0 < (decimal 20 (t / usec)).length := decimal_nonempty 19 (t / usec)
        rw [← piece]
        simp only [List.length_append]
        omega
      rw [spanned, List.length_append] at fits
      obtain ⟨printed, it, length, front⟩ := store_fits buf p (text ++ [0]) (by
        rw [List.length_append, List.length_singleton]
        omega)
      have here : snprintf buf p l text = Option.some printed := by
        rw [snprintf, if_neg (by omega), List.take_of_length_le (by omega), it]
      have later : decide (0 < p + text.length) = true := decide_eq_true (by omega)
      obtain ⟨stored, rest, same, all⟩ := ih printed (p := p + text.length)
        (l := l - text.length) (t := t % usec) (by omega) (by rw [later]; omega)
      have before : printed.take (p + text.length) = buf.take p ++ text := by
        have cut := congrArg (List.take (p + text.length)) front
        have size : (buf.take p ++ text).length = p + text.length := by
          rw [List.length_append, List.length_take_of_le (by omega)]
        rw [List.take_take, ← List.append_assoc, ← size, List.take_left, size] at cut
        rw [← cut, List.length_append]
        congr 1
        omega
      refine ⟨stored, ?_, same.trans length, ?_⟩
      next =>
        simp only [formatLoop, if_neg small, piece, if_neg (show ¬ l ≤ 1 by omega), here,
          min_eq_left (show text.length ≤ l by omega)]
        exact rest
      next =>
        rw [later, before] at all
        rw [spanned, List.length_append, ← Nat.add_assoc, all]
        simp

theorem decimal_short (digits : Nat) {number k : Nat} (small : number < 10 ^ (k + 1)) :
    (decimal digits number).length ≤ k + 1 := by
  induction digits generalizing number k with
  | zero => simp [decimal]
  | succ digits ih =>
    rw [decimal, List.length_append, List.length_singleton]
    split
    next => simp
    next large =>
      cases k with
      | zero => omega
      | succ k =>
        rw [Nat.pow_succ] at small
        have front : (decimal digits (number / 10)).length ≤ k + 1 := ih (by omega)
        omega

theorem spanText_row {row : List UInt8} {usec k size : Nat} (pos : 0 < usec)
    (small : t < 10 ^ (k + 1) * usec)
    (rest : ∀ later t, t < usec -> (spanText table later t).length ≤ size) :
    (spanText ((row, usec) :: table) later t).length ≤ 1 + (k + 1) + row.length + size := by
  rw [spanText]
  split
  next less =>
    have behind := rest later t less
    omega
  next =>
    have digits := decimal_short 20 (k := k) ((Nat.div_lt_iff_lt_mul pos).mpr small)
    have behind := rest true (t % usec) (Nat.mod_lt t pos)
    simp only [List.length_append]
    split <;> simp <;> omega

theorem spanText_length (small : t < 2 ^ 64) : (spanText timespanTable later t).length ≤ 39 := by
  have none : ∀ later t, t < 1 -> (spanText [] later t).length ≤ 0 := fun _ _ _ => Nat.le_refl 0
  have us : ∀ later t, t < usecPerMsec -> (spanText [(suffix "us", 1)] later t).length ≤ 6 :=
    fun later t less => spanText_row (k := 2) (by decide) (less.trans_le (by decide)) none
  have ms : ∀ later t, t < usecPerSec -> (spanText (timespanTable.drop 5) later t).length ≤ 12 :=
    fun later t less => spanText_row (k := 2) (by decide) (less.trans_le (by decide)) us
  have s : ∀ later t, t < usecPerMinute -> (spanText (timespanTable.drop 4) later t).length ≤ 16 :=
    fun later t less => spanText_row (k := 1) (by decide) (less.trans_le (by decide)) ms
  have min : ∀ later t, t < usecPerHour -> (spanText (timespanTable.drop 3) later t).length ≤ 22 :=
    fun later t less => spanText_row (k := 1) (by decide) (less.trans_le (by decide)) s
  have h : ∀ later t, t < usecPerDay -> (spanText (timespanTable.drop 2) later t).length ≤ 26 :=
    fun later t less => spanText_row (k := 1) (by decide) (less.trans_le (by decide)) min
  have d : ∀ later t, t < usecPerWeek -> (spanText (timespanTable.drop 1) later t).length ≤ 29 :=
    fun later t less => spanText_row (k := 0) (by decide) (less.trans_le (by decide)) h
  exact spanText_row (k := 7) (by decide) (small.trans_le (by decide)) d

theorem total_spanItems (t : Nat) : total (spanItems timespanTable t) = t := by
  have step : ∀ (row : List UInt8) (usec : Nat) (table : Table),
      (∀ t, t < usec -> total (spanItems table t) = t) -> 0 < usec ->
        ∀ t, total (spanItems ((row, usec) :: table) t) = t := by
    intro row usec table rest pos t
    rw [spanItems]
    split
    next less => exact rest t less
    next =>
      have behind := rest (t % usec) (Nat.mod_lt t pos)
      rw [total] at behind
      rw [total, List.map_cons, List.sum_cons, behind, Nat.mul_comm]
      exact Nat.div_add_mod t usec
  have us : ∀ t, total (spanItems [(suffix "us", 1)] t) = t :=
    step _ _ _ (fun t less => by obtain rfl := Nat.lt_one_iff.mp less; rfl) (by decide)
  have ms : ∀ t, total (spanItems (timespanTable.drop 5) t) = t :=
    step _ _ _ (fun t _ => us t) (by decide)
  have s : ∀ t, total (spanItems (timespanTable.drop 4) t) = t :=
    step _ _ _ (fun t _ => ms t) (by decide)
  have min : ∀ t, total (spanItems (timespanTable.drop 3) t) = t :=
    step _ _ _ (fun t _ => s t) (by decide)
  have h : ∀ t, total (spanItems (timespanTable.drop 2) t) = t :=
    step _ _ _ (fun t _ => min t) (by decide)
  have d : ∀ t, total (spanItems (timespanTable.drop 1) t) = t :=
    step _ _ _ (fun t _ => h t) (by decide)
  exact step _ _ _ (fun t _ => d t) (by decide) t

/-- Wherever the parser meets the suffix of this row, at the end or in front of a blank, it takes it for
the unit of the row. -/
structure Readable (row : List UInt8 × Nat) : Prop where
  first : ∃ letter more, row.1 = letter :: more ∧ isDigitOf 10 letter = false ∧
    isWhitespace letter = false
  alone : usedSuffix usecTable row.1 = some row
  followed : ∀ more, usedSuffix usecTable (row.1 ++ blank :: more) = some row

theorem timespanTable_readable : ∀ row ∈ timespanTable, Readable row := by
  intro row mem
  simp only [timespanTable, List.mem_cons, List.not_mem_nil, or_false] at mem
  rcases mem with rfl | rfl | rfl | rfl | rfl | rfl | rfl
  all_goals exact ⟨⟨_, _, rfl, by decide, by decide⟩, by decide, fun more => rfl⟩

theorem decimal_first (pos : 0 < n) (small : n < 10 ^ 20) :
    ∃ first more, decimal 20 n = first :: more ∧ isSpace first = false ∧ isDigitOf 10 first = true ∧
      first ≠ 45 ∧ first ≠ 43 := by
  obtain ⟨digit, -, bound, more, digits⟩ := decimal_head small pos
  refine ⟨_, more, digits, ?_⟩
  interval_cases digit <;> decide

theorem strtoll_decimal {lead : List UInt8} (blanks : ∀ byte ∈ lead, byte = blank) (pos : 0 < n)
    (small : n < 10 ^ 20) (stop : ∀ byte ∈ rest.head?, isDigitOf 10 byte = false) :
    strtoll (lead ++ (decimal 20 n ++ rest)) = some (false, n, rest) := by
  obtain ⟨first, more, digits, visible, isDigit, minus, plus⟩ := decimal_first pos small
  have spaces : ∀ byte ∈ lead, isSpace byte = true := by
    intro byte mem
    rw [blanks byte mem]
    rfl
  have shown : (lead ++ (decimal 20 n ++ rest)).dropWhile isSpace = decimal 20 n ++ rest := by
    rw [List.dropWhile_append_of_pos spaces, digits, List.cons_append,
      List.dropWhile_cons_of_neg (by simp [visible])]
  have head : (decimal 20 n ++ rest).head? = some first := by
    rw [digits]
    rfl
  have unsigned : behindSign (decimal 20 n ++ rest) = decimal 20 n ++ rest := by
    rw [behindSign, head, if_neg (by simp [minus, plus])]
  have value : scanDigits 10 0 (decimal 20 n ++ rest) = (n, rest) := by
    rw [scanDigits_append 0 _ _ (decimal_digits 20 n), scanDigits_decimal small,
      scanDigits_stop 10 n rest stop]
  rw [strtoll, shown, unsigned, head, Option.any_some, if_pos isDigit, value]
  simp [minus]

def Ended (rest : List UInt8) : Prop :=
  ∀ byte ∈ rest.head?, byte = blank

theorem parseItem_piece {row : List UInt8 × Nat} (readable : Readable row) (lead : List UInt8)
    (blanks : ∀ byte ∈ lead, byte = blank) (pos : 0 < n) (small : n < 2 ^ 63) (ended : Ended rest) :
    parseItem usecTable (lead ++ decimal 20 n ++ row.1 ++ rest) = .ok (n, row.2, rest) := by
  obtain ⟨letter, more, letters, notDigit, notBlank⟩ := readable.first
  have number : strtoll (lead ++ (decimal 20 n ++ (row.1 ++ rest))) = some (false, n, row.1 ++ rest) :=
    strtoll_decimal blanks pos (small.trans (by decide)) (by simp [letters, notDigit])
  have visible : (row.1 ++ rest).dropWhile isWhitespace = row.1 ++ rest := by
    rw [letters, List.cons_append, List.dropWhile_cons_of_neg (by simp [notBlank])]
  have unit : usedSuffix usecTable (row.1 ++ rest) = some row := by
    cases rest with
    | nil => simpa using readable.alone
    | cons byte rest =>
      obtain rfl : byte = blank := ended byte rfl
      exact readable.followed rest
  have range : outOfRange false n = false := by simpa [outOfRange] using small
  rw [List.append_assoc, List.append_assoc, parseItem, number]
  simp [range, visible, unit]

theorem spanItems_nil (nothing : spanItems table t = []) (later : Bool) :
    spanText table later t = [] := by
  induction table with
  | nil => rfl
  | cons row table ih =>
    obtain ⟨row, usec⟩ := row
    rw [spanItems] at nothing
    rw [spanText]
    split at nothing
    next less =>
      rw [if_pos less]
      exact ih nothing
    next => simp at nothing

theorem spanText_later (table : Table) (t : Nat) : Ended (spanText table true t) := by
  induction table with
  | nil => simp [Ended, spanText]
  | cons row table ih =>
    obtain ⟨row, usec⟩ := row
    rw [spanText]
    split
    next => exact ih
    next => simp [Ended]

theorem spanText_nonempty (some : spanItems table t ≠ []) : spanText table true t ≠ [] := by
  induction table with
  | nil => exact absurd rfl some
  | cons row table ih =>
    obtain ⟨row, usec⟩ := row
    rw [spanItems] at some
    rw [spanText]
    split
    next less =>
      rw [if_pos less] at some
      exact ih some
    next => simp

theorem items_spanText (readable : ∀ row ∈ table, Readable row ∧ 0 < row.2 ∧ row.2 < 2 ^ 63)
    (small : t < 2 ^ 63 ∨ ∀ row ∈ table.head?, 2 ≤ row.2 ∧ t < 2 ^ 64) (some : spanItems table t ≠ []) :
    items usecTable (spanText table later t) = .ok (spanItems table t) := by
  induction table generalizing later t with
  | nil => exact absurd rfl some
  | cons row table ih =>
    obtain ⟨good, pos, bound⟩ := readable row List.mem_cons_self
    have others := fun other mem => readable other (List.mem_cons_of_mem row mem)
    obtain ⟨row, usec⟩ := row
    rw [spanItems] at some
    rw [spanItems, spanText]
    by_cases less : t < usec
    next =>
      rw [if_pos less] at some
      rw [if_pos less, if_pos less]
      exact ih others (.inl (less.trans bound)) some
    next =>
      rw [if_neg less, if_neg less]
      have number : t / usec < 2 ^ 63 := by
        rcases small with small | large
        next => exact Nat.lt_of_le_of_lt (Nat.div_le_self t usec) small
        next =>
          obtain ⟨two, wide⟩ := large _ rfl
          exact (Nat.div_le_div_left two (by decide)).trans_lt (by omega)
      have item := parseItem_piece good (if later = true then [blank] else [])
        (by cases later <;> simp) (Nat.div_pos (Nat.not_lt.mp less) pos) number
        (spanText_later table (t % usec))
      rw [items, item]
      have below : t % usec < 2 ^ 63 := (Nat.mod_lt t pos).trans bound
      cases rest : spanItems table (t % usec) with
      | nil => simp [spanItems_nil rest]
      | cons first behind =>
        have more : spanItems table (t % usec) ≠ [] := by simp [rest]
        have read : items usecTable (spanText table true (t % usec)) = .ok (spanItems table (t % usec)) :=
          ih others (.inl below) more
        simp [spanText_nonempty more, read, rest, Except.map]

theorem spanText_terminated (letters : ∀ row ∈ table, (0 : UInt8) ∉ row.1) (later : Bool) (t : Nat) :
    0 ∉ spanText table later t := by
  induction table generalizing later t with
  | nil => simp [spanText]
  | cons row table ih =>
    have own := letters row List.mem_cons_self
    have others := fun other mem => letters other (List.mem_cons_of_mem row mem)
    obtain ⟨row, usec⟩ := row
    have digits : 0 ∉ decimal 20 (t / usec) := by
      intro mem
      obtain ⟨digit, bound, same⟩ := decimal_digit mem
      interval_cases digit <;> exact absurd same (by decide)
    have blanks : (0 : UInt8) ∉ (if later = true then [blank] else []) := by cases later <;> decide
    rw [spanText]
    split
    next => exact ih others later t
    next =>
      simp only [List.mem_append, not_or]
      exact ⟨⟨⟨blanks, digits⟩, own⟩, ih others true (t % usec)⟩

theorem ofBuffer_front {text : List UInt8} (clean : 0 ∉ text) (front : buf.take n = text ++ [0]) :
    CString.ofBuffer buf = ⟨text, clean⟩ := by
  have plain : ∀ byte ∈ text, (byte != 0) = true := by
    intro byte mem
    simpa using fun same : byte = 0 => clean (same ▸ mem)
  apply CString.eq_of_bytes
  conv_lhs => rw [← List.take_append_drop n buf, front]
  simp only [CString.ofBuffer, List.append_assoc]
  rw [List.takeWhile_append_of_pos plain]
  simp

/-- Every time span that is printed into a buffer of reasonable size is read back as it was. -/
theorem parseUsec_formatTimespan (buf : List UInt8) (t : UInt64) (finite : t ≠ -1)
    (large : 64 ≤ buf.length) :
    ∃ printed, formatTimespan buf t = .string printed ∧ 0 ∈ printed ∧
      parseUsec (.ofBuffer printed) = .ok t := by
  by_cases zero : t = 0
  next =>
    subst zero
    obtain ⟨first, it, length, front⟩ := store_fits buf 0 (suffix "0" ++ [0])
      (by simp [suffix]; omega)
    have here : snprintf buf 0 buf.length (suffix "0") = some first := by
      rw [snprintf, if_neg (by omega), List.take_of_length_le (by simp [suffix]; omega), it]
    obtain ⟨printed, last, same, kept⟩ := store_fits first (buf.length - 1) [0]
      (by simp; omega)
    have shown : printed.take 2 = suffix "0" ++ [0] := by
      have cut := congrArg (List.take 2) kept
      rw [List.take_take, min_eq_left (by simp; omega), List.take_append_of_le_length
        (by rw [List.length_take_of_le (by omega)]; omega), List.take_take, min_eq_left (by omega)] at cut
      exact cut.trans front
    refine ⟨printed, ?_, ?_, ?_⟩
    next =>
      have some : buf ≠ [] := by
        rintro rfl
        simp at large
      simp [formatTimespan, some, finite, here, last]
    next =>
      refine List.mem_of_mem_take (i := 2) ?_
      rw [shown]
      simp
    next =>
      have read : items usecTable (suffix "0") = .ok [(0, usecPerSec)] := items_single (by decide)
      rw [parseUsec_items, ofBuffer_front (by decide) shown, read]
      rfl
  next =>
    have bound : t.toNat < 2 ^ 64 := t.toNat_lt
    obtain ⟨printed, it, length, front⟩ := formatLoop_text timespanTable buf (p := 0)
      (t := t.toNat) (Nat.zero_add _) ((spanText_length bound).trans_lt (by omega))
    have clean : 0 ∉ spanText timespanTable (0 < 0) t.toNat := spanText_terminated (by decide) _ _
    rw [List.take_zero, List.nil_append] at front
    have string := ofBuffer_front clean front
    have readable : ∀ row ∈ timespanTable, Readable row ∧ 0 < row.2 ∧ row.2 < 2 ^ 63 := by
      have sizes : ∀ row ∈ timespanTable, 0 < row.2 ∧ row.2 < 2 ^ 63 := by decide
      exact fun row mem => ⟨timespanTable_readable row mem, sizes row mem⟩
    have weeks : ∀ row ∈ timespanTable.head?, 2 ≤ row.2 ∧ t.toNat < 2 ^ 64 := by
      rintro row ⟨rfl⟩
      exact ⟨by decide, bound⟩
    have nonempty : buf ≠ [] := by
      rintro rfl
      simp at large
    refine ⟨printed, ?_, ?_, ?_⟩
    next => simp [formatTimespan, finite, zero, it, nonempty]
    next =>
      refine List.mem_of_mem_take (i := 0 + (spanText timespanTable (0 < 0) t.toNat).length + 1) ?_
      rw [front]
      simp
    next =>
      have some : spanItems timespanTable t.toNat ≠ [] := by
        intro nothing
        have sum := total_spanItems t.toNat
        rw [nothing] at sum
        exact zero (UInt64.toNat_inj.mp sum.symm)
      rw [parseUsec_items, string, items_spanText readable (.inr weeks) some]
      simp [Except.map, total_spanItems]

example : spanText timespanTable false 90061000007 = suffix "1d 1h 1min 1s 7us" := by
  decide

theorem day_and_more :
    ∃ printed, formatTimespan (List.replicate 64 0) 90061000007 = .string printed ∧ 0 ∈ printed ∧
      parseUsec (.ofBuffer printed) = .ok 90061000007 :=
  parseUsec_formatTimespan _ _ (by decide) (by decide)

def spanPieces : Table -> Bool -> Nat -> List (List UInt8)
  | [], _, _ => []
  | (suffix, usec) :: table, later, t =>
    if t < usec then
      spanPieces table later t
    else
      ((if later then [blank] else []) ++ decimal 20 (t / usec) ++ suffix) ::
        spanPieces table true (t % usec)

/-- No part is cut off in its middle: all of them fit, or the first few fill the room but for one byte. -/
def CutBetween (pieces : List (List UInt8)) (l : Nat) : Prop :=
  pieces.flatten.length < l ∨ ∃ n, (pieces.take n).flatten.length + 1 = l

def StaysInside (buf : List UInt8) (t : UInt64) : Prop :=
  formatTimespan buf t = .null ∨
    ∃ stored, formatTimespan buf t = .string stored ∧ stored.length = buf.length ∧ 0 ∈ stored

theorem store_inside (buf : List UInt8) :
    (∃ stored, store buf p [0] = some stored ∧ stored.length = buf.length ∧ 0 ∈ stored) ↔
      p < buf.length := by
  constructor
  next =>
    rintro ⟨stored, it, -⟩
    by_contra beyond
    rw [store, List.length_singleton, if_neg (by omega)] at it
    cases it
  next =>
    intro inside
    obtain ⟨stored, it, length, front⟩ := store_fits buf p [0] inside
    refine ⟨stored, it, length, List.mem_of_mem_take (i := p + 1) ?_⟩
    rw [List.length_singleton] at front
    rw [front]
    simp

theorem cutBetween_nil (l : Nat) : CutBetween [] l ↔ 0 < l := by
  simp only [CutBetween, List.flatten_nil, List.length_nil, List.take_nil, exists_const]
  omega

theorem cutBetween_cons (text : List UInt8) (pieces : List (List UInt8)) (l : Nat) :
    CutBetween (text :: pieces) l ↔ l = 1 ∨ text.length < l ∧ CutBetween pieces (l - text.length) := by
  constructor
  next =>
    rintro (all | ⟨n, part⟩)
    next =>
      rw [List.flatten_cons, List.length_append] at all
      exact .inr ⟨by omega, .inl (by omega)⟩
    next =>
      cases n with
      | zero => exact .inl (by simpa using part.symm)
      | succ n =>
        rw [List.take_succ_cons, List.flatten_cons, List.length_append] at part
        exact .inr ⟨by omega, .inr ⟨n, by omega⟩⟩
  next =>
    rintro (rfl | ⟨room, all | ⟨n, part⟩⟩)
    next => exact .inr ⟨0, rfl⟩
    next =>
      refine .inl ?_
      rw [List.flatten_cons, List.length_append]
      omega
    next =>
      refine .inr ⟨n + 1, ?_⟩
      rw [List.take_succ_cons, List.flatten_cons, List.length_append]
      omega

theorem formatLoop_outside (table : Table) (beyond : buf.length ≤ p) (t : Nat) :
    formatLoop table buf p 0 t = none := by
  have outside : store buf p [0] = none := by
    rw [store, List.length_singleton, if_neg (by omega)]
  induction table with
  | nil => exact outside
  | cons row table ih =>
    rw [formatLoop]
    split
    next => exact ih
    next =>
      rw [if_pos (Nat.zero_le 1)]
      exact outside

theorem formatLoop_inside (table : Table) (buf : List UInt8) {l : Nat} (whole : p + l = buf.length) :
    (∃ stored, formatLoop table buf p l t = some stored ∧ stored.length = buf.length ∧ 0 ∈ stored) ↔
      CutBetween (spanPieces table (0 < p) t) l := by
  induction table generalizing buf p l t with
  | nil =>
    rw [spanPieces, cutBetween_nil, formatLoop, store_inside]
    omega
  | cons row table ih =>
    obtain ⟨suffix, usec⟩ := row
    by_cases small : t < usec
    next =>
      rw [formatLoop, if_pos small, spanPieces, if_pos small]
      exact ih buf whole
    next =>
      generalize piece : (if 0 < p then [blank] else []) ++ decimal 20 (t / usec) ++ suffix = text
      have pieces : spanPieces ((suffix, usec) :: table) (0 < p) t =
          text :: spanPieces table true (t % usec) := by
        rw [spanPieces, if_neg small, ← piece]
        simp
      rw [pieces, cutBetween_cons]
      by_cases full : l ≤ 1
      next =>
        rw [formatLoop, if_neg small, if_pos full, store_inside]
        omega
      next =>
        have room : p + (text.take (l - 1) ++ [0]).length ≤ buf.length := by
          rw [List.length_append, List.length_singleton, List.length_take]
          omega
        obtain ⟨printed, it, length, -⟩ := store_fits buf p _ room
        have here : snprintf buf p l text = Option.some printed := by rw [snprintf, if_neg (by omega), it]
        simp only [formatLoop, if_neg small, piece, if_neg full, here]
        by_cases fits : text.length < l
        next =>
          have digits : 0 < (decimal 20 (t / usec)).length := decimal_nonempty 19 (t / usec)
          have some : 0 < text.length := by
            rw [← piece]
            simp only [List.length_append]
            omega
          have later : decide (0 < p + text.length) = true := decide_eq_true (by omega)
          have rest := ih printed (p := p + text.length) (l := l - text.length) (t := t % usec) (by omega)
          rw [later, length] at rest
          rw [min_eq_left (by omega), rest]
          exact ⟨fun cut => .inr ⟨fits, cut⟩, fun cut => (cut.resolve_left (by omega)).2⟩
        next =>
          rw [min_eq_right (by omega), Nat.sub_self, formatLoop_outside table (by omega)]
          simp [fits]
          omega

theorem formatTimespan_inside (buf : List UInt8) (t : UInt64) (room : 0 < buf.length) :
    StaysInside buf t ↔ t = -1 ∨ CutBetween (spanPieces timespanTable false t.toNat) buf.length := by
  have nonempty : buf.length ≠ 0 := by omega
  rw [StaysInside, formatTimespan, if_neg nonempty]
  by_cases infinite : t = -1
  next => simp [infinite]
  next =>
    rw [if_neg infinite]
    by_cases zero : t = 0
    next =>
      subst zero
      obtain ⟨first, it, length, -⟩ := store_fits buf 0 ((suffix "0").take (buf.length - 1) ++ [0])
        (by simp [suffix]; omega)
      obtain ⟨stored, last, same, within⟩ := (store_inside first (p := buf.length - 1)).mpr (by omega)
      have here : snprintf buf 0 buf.length (suffix "0") = some first := by
        rw [snprintf, if_neg nonempty, it]
      have nothing : spanPieces timespanTable false (0 : UInt64).toNat = [] := by decide
      have cut : CutBetween (spanPieces timespanTable false (0 : UInt64).toNat) buf.length := by
        rw [nothing, cutBetween_nil]
        exact room
      simp only [if_true, here, Option.bind_some, last]
      exact ⟨fun _ => .inr cut, fun _ => .inr ⟨stored, rfl, same.trans length, within⟩⟩
    next =>
      have loop := formatLoop_inside timespanTable buf (p := 0) (t := t.toNat) (Nat.zero_add _)
      rw [decide_eq_false (Nat.lt_irrefl 0)] at loop
      rw [if_neg zero, ← loop]
      cases formatLoop timespanTable buf 0 buf.length t.toNat <;> simp [infinite]

theorem minute_inside : StaysInside (List.replicate 5 0) 60000000 ↔
    (60000000 : UInt64) = -1 ∨ CutBetween (spanPieces timespanTable false (60000000 : UInt64).toNat) 5 :=
  formatTimespan_inside (List.replicate 5 0) 60000000 (by decide)

theorem minute_outside : ¬StaysInside (List.replicate 4 0) 60000000 := by
  have beyond : formatTimespan (List.replicate 4 0) 60000000 = .outside := by decide
  rw [StaysInside, beyond]
  simp

end Systemd.Spans
