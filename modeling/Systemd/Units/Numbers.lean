import Mathlib.Tactic.IntervalCases
import Systemd.Units.Serialize

set_option autoImplicit false

namespace Systemd.Serialization

def isSpace (byte : UInt8) : Bool :=
  byte = 32 || (9 ≤ byte && byte ≤ 13)

def digitValue (byte : UInt8) : Option Nat :=
  if 48 ≤ byte ∧ byte ≤ 57 then some (byte.toNat - 48)
  else if 97 ≤ byte ∧ byte ≤ 122 then some (byte.toNat - 87)
  else if 65 ≤ byte ∧ byte ≤ 90 then some (byte.toNat - 55)
  else none

def isDigitOf (base : Nat) (byte : UInt8) : Bool :=
  (digitValue byte).any (· < base)

def scanDigits (base : Nat) : Nat -> List UInt8 -> Nat × List UInt8
  | value, [] => (value, [])
  | value, byte :: rest =>
    if isDigitOf base byte then scanDigits base (base * value + (digitValue byte).getD 0) rest
    else (value, byte :: rest)

-- The base that strtol finds when it is called with base 0, and where the digits start.
def detectBase : List UInt8 -> Nat × List UInt8
  | zero :: x :: digit :: rest =>
    if zero = 48 ∧ (x = 120 ∨ x = 88) ∧ isDigitOf 16 digit then (16, digit :: rest)
    else (if zero = 48 then 8 else 10, zero :: x :: digit :: rest)
  | zero :: rest => (if zero = 48 then 8 else 10, zero :: rest)
  | [] => (10, [])

/-- What strtol and its relatives read off the front of a text: the sign, the magnitude, and what is
left. -/
structure Scanned where
  negative : Bool
  magnitude : Nat
  rest : List UInt8

def scanMagnitude (text : List UInt8) : Option (Nat × List UInt8) :=
  let (base, digits) := detectBase text
  if digits.head?.any (isDigitOf base) then some (scanDigits base 0 digits) else none

def scanNumber (text : List UInt8) : Option Scanned :=
  let text := text.dropWhile isSpace
  let negative := text.head? = some 45
  let unsigned := if text.head? = some 45 ∨ text.head? = some 43 then text.tail else text
  (scanMagnitude unsigned).map fun (magnitude, rest) => ⟨negative, magnitude, rest⟩

-- The whole text has to be a number. An empty one counts as 0.
def wholeNumber (text : CString) : Option (Bool × Nat) :=
  if text.bytes = [] then some (false, 0)
  else match scanNumber text.bytes with
    | some ⟨negative, magnitude, []⟩ => some (negative, magnitude)
    | _ => none

def safeAtoi (text : CString) : Option Int32 :=
  match wholeNumber text with
  | some (negative, magnitude) =>
    let value : Int := if negative then -magnitude else magnitude
    if -2 ^ 31 ≤ value ∧ value < 2 ^ 31 then some (Int32.ofInt value) else none
  | none => none

-- strtoul negates modulo 2^64.
def parsePid (text : CString) : Option Int32 :=
  match wholeNumber text with
  | some (negative, magnitude) =>
    let value := if negative then (2 ^ 64 - magnitude) % 2 ^ 64 else magnitude
    if magnitude < 2 ^ 64 ∧ 0 < value ∧ value < 2 ^ 31 then some (Int32.ofNat value) else none
  | none => none

def printNat (number : Nat) : CString :=
  .ofBuffer (decimal 20 number)

def printInt (number : Int32) : CString :=
  .ofBuffer ((if number.toInt < 0 then [45] else []) ++ decimal 20 number.toInt.natAbs)

-- %lli clamps to the range of long long, %llu to that of unsigned long long.
def dualTimestampDeserialize (text : CString) (t : DualTimestamp) : DualTimestamp :=
  match scanNumber text.bytes with
  | some ⟨negative, magnitude, rest⟩ =>
    let realtime := if negative then 2 ^ 64 - min magnitude (2 ^ 63) else min magnitude (2 ^ 63 - 1)
    let monotonic := rest.dropWhile isSpace
    if monotonic.head?.any (isDigitOf 10) then
      ⟨UInt64.ofNat realtime, UInt64.ofNat (min (scanDigits 10 0 monotonic).1 (2 ^ 64 - 1))⟩
    else t
  | none => t

theorem digitValue_digit {digit : Nat} (bound : digit < 10) :
    digitValue (UInt8.ofNat (48 + digit)) = some digit := by
  interval_cases digit <;> rfl

theorem isDigitOf_digit {base digit : Nat} (bound : digit < 10) (inBase : digit < base) :
    isDigitOf base (UInt8.ofNat (48 + digit)) = true := by
  rw [isDigitOf, digitValue_digit bound]
  simpa using inBase

theorem scanDigits_append (value : Nat) (digits rest : List UInt8)
    (each : ∀ byte ∈ digits, isDigitOf 10 byte = true) :
    scanDigits 10 value (digits ++ rest) = scanDigits 10 (scanDigits 10 value digits).1 rest := by
  induction digits generalizing value with
  | nil => rfl
  | cons byte digits ih =>
    have here := each byte List.mem_cons_self
    simp only [List.cons_append, scanDigits, here, if_true]
    exact ih _ fun other mem => each other (List.mem_cons_of_mem _ mem)

theorem decimal_digits (digits number : Nat) :
    ∀ byte ∈ decimal digits number, isDigitOf 10 byte = true := by
  intro byte mem
  obtain ⟨digit, bound, rfl⟩ := decimal_digit mem
  exact isDigitOf_digit bound bound

theorem scanDigits_stop (base value : Nat) (rest : List UInt8)
    (stop : ∀ byte ∈ rest.head?, isDigitOf base byte = false) :
    scanDigits base value rest = (value, rest) := by
  cases rest with
  | nil => rfl
  | cons byte rest =>
    have here := stop byte rfl
    simp [scanDigits, here]

variable {number digits : Nat}

theorem scanDigits_decimal (bound : number < 10 ^ digits) :
    (scanDigits 10 0 (decimal digits number)).1 = number := by
  induction digits generalizing number with
  | zero =>
    have zero : number = 0 := by simpa using bound
    simp [decimal, scanDigits, zero]
  | succ digits ih =>
    have last : number % 10 < 10 := Nat.mod_lt _ (by omega)
    rw [decimal]
    split
    · rename_i small
      rw [List.nil_append, scanDigits, if_pos (isDigitOf_digit last last), digitValue_digit last]
      simp [scanDigits, Nat.mod_eq_of_lt small]
    · rw [scanDigits_append _ _ _ (decimal_digits _ _), ih (by rw [Nat.pow_succ] at bound; omega),
        scanDigits, if_pos (isDigitOf_digit last last), digitValue_digit last]
      simp only [scanDigits, Option.getD_some]
      omega

theorem decimal_head (bound : number < 10 ^ digits) (pos : 0 < number) :
    ∃ digit, 0 < digit ∧ digit < 10 ∧ ∃ more, decimal digits number = UInt8.ofNat (48 + digit) :: more := by
  induction digits generalizing number with
  | zero => simp at bound; omega
  | succ digits ih =>
    rw [decimal]
    split
    · rename_i small
      exact ⟨number, pos, small, [], by rw [Nat.mod_eq_of_lt small]; rfl⟩
    · obtain ⟨digit, above, below, more, same⟩ :=
        ih (by rw [Nat.pow_succ] at bound; omega : number / 10 < 10 ^ digits) (by omega)
      exact ⟨digit, above, below, more ++ [UInt8.ofNat (48 + number % 10)], by rw [same]; rfl⟩

theorem detectBase_decimal {first : UInt8} (nonzero : first ≠ 48) (rest : List UInt8) :
    detectBase (first :: rest) = (10, first :: rest) := by
  cases rest with
  | nil => simp [detectBase, nonzero]
  | cons second rest =>
    cases rest with
    | nil => simp [detectBase, nonzero]
    | cons third rest => simp [detectBase, nonzero]

theorem detectBase_zero {rest : List UInt8} (stop : ∀ byte ∈ rest.head?, digitValue byte = none) :
    detectBase (48 :: rest) = (8, 48 :: rest) := by
  cases rest with
  | nil => rfl
  | cons second rest =>
    have here := stop second rfl
    have notX : ¬ (second = 120 ∨ second = 88) := by
      rintro (rfl | rfl)
      · simp [digitValue] at here
      · simp [digitValue] at here
    cases rest with
    | nil => rfl
    | cons third rest => simp [detectBase, notX]

section

variable (bound : number < 10 ^ digits)
include bound

theorem scanMagnitude_decimal (room : 0 < digits) (rest : List UInt8)
    (stop : ∀ byte ∈ rest.head?, digitValue byte = none) :
    scanMagnitude (decimal digits number ++ rest) = some (number, rest) := by
  have stops : ∀ base, ∀ byte ∈ rest.head?, isDigitOf base byte = false := fun base byte head => by
    simp [isDigitOf, stop byte head]
  rcases Nat.eq_zero_or_pos number with rfl | pos
  · obtain ⟨digits, rfl⟩ := Nat.exists_eq_succ_of_ne_zero (Nat.pos_iff_ne_zero.mp room)
    have text : decimal (digits + 1) 0 ++ rest = 48 :: rest := by simp [decimal]
    have isDigit : isDigitOf 8 48 = true := by decide
    have value : scanDigits 8 0 (48 :: rest) = (0, rest) := by
      rw [scanDigits, if_pos isDigit]
      exact scanDigits_stop 8 0 rest (stops 8)
    rw [text]
    simp [scanMagnitude, detectBase_zero stop, value, isDigit]
  · obtain ⟨digit, above, below, more, text⟩ := decimal_head bound pos
    have value : scanDigits 10 0 (decimal digits number ++ rest) = (number, rest) := by
      rw [scanDigits_append _ _ _ (decimal_digits _ _), scanDigits_decimal bound]
      exact scanDigits_stop 10 number rest (stops 10)
    have nonzero : UInt8.ofNat (48 + digit) ≠ 48 := by interval_cases digit <;> decide
    have isDigit := isDigitOf_digit below below
    rw [text, List.cons_append] at value ⊢
    simp only [scanMagnitude, detectBase_decimal nonzero, List.head?_cons, Option.any_some, isDigit,
      if_true, value]

theorem scanNumber_decimal (room : 0 < digits) (rest : List UInt8)
    (stop : ∀ byte ∈ rest.head?, digitValue byte = none) :
    scanNumber (decimal digits number ++ rest) = some ⟨false, number, rest⟩ := by
  obtain ⟨digits, rfl⟩ := Nat.exists_eq_succ_of_ne_zero (Nat.pos_iff_ne_zero.mp room)
  have nonempty : decimal (digits + 1) number ≠ [] := by simp [decimal]
  obtain ⟨first, more, text⟩ := List.exists_cons_of_ne_nil nonempty
  obtain ⟨digit, below, rfl⟩ := decimal_digit (text ▸ List.mem_cons_self : first ∈ decimal (digits + 1) number)
  have noSpace : isSpace (UInt8.ofNat (48 + digit)) = false := by interval_cases digit <;> rfl
  have noMinus : UInt8.ofNat (48 + digit) ≠ 45 := by interval_cases digit <;> decide
  have noPlus : UInt8.ofNat (48 + digit) ≠ 43 := by interval_cases digit <;> decide
  have magnitude := scanMagnitude_decimal bound room rest stop
  rw [text, List.cons_append] at magnitude ⊢
  simp only [scanNumber, List.dropWhile_cons, noSpace, Bool.false_eq_true, if_false, List.head?_cons,
    Option.some.injEq, noMinus, noPlus, or_self, magnitude, Option.map_some, decide_false]

theorem scanNumber_negative (room : 0 < digits) :
    scanNumber (45 :: decimal digits number) = some ⟨true, number, []⟩ := by
  have magnitude := scanMagnitude_decimal bound room [] (by simp)
  rw [List.append_nil] at magnitude
  have noSpace : isSpace 45 = false := by decide
  simp only [scanNumber, List.dropWhile_cons, noSpace, Bool.false_eq_true, if_false, List.head?_cons,
    true_or, if_true, List.tail_cons, magnitude, Option.map_some, decide_true]

end

theorem decimal_terminated (digits number : Nat) : (0 : UInt8) ∉ decimal digits number := by
  intro mem
  have digit := decimal_digits digits number 0 mem
  simp [isDigitOf, digitValue] at digit

theorem wholeNumber_printNat (bound : number < 10 ^ 20) :
    wholeNumber (printNat number) = some (false, number) := by
  have bytes : (printNat number).bytes = decimal 20 number :=
    CString.ofBuffer_bytes (decimal_terminated 20 number)
  have scanned := scanNumber_decimal bound (by decide) [] (by simp)
  rw [List.append_nil] at scanned
  have nonempty : decimal 20 number ≠ [] := by simp [decimal]
  rw [wholeNumber, bytes, if_neg nonempty, scanned]

theorem parsePid_printNat {pid : Int32} (pos : 0 < pid) :
    parsePid (printNat pid.toInt.toNat) = some pid := by
  have above : 0 < pid.toInt := by simpa [Int32.lt_iff_toInt_lt] using pos
  have below := pid.toInt_lt
  have magnitude : (pid.toInt.toNat : Int) = pid.toInt := Int.toNat_of_nonneg above.le
  have same : Int32.ofNat pid.toInt.toNat = pid := by
    apply Int32.toInt.inj
    rw [Int32.toInt_ofNat_of_lt (by omega), magnitude]
  rw [parsePid, wholeNumber_printNat (by omega)]
  simp only [Bool.false_eq_true, if_false]
  rw [if_pos (by omega), same]

theorem wholeNumber_printInt (number : Int32) :
    wholeNumber (printInt number) = some (decide (number.toInt < 0), number.toInt.natAbs) := by
  have below := number.toInt_lt
  have above := number.le_toInt
  have bound : number.toInt.natAbs < 10 ^ 20 := by omega
  have terminated := decimal_terminated 20 number.toInt.natAbs
  have nonempty : decimal 20 number.toInt.natAbs ≠ [] := by simp [decimal]
  by_cases negative : number.toInt < 0
  · have bytes : (printInt number).bytes = 45 :: decimal 20 number.toInt.natAbs := by
      rw [printInt, if_pos negative, CString.ofBuffer_bytes]
      · rfl
      · simpa using terminated
    rw [wholeNumber, bytes, if_neg (by simp), scanNumber_negative bound (by decide)]
    simp [negative]
  · have bytes : (printInt number).bytes = decimal 20 number.toInt.natAbs := by
      rw [printInt, if_neg negative, List.nil_append, CString.ofBuffer_bytes terminated]
    have scanned := scanNumber_decimal bound (by decide) [] (by simp)
    rw [List.append_nil] at scanned
    rw [wholeNumber, bytes, if_neg nonempty, scanned]
    simp [negative]

theorem safeAtoi_printInt (number : Int32) : safeAtoi (printInt number) = some number := by
  have below := number.toInt_lt
  have above := number.le_toInt
  have value : (if decide (number.toInt < 0) = true then -(number.toInt.natAbs : Int)
      else number.toInt.natAbs) = number.toInt := by
    split_ifs with negative
    · have := of_decide_eq_true negative
      omega
    · have := of_decide_eq_false (Bool.eq_false_iff.mpr negative)
      omega
  rw [safeAtoi, wholeNumber_printInt]
  simp only [value]
  rw [if_pos ⟨above, below⟩, Int32.ofInt_toInt]

theorem dualTimestampDeserialize_print (t other : DualTimestamp) :
    dualTimestampDeserialize t.print other =
      ⟨UInt64.ofNat (min t.realtime.toNat (2 ^ 63 - 1)), t.monotonic⟩ := by
  have first := t.realtime.toNat_lt
  have second := t.monotonic.toNat_lt
  have space : ∀ rest : List UInt8, ∀ byte ∈ (' '.toUInt8 :: rest).head?, digitValue byte = none := by
    intro rest byte head
    obtain rfl : ' '.toUInt8 = byte := by simpa using head
    rfl
  have scanned := scanNumber_decimal (by omega : t.realtime.toNat < 10 ^ 20) (by decide) _
    (space (decimal 20 t.monotonic.toNat))
  have value := scanDigits_decimal (by omega : t.monotonic.toNat < 10 ^ 20)
  have nonempty : decimal 20 t.monotonic.toNat ≠ [] := by simp [decimal]
  obtain ⟨digit, more, text⟩ := List.exists_cons_of_ne_nil nonempty
  have isDigit := decimal_digits 20 t.monotonic.toNat digit (text ▸ List.mem_cons_self)
  have noSpace : isSpace digit = false := by
    obtain ⟨value, below, rfl⟩ := decimal_digit (text ▸ List.mem_cons_self : digit ∈ decimal 20 _)
    interval_cases value <;> rfl
  have skipped : (' '.toUInt8 :: decimal 20 t.monotonic.toNat).dropWhile isSpace =
      decimal 20 t.monotonic.toNat := by
    have isBlank : isSpace ' '.toUInt8 = true := by decide
    rw [List.dropWhile_cons, if_pos isBlank, text, List.dropWhile_cons, if_neg (by simp [noSpace])]
  have head : (decimal 20 t.monotonic.toNat).head?.any (isDigitOf 10) = true := by
    rw [text]
    exact isDigit
  have unclamped : min t.monotonic.toNat (2 ^ 64 - 1) = t.monotonic.toNat := by omega
  rw [dualTimestampDeserialize, print_bytes, scanned]
  simp only [Bool.false_eq_true, if_false, skipped, head, if_true, value, unclamped,
    UInt64.ofNat_toNat]

theorem isSet_dualTimestampDeserialize (t other : DualTimestamp) :
    (dualTimestampDeserialize t.print other).isSet = t.isSet := by
  have clamped : (UInt64.ofNat (min t.realtime.toNat (2 ^ 63 - 1))).toNat =
      min t.realtime.toNat (2 ^ 63 - 1) := UInt64.toNat_ofNat_of_lt (by
        show min t.realtime.toNat (2 ^ 63 - 1) < 2 ^ 64
        omega)
  have zero : (0 : UInt64).toNat = 0 := rfl
  simp only [dualTimestampDeserialize_print, DualTimestamp.isSet, gt_iff_lt, UInt64.lt_iff_toNat_lt,
    clamped, zero, decide_eq_decide]
  omega

end Systemd.Serialization
