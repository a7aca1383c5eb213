import Systemd.Basic.CString

set_option autoImplicit false

namespace Systemd

open List Option

def backslashByte : UInt8 := '\\'.toUInt8

def doubleQuote : UInt8 := 34

def singleQuote : UInt8 := 39

def letterEscapes : List (UInt8 × UInt8) :=
  [('a'.toUInt8, 7), ('b'.toUInt8, 8), ('f'.toUInt8, 12), ('n'.toUInt8, 10), ('r'.toUInt8, 13),
    ('t'.toUInt8, 9), ('v'.toUInt8, 11), (backslashByte, backslashByte), (doubleQuote, doubleQuote),
    (singleQuote, singleQuote)]

-- x & 7 is the remainder modulo 8.
def octchar (value : Nat) : UInt8 :=
  '0'.toUInt8 + UInt8.ofNat (value % 8)

-- none stands for the error value -1.
def unoctchar (byte : UInt8) : Option Nat :=
  if signedChar '0'.toUInt8 ≤ signedChar byte ∧ signedChar byte ≤ signedChar '7'.toUInt8 then
    some (signedChar byte - signedChar '0'.toUInt8).toNat
  else
    none

def special (byte : UInt8) : Bool :=
  signedChar byte < signedChar ' '.toUInt8 || 127 ≤ signedChar byte

def cescapeByte (byte : UInt8) : List UInt8 :=
  match letterEscapes.find? (·.2 = byte) with
  | some (letter, _) => [backslashByte, letter]
  | none =>
    if special byte then
      [backslashByte, octchar (byte.toNat >>> 6), octchar (byte.toNat >>> 3), octchar byte.toNat]
    else
      [byte]

def cescape (s : CString) : CString :=
  .ofBuffer (s.bytes.flatMap cescapeByte)

def xescapeByte (bad : CString) (byte : UInt8) : List UInt8 :=
  if special byte || byte = backslashByte || bad.bytes.contains byte then
    [backslashByte, 'x'.toUInt8, hexchar (signedChar byte >>> (4 : Nat)), hexchar (signedChar byte)]
  else
    [byte]

def xescape (s bad : CString) : CString :=
  .ofBuffer (s.bytes.flatMap (xescapeByte bad))

def hexEscape (f : List UInt8) : Option UInt8 := do
  let a ← unhexchar (f.headD 0)
  let b ← unhexchar (f.tail.headD 0)
  some (UInt8.ofNat (a <<< 4 ||| b))

def octEscape (f : List UInt8) : Option UInt8 := do
  let a ← unoctchar (f.headD 0)
  let b ← unoctchar (f.tail.headD 0)
  let c ← unoctchar (f.tail.tail.headD 0)
  some (UInt8.ofNat (a <<< 6 ||| b <<< 3 ||| c))

/-- The switch behind a backslash, where f is what follows it up to the terminating NUL: what is
written, and how far f is moved. none stands for the end of the string, behind which nothing is read. -/
def unescapeSwitch (f : List UInt8) : List UInt8 × Option Nat :=
  match f with
  | [] => ([backslashByte], none)
  | c :: rest =>
    match letterEscapes.find? (·.1 = c) with
    | some (_, byte) => ([byte], some 0)
    | none =>
      if c = 's'.toUInt8 then
        ([' '.toUInt8], some 0)
      else if c = 'x'.toUInt8 then
        match hexEscape rest with
        | some byte => ([byte], some 2)
        | none => ([backslashByte, 'x'.toUInt8], some 0)
      else if (unoctchar c).isSome then
        match octEscape f with
        | some byte => ([byte], some 2)
        | none => ([backslashByte, c], some 0)
      else
        ([backslashByte, c], some 0)

-- The second argument counts the characters that f has been moved past already.
def cunescapeLoop : Nat -> Nat -> List UInt8 -> List UInt8
  | 0, _, _ => []
  | length + 1, skipped + 1, f => cunescapeLoop length skipped f.tail
  | length + 1, 0, f =>
    if f.headD 0 ≠ backslashByte then
      f.headD 0 :: cunescapeLoop length 0 f.tail
    else
      match unescapeSwitch f.tail with
      | (written, none) => written
      | (written, some moved) => written ++ cunescapeLoop length (moved + 1) f.tail

def cunescapeLength (s : List UInt8) (length : Nat) : List UInt8 :=
  cunescapeLoop length 0 s

def cunescape (s : CString) : CString :=
  .ofBuffer (cunescapeLength s.bytes s.bytes.length)

theorem cunescapeLoop_skip (length skipped : Nat) (f : List UInt8) :
    cunescapeLoop length skipped f = cunescapeLoop (length - skipped) 0 (f.drop skipped) := by
  induction skipped generalizing length f with
  | zero => rfl
  | succ skipped ih =>
    cases length with
    | zero => simp [cunescapeLoop]
    | succ length =>
      rw [cunescapeLoop, ih, Nat.succ_sub_succ]
      cases f <;> simp

theorem cunescapeLength_zero (f : List UInt8) : cunescapeLength f 0 = [] := rfl

variable {byte : UInt8} {code : UInt8 -> List UInt8}

theorem cunescapeLength_plain (plain : byte ≠ backslashByte) (f : List UInt8) (length : Nat) :
    cunescapeLength (byte :: f) (length + 1) = byte :: cunescapeLength f length := by
  simp [cunescapeLength, cunescapeLoop, plain]

theorem cunescapeLength_escape (f : List UInt8) (length : Nat) :
    cunescapeLength (backslashByte :: f) (length + 1) =
      match unescapeSwitch f with
      | (written, none) => written
      | (written, some moved) =>
        written ++ cunescapeLength (f.drop (moved + 1)) (length - (moved + 1)) := by
  simp only [cunescapeLength, cunescapeLoop, headD_cons, ne_eq, not_true_eq_false, if_false,
    tail_cons]
  rcases unescapeSwitch f with ⟨written, _ | moved⟩
  · rfl
  · simp only [cunescapeLoop_skip length]

def Decodes (code : List UInt8) (byte : UInt8) : Prop :=
  ∀ (rest : List UInt8) (length : Nat),
    cunescapeLength (code ++ rest) (code.length + length) = byte :: cunescapeLength rest length

theorem Decodes.plain (plain : byte ≠ backslashByte) : Decodes [byte] byte := by
  intro rest length
  rw [length_singleton, Nat.add_comm]
  exact cunescapeLength_plain plain rest length

theorem Decodes.escape {code : List UInt8} (moved : Nat) (counted : code.length = moved + 1)
    (switched : ∀ rest, unescapeSwitch (code ++ rest) = ([byte], some moved)) :
    Decodes (backslashByte :: code) byte := by
  intro rest length
  rw [length_cons, cons_append, show code.length + 1 + length = code.length + length + 1 by omega,
    cunescapeLength_escape, switched]
  simp [← counted]

theorem Decodes.flatMap {bytes : List UInt8} (each : ∀ byte ∈ bytes, Decodes (code byte) byte)
    (rest : List UInt8) (length : Nat) :
    cunescapeLength (bytes.flatMap code ++ rest) ((bytes.flatMap code).length + length) =
      bytes ++ cunescapeLength rest length := by
  induction bytes with
  | nil => simp
  | cons byte bytes ih =>
    obtain ⟨first, others⟩ := forall_mem_cons.mp each
    rw [flatMap_cons, append_assoc, length_append, Nat.add_assoc, first, ih others,
      cons_append]

theorem unoctchar_octchar (value : Nat) : unoctchar (octchar value) = some (value % 8) := by
  have each : ∀ digit < 8, unoctchar ('0'.toUInt8 + UInt8.ofNat digit) = some digit := by decide
  exact each (value % 8) (Nat.mod_lt value (by decide))

theorem octchar_digit (value : Nat) :
    octchar value ∈ List.map (fun digit => '0'.toUInt8 + UInt8.ofNat digit) (List.range 8) := by
  rw [octchar]
  exact mem_map_of_mem (mem_range.mpr (Nat.mod_lt value (by decide)))

theorem letterEscapes_decode {letter : UInt8} (mem : (letter, byte) ∈ letterEscapes) :
    Decodes [backslashByte, letter] byte := by
  have found : letterEscapes.find? (·.1 = letter) = some (letter, byte) := by
    have each : letterEscapes.all (fun entry =>
        decide (letterEscapes.find? (·.1 = entry.1) = some entry)) = true := by
      decide
    simpa using all_eq_true.mp each (letter, byte) mem
  refine .escape 0 rfl fun rest => ?_
  rw [cons_append, unescapeSwitch, found]

theorem octEscape_octchar (byte : UInt8) (rest : List UInt8) :
    octEscape (octchar (byte.toNat >>> 6) :: octchar (byte.toNat >>> 3) :: octchar byte.toNat :: rest) =
      some byte := by
  have joined : ∀ byte : UInt8, UInt8.ofNat ((byte.toNat >>> 6 % 8) <<< 6 |||
      (byte.toNat >>> 3 % 8) <<< 3 ||| byte.toNat % 8) = byte := by
    apply forall_byte
    decide +kernel
  simp only [octEscape, headD_cons, tail_cons, unoctchar_octchar, bind_eq_bind,
    bind_some, joined]

theorem octal_decodes (byte : UInt8) :
    Decodes [backslashByte, octchar (byte.toNat >>> 6), octchar (byte.toNat >>> 3), octchar byte.toNat]
      byte := by
  refine .escape 2 rfl fun rest => ?_
  have other : ∀ digit ∈ List.map (fun digit => '0'.toUInt8 + UInt8.ofNat digit) (List.range 8),
      letterEscapes.find? (·.1 = digit) = none ∧ digit ≠ 's'.toUInt8 ∧ digit ≠ 'x'.toUInt8 := by
    decide
  obtain ⟨letter, space, hex⟩ := other _ (octchar_digit (byte.toNat >>> 6))
  simp only [cons_append, nil_append]
  rw [unescapeSwitch, letter]
  simp [space, hex, unoctchar_octchar, octEscape_octchar]

theorem hexadecimal_decodes (byte : UInt8) :
    Decodes [backslashByte, 'x'.toUInt8, hexchar (signedChar byte >>> (4 : Nat)), hexchar (signedChar byte)]
      byte := by
  refine .escape 2 rfl fun rest => ?_
  have joined : ∀ byte : UInt8, UInt8.ofNat ((byte.toNat / 16) <<< 4 ||| byte.toNat % 16) = byte := by
    apply forall_byte
    decide +kernel
  have letter : letterEscapes.find? (·.1 = 'x'.toUInt8) = none := by decide
  have apart : 'x'.toUInt8 ≠ 's'.toUInt8 := by decide
  simp only [cons_append, nil_append]
  rw [unescapeSwitch, letter]
  simp only [apart, if_false, if_true, hexEscape, headD_cons, tail_cons,
    unhexchar_hexchar_high, unhexchar_hexchar_low, bind_eq_bind, bind_some, joined]

theorem cescapeByte_decodes (byte : UInt8) : Decodes (cescapeByte byte) byte := by
  unfold cescapeByte
  split
  next letter same found =>
    obtain rfl : same = byte := by simpa using find?_some found
    exact letterEscapes_decode (mem_of_find?_eq_some found)
  next none =>
    split
    next => exact octal_decodes byte
    next =>
      refine .plain fun same => ?_
      simp [same, letterEscapes] at none

variable (s bad : CString)

theorem xescapeByte_decodes (byte : UInt8) : Decodes (xescapeByte bad byte) byte := by
  unfold xescapeByte
  split
  next => exact hexadecimal_decodes byte
  next plain => exact .plain (by simp_all)

def Printable (byte : UInt8) : Prop :=
  ' '.toUInt8 ≤ byte ∧ byte < 127

instance (byte : UInt8) : Decidable (Printable byte) :=
  inferInstanceAs (Decidable (_ ∧ _))

theorem printable_of_plain (plain : special byte = false) : Printable byte := by
  revert byte
  apply forall_byte
  decide +kernel

theorem hexTable_printable : ∀ byte ∈ hexTable, Printable byte := by decide

theorem cescapeByte_printable (byte : UInt8) : ∀ c ∈ cescapeByte byte, Printable c := by
  revert byte
  apply forall_byte
  decide +kernel

theorem xescapeByte_pieces (byte : UInt8) :
    (xescapeByte bad byte = [byte] ∧ byte ∉ bad.bytes ∧ Printable byte) ∨
      ∃ high ∈ hexTable, ∃ low ∈ hexTable,
        xescapeByte bad byte = [backslashByte, 'x'.toUInt8, high, low] := by
  unfold xescapeByte
  split
  next => exact .inr ⟨_, hexchar_mem _, _, hexchar_mem _, rfl⟩
  next plain =>
    simp only [Bool.or_eq_true, not_or, contains_iff_mem, Bool.not_eq_true] at plain
    exact .inl ⟨rfl, plain.2, printable_of_plain plain.1.1⟩

theorem xescapeByte_printable (byte : UInt8) : ∀ c ∈ xescapeByte bad byte, Printable c := by
  intro c mem
  rcases xescapeByte_pieces bad byte with ⟨code, -, plain⟩ | ⟨high, isHigh, low, isLow, code⟩
  · rw [code, mem_singleton] at mem
    exact mem ▸ plain
  · rw [code] at mem
    simp only [mem_cons, not_mem_nil, or_false] at mem
    rcases mem with rfl | rfl | rfl | rfl
    · decide
    · decide
    · exact hexTable_printable _ isHigh
    · exact hexTable_printable _ isLow

theorem flatMap_printable (each : ∀ byte, ∀ c ∈ code byte, Printable c) (bytes : List UInt8) :
    ∀ c ∈ bytes.flatMap code, Printable c := by
  intro c mem
  obtain ⟨byte, -, written⟩ := mem_flatMap.mp mem
  exact each byte c written

theorem ofBuffer_printable (each : ∀ byte, ∀ c ∈ code byte, Printable c) (bytes : List UInt8) :
    (CString.ofBuffer (bytes.flatMap code)).bytes = bytes.flatMap code :=
  CString.ofBuffer_bytes fun mem => absurd (flatMap_printable each bytes 0 mem) (by decide)

theorem cescape_bytes : (cescape s).bytes = s.bytes.flatMap cescapeByte :=
  ofBuffer_printable cescapeByte_printable s.bytes

theorem xescape_bytes : (xescape s bad).bytes = s.bytes.flatMap (xescapeByte bad) :=
  ofBuffer_printable (xescapeByte_printable bad) s.bytes

theorem cunescape_flatMap (each : ∀ byte, Decodes (code byte) byte) {s escaped : CString}
    (written : escaped.bytes = s.bytes.flatMap code) : cunescape escaped = s := by
  have decoded := Decodes.flatMap (fun byte (_ : byte ∈ s.bytes) => each byte) [] 0
  rw [cunescapeLength_zero, append_nil, append_nil, Nat.add_zero, ← written] at decoded
  rw [cunescape, decoded, CString.ofBuffer_self]

/-- Both ways to escape a string are undone by cunescape and print nothing but ASCII. A character of bad
is only part of an escape. -/
theorem cunescape_escaped :
    cunescape (cescape s) = s ∧ cunescape (xescape s bad) = s ∧
      (∀ c ∈ (cescape s).bytes ++ (xescape s bad).bytes, Printable c) ∧
      (∃ pieces : List (List UInt8), (xescape s bad).bytes = pieces.flatten ∧ ∀ piece ∈ pieces,
        (∃ c, piece = [c] ∧ c ∉ bad.bytes) ∨
          ∃ high ∈ hexTable, ∃ low ∈ hexTable, piece = [backslashByte, 'x'.toUInt8, high, low]) ∧
      ∀ c ∈ (xescape s bad).bytes, c ∈ bad.bytes ->
        c = backslashByte ∨ c = 'x'.toUInt8 ∨ c ∈ hexTable := by
  refine ⟨cunescape_flatMap cescapeByte_decodes (cescape_bytes s),
    cunescape_flatMap (xescapeByte_decodes bad) (xescape_bytes s bad), ?_, ?_, ?_⟩
  · intro c mem
    rw [cescape_bytes, xescape_bytes] at mem
    rcases mem_append.mp mem with written | written
    · exact flatMap_printable cescapeByte_printable _ c written
    · exact flatMap_printable (xescapeByte_printable bad) _ c written
  · refine ⟨s.bytes.map (xescapeByte bad), by rw [xescape_bytes, flatMap_def], ?_⟩
    intro piece mem
    obtain ⟨byte, -, rfl⟩ := mem_map.mp mem
    exact (xescapeByte_pieces bad byte).imp_left fun ⟨code, good, _⟩ => ⟨byte, code, good⟩
  · intro c mem isBad
    rw [xescape_bytes] at mem
    obtain ⟨byte, -, written⟩ := mem_flatMap.mp mem
    rcases xescapeByte_pieces bad byte with ⟨code, good, -⟩ | ⟨high, isHigh, low, isLow, code⟩
    · rw [code, mem_singleton] at written
      exact absurd isBad (written ▸ good)
    · rw [code] at written
      simp only [mem_cons, not_mem_nil, or_false] at written
      rcases written with same | same | rfl | rfl
      · exact .inl same
      · exact .inr (.inl same)
      · exact .inr (.inr isHigh)
      · exact .inr (.inr isLow)

end Systemd
