import Systemd.Basic.CString

set_option autoImplicit false

namespace Systemd

open List

def validChars : List UInt8 :=
  ("0123456789" ++
    "abcdefghijklmnopqrstuvwxyz" ++
    "ABCDEFGHIJKLMNOPQRSTUVWXYZ" ++
    ":-_.\\").toList.map Char.toUInt8

def escapeByte (byte : UInt8) : List UInt8 :=
  if byte = '/'.toUInt8 then
    ['-'.toUInt8]
  else if byte = '-'.toUInt8 ∨ byte = '\\'.toUInt8 ∨ byte ∉ validChars then
    ['\\'.toUInt8, 'x'.toUInt8, hexchar (signedChar byte >>> (4 : Nat)), hexchar (signedChar byte)]
  else
    [byte]

def doEscape : List UInt8 -> List UInt8
  | [] => []
  | byte :: rest => escapeByte byte ++ doEscape rest

theorem hexchar_valid (value : Int) : hexchar value ∈ validChars := by
  have digits : ∀ digit ∈ hexTable, digit ∈ validChars := by decide
  exact digits _ (hexchar_mem value)

variable (byte : UInt8) (bytes : List UInt8)

theorem escapeByte_valid (written : UInt8) (mem : written ∈ escapeByte byte) :
    written ∈ validChars := by
  unfold escapeByte at mem
  split_ifs at mem with slash escaped
  · rw [mem_singleton.mp mem]
    decide
  · simp only [mem_cons, not_mem_nil, or_false] at mem
    rcases mem with rfl | rfl | rfl | rfl
    · decide
    · decide
    · exact hexchar_valid _
    · exact hexchar_valid _
  · simp only [not_or, not_not] at escaped
    rw [mem_singleton.mp mem]
    exact escaped.2.2

theorem doEscape_valid (written : UInt8) (mem : written ∈ doEscape bytes) : written ∈ validChars := by
  induction bytes with
  | nil => simp [doEscape] at mem
  | cons byte rest ih =>
    simp only [doEscape, mem_append] at mem
    rcases mem with head | tail
    · exact escapeByte_valid byte written head
    · exact ih tail

theorem doEscape_terminated : 0 ∉ doEscape bytes := by
  intro mem
  have valid := doEscape_valid bytes 0 mem
  revert valid
  decide

def unitNameEscape (string : CString) : CString where
  bytes := doEscape string.bytes
  terminated := doEscape_terminated string.bytes

-- f[1], f[2] and f[3] are only looked at as long as no NUL was met, so a
-- backslash with less than three bytes behind it is malformed.
def escapeCode : List UInt8 -> Option UInt8
  | mark :: high :: low :: _ =>
    if mark = 'x'.toUInt8 then
      match unhexchar high, unhexchar low with
      | some a, some b => some (UInt8.ofNat ((a <<< 4) ||| b))
      | _, _ => none
    else
      none
  | _ => none

def unescapeLoop : List UInt8 -> List UInt8
  | [] => []
  | byte :: rest =>
    if byte = '-'.toUInt8 then
      '/'.toUInt8 :: unescapeLoop rest
    else if byte = '\\'.toUInt8 then
      match escapeCode rest with
      | some decoded => decoded :: unescapeLoop (rest.drop 3)
      | none => '\\'.toUInt8 :: unescapeLoop rest
    else
      byte :: unescapeLoop rest
  termination_by bytes => bytes.length

def unitNameUnescape (string : CString) : CString :=
  CString.ofBuffer (unescapeLoop string.bytes)

theorem hexDigits_join : UInt8.ofNat (((byte.toNat / 16) <<< 4) ||| (byte.toNat % 16)) = byte := by
  revert byte
  apply forall_byte
  decide +kernel

theorem escapeCode_hex (rest : List UInt8) :
    escapeCode ('x'.toUInt8 :: hexchar (signedChar byte >>> (4 : Nat)) ::
      hexchar (signedChar byte) :: rest) = some byte := by
  simp only [escapeCode, if_true, unhexchar_hexchar_high, unhexchar_hexchar_low, hexDigits_join]

theorem unescapeLoop_escapeByte (rest : List UInt8) :
    unescapeLoop (escapeByte byte ++ rest) = byte :: unescapeLoop rest := by
  unfold escapeByte
  split_ifs with slash escaped
  · rw [singleton_append, unescapeLoop, if_pos rfl, slash]
  · have backslash : '\\'.toUInt8 ≠ '-'.toUInt8 := by decide
    simp only [cons_append, nil_append]
    rw [unescapeLoop, if_neg backslash, if_pos rfl, escapeCode_hex]
    simp
  · obtain ⟨dash, backslash, -⟩ : byte ≠ '-'.toUInt8 ∧ byte ≠ '\\'.toUInt8 ∧ byte ∈ validChars := by
      simpa using escaped
    rw [singleton_append, unescapeLoop, if_neg dash, if_neg backslash]

theorem unescapeLoop_doEscape : unescapeLoop (doEscape bytes) = bytes := by
  induction bytes with
  | nil => simp [doEscape, unescapeLoop]
  | cons byte rest ih => rw [doEscape, unescapeLoop_escapeByte, ih]

theorem unitNameUnescape_escape (string : CString) :
    unitNameUnescape (unitNameEscape string) = string := by
  simp [unitNameUnescape, unitNameEscape, unescapeLoop_doEscape]

theorem escape_reversible :
    (∀ string : CString, unitNameUnescape (unitNameEscape string) = string) ∧
      (∀ string : CString, ∀ byte ∈ (unitNameEscape string).bytes, byte ∈ validChars) ∧
      Function.Injective unitNameEscape := by
  refine ⟨unitNameUnescape_escape, ?_, ?_⟩
  · intro string byte mem
    exact doEscape_valid string.bytes byte mem
  · exact Function.LeftInverse.injective unitNameUnescape_escape

example : (unitNameEscape (CString.ofString "a-b/c@")).bytes =
    (CString.ofString "a\\x2db-c\\x40").bytes := by
  decide

end Systemd
