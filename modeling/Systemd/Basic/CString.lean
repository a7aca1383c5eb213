import Mathlib.Data.List.Basic
import Mathlib.Data.List.TakeWhile

set_option autoImplicit false

namespace Systemd

open List

-- What holds of all bytes of a text is decided along the text, not by trying all bytes there are.
instance decidableAllBytes (p : UInt8 -> Prop) [DecidablePred p] (bytes : List UInt8) :
    Decidable (∀ byte ∈ bytes, p byte) :=
  List.decidableBAll p bytes

instance decidableSomeByte (p : UInt8 -> Prop) [DecidablePred p] (bytes : List UInt8) :
    Decidable (∃ byte ∈ bytes, p byte) :=
  List.decidableBEx p bytes

instance (priority := 1100) decidableFirstByte (p : UInt8 -> Prop) [DecidablePred p] (first : Option UInt8) :
    Decidable (∀ byte ∈ first, p byte) :=
  Option.decidableForallMem first

structure CString where
  bytes : List UInt8
  terminated : 0 ∉ bytes
  deriving DecidableEq

namespace CString

theorem eq_of_bytes {first second : CString} (same : first.bytes = second.bytes) : first = second := by
  cases first
  cases second
  simpa using same

-- What a reader of a char array sees: everything up to the first NUL.
def ofBuffer (buffer : List UInt8) : CString where
  bytes := buffer.takeWhile (· != 0)
  terminated := by
    intro mem
    have nonzero := mem_takeWhile_imp mem
    simp at nonzero

theorem ofBuffer_bytes {buffer : List UInt8} (terminated : 0 ∉ buffer) :
    (ofBuffer buffer).bytes = buffer := by
  apply takeWhile_eq_self_iff.mpr
  intro byte mem
  have distinct : byte ≠ 0 := fun same => terminated (same ▸ mem)
  simpa using distinct

@[simp] theorem ofBuffer_self (string : CString) : ofBuffer string.bytes = string :=
  eq_of_bytes (ofBuffer_bytes string.terminated)

def ofString (text : String) : CString :=
  ofBuffer (text.toList.map Char.toUInt8)

def append (first second : CString) : CString where
  bytes := first.bytes ++ second.bytes
  terminated := by
    simp [first.terminated, second.terminated]

end CString

-- char is signed on the platforms the program is built for.
def signedChar (byte : UInt8) : Int :=
  byte.toInt8.toInt

def hexTable : List UInt8 :=
  "0123456789abcdef".toList.map Char.toUInt8

-- On two's complement integers x & 15 is the remainder modulo 16.
def hexchar (value : Int) : UInt8 :=
  hexTable.getD (value % 16).toNat 0

theorem hexchar_mem (value : Int) : hexchar value ∈ hexTable := by
  have bound : (value % 16).toNat < hexTable.length := by
    have size : hexTable.length = 16 := by decide
    have pos := Int.emod_nonneg value (by decide : (16 : Int) ≠ 0)
    have small := Int.emod_lt_of_pos value (by decide : (0 : Int) < 16)
    omega
  rw [hexchar, getD_eq_getElem?_getD, getElem?_eq_getElem bound, Option.getD_some]
  exact getElem_mem bound

-- none stands for the error value -1.
def unhexchar (byte : UInt8) : Option Nat :=
  let value := signedChar byte
  if signedChar '0'.toUInt8 ≤ value ∧ value ≤ signedChar '9'.toUInt8 then
    some (value - signedChar '0'.toUInt8).toNat
  else if signedChar 'a'.toUInt8 ≤ value ∧ value ≤ signedChar 'f'.toUInt8 then
    some (value - signedChar 'a'.toUInt8 + 10).toNat
  else if signedChar 'A'.toUInt8 ≤ value ∧ value ≤ signedChar 'F'.toUInt8 then
    some (value - signedChar 'A'.toUInt8 + 10).toNat
  else
    none

theorem forall_byte {property : UInt8 -> Prop}
    (each : ∀ value < 256, property (UInt8.ofNat value)) (byte : UInt8) : property byte := by
  have holds := each byte.toNat byte.toNat_lt
  rwa [UInt8.ofNat_toNat] at holds

theorem unhexchar_hexchar_high (byte : UInt8) :
    unhexchar (hexchar (signedChar byte >>> (4 : Nat))) = some (byte.toNat / 16) := by
  revert byte
  apply forall_byte
  decide +kernel

theorem unhexchar_hexchar_low (byte : UInt8) :
    unhexchar (hexchar (signedChar byte)) = some (byte.toNat % 16) := by
  revert byte
  apply forall_byte
  decide +kernel

end Systemd
