import Mathlib.Data.List.DropRight
import Systemd.Basic.CString

set_option autoImplicit false

namespace Systemd

open List

def newline : UInt8 := '\n'.toUInt8

def equalsSign : UInt8 := '='.toUInt8

def whitespace : List UInt8 :=
  " \t\n\r".toList.map Char.toUInt8

def isWhitespace (byte : UInt8) : Bool :=
  whitespace.contains byte

def strip (bytes : List UInt8) : List UInt8 :=
  (bytes.dropWhile isWhitespace).rdropWhile isWhitespace

theorem strip_subset (bytes : List UInt8) : strip bytes ⊆ bytes := by
  intro byte mem
  have inside := (List.rdropWhile_prefix isWhitespace _).subset mem
  exact (dropWhile_suffix isWhitespace).subset inside

def strstrip (text : CString) : CString where
  bytes := strip text.bytes
  terminated := fun mem => text.terminated (strip_subset text.bytes mem)

theorem strstrip_bytes (text : CString) : (strstrip text).bytes = strip text.bytes := rfl

-- At most limit bytes, and none behind a newline.
def readBytes : Nat -> List UInt8 -> List UInt8 × List UInt8
  | 0, stream => ([], stream)
  | _ + 1, [] => ([], [])
  | limit + 1, byte :: stream =>
    if byte = newline then
      ([byte], stream)
    else
      let (line, rest) := readBytes limit stream
      (byte :: line, rest)

-- The buffer has room for size bytes with the terminating NUL.
def fgets (size : Nat) (stream : List UInt8) : Option (List UInt8 × List UInt8) :=
  if stream = [] then none else some (readBytes (size - 1) stream)

theorem readBytes_append (limit : Nat) (stream : List UInt8) :
    (readBytes limit stream).1 ++ (readBytes limit stream).2 = stream := by
  induction limit generalizing stream with
  | zero => rfl
  | succ limit ih =>
    cases stream with
    | nil => rfl
    | cons byte stream =>
      rw [readBytes]
      split
      · rfl
      · simp [ih stream]

theorem readBytes_nonempty {limit : Nat} (pos : 0 < limit) {stream : List UInt8}
    (more : stream ≠ []) : (readBytes limit stream).1 ≠ [] := by
  cases limit with
  | zero => omega
  | succ limit =>
    cases stream with
    | nil => exact absurd rfl more
    | cons byte stream =>
      rw [readBytes]
      split
      · simp
      · simp

theorem fgets_shorter {size : Nat} (room : 1 < size) {stream line rest : List UInt8}
    (read : fgets size stream = some (line, rest)) : rest.length < stream.length := by
  by_cases empty : stream = []
  · simp [fgets, empty] at read
  · rw [fgets, if_neg empty, Option.some.injEq] at read
    have whole := congrArg List.length (readBytes_append (size - 1) stream)
    have nonempty := length_pos_iff.mpr (readBytes_nonempty (by omega : 0 < size - 1) empty)
    simp only [read, length_append] at whole nonempty
    omega

theorem readBytes_line (limit : Nat) (line rest : List UInt8) (single : newline ∉ line) :
    readBytes limit (line ++ newline :: rest) =
      if line.length < limit then (line ++ [newline], rest)
      else (line.take limit, line.drop limit ++ newline :: rest) := by
  induction line generalizing limit with
  | nil =>
    cases limit with
    | zero => rfl
    | succ limit => simp [readBytes]
  | cons byte line ih =>
    rw [mem_cons, not_or] at single
    cases limit with
    | zero => rfl
    | succ limit =>
      have other : byte ≠ newline := fun same => single.1 same.symm
      rw [cons_append, readBytes, if_neg other, ih limit single.2]
      simp only [length_cons, Nat.add_lt_add_iff_right]
      split
      · rfl
      · rfl

theorem fgets_line (size : Nat) (line rest : List UInt8) (single : newline ∉ line) :
    fgets size (line ++ newline :: rest) =
      some (if line.length < size - 1 then (line ++ [newline], rest)
        else (line.take (size - 1), line.drop (size - 1) ++ newline :: rest)) := by
  rw [fgets, if_neg (by simp), readBytes_line (size - 1) line rest single]

-- l[strcspn(l, "=")] = 0
def splitAssignment (text : CString) : CString × CString :=
  ({ bytes := text.bytes.takeWhile (· != equalsSign)
     terminated := fun mem => text.terminated ((List.takeWhile_prefix _).subset mem) },
   { bytes := (text.bytes.dropWhile (· != equalsSign)).drop 1
     terminated := fun mem =>
      text.terminated ((dropWhile_suffix _).subset (mem_of_mem_drop mem)) })

theorem rdropWhile_append_cons {drops : UInt8 -> Bool} {front back : List UInt8} {kept : UInt8}
    (stays : drops kept = false) :
    (front ++ kept :: back).rdropWhile drops = front ++ kept :: back.rdropWhile drops := by
  rw [List.rdropWhile, List.rdropWhile, reverse_append, reverse_cons, append_assoc,
    singleton_append, dropWhile_append]
  split
  · next nothing =>
      rw [List.isEmpty_iff] at nothing
      simp [nothing, stays]
  · simp

def Plain (key : List UInt8) : Prop :=
  key ≠ [] ∧ ∀ byte ∈ key, byte ≠ equalsSign ∧ isWhitespace byte = false

theorem strip_assignment {key : List UInt8} (plain : Plain key) (value : List UInt8) :
    strip (key ++ equalsSign :: value) = key ++ equalsSign :: value.rdropWhile isWhitespace := by
  obtain ⟨nonempty, each⟩ := plain
  cases key with
  | nil => exact absurd rfl nonempty
  | cons byte key =>
    have first := (each byte (by simp)).2
    rw [strip, cons_append, dropWhile_cons, if_neg (by simp [first]),
      ← cons_append, rdropWhile_append_cons]
    decide

theorem splitAssignment_eq {key value : CString} {text : CString} (plain : Plain key.bytes)
    (written : text.bytes = key.bytes ++ equalsSign :: value.bytes) :
    splitAssignment text = (key, value) := by
  have whole : ∀ byte ∈ key.bytes, (byte != equalsSign) = true :=
    fun byte mem => by simpa using (plain.2 byte mem).1
  have name : text.bytes.takeWhile (· != equalsSign) = key.bytes := by
    rw [written, takeWhile_append_of_pos whole]
    simp
  have rest : (text.bytes.dropWhile (· != equalsSign)).drop 1 = value.bytes := by
    rw [written, dropWhile_append_of_pos whole]
    simp
  refine Prod.ext (CString.eq_of_bytes name) (CString.eq_of_bytes rest)

end Systemd
