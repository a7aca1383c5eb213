import Systemd.Units.Numbers

set_option autoImplicit false

namespace Systemd.Spans

open List

open Serialization (isSpace isDigitOf scanDigits)

inductive Errno where
  | range
  | invalid
  deriving DecidableEq

abbrev Table := List (List UInt8 × Nat)

def suffix (text : String) : List UInt8 :=
  text.toList.map Char.toUInt8

def usecPerMsec : Nat := 1000

def usecPerSec : Nat := 1000000

def usecPerMinute : Nat := 60 * usecPerSec

def usecPerHour : Nat := 60 * usecPerMinute

def usecPerDay : Nat := 24 * usecPerHour

def usecPerWeek : Nat := 7 * usecPerDay

def usecTable : Table :=
  [(suffix "sec", usecPerSec), (suffix "s", usecPerSec), (suffix "min", usecPerMinute),
    (suffix "hr", usecPerHour), (suffix "h", usecPerHour), (suffix "d", usecPerDay),
    (suffix "w", usecPerWeek), (suffix "msec", usecPerMsec), (suffix "ms", usecPerMsec),
    (suffix "m", usecPerMinute), (suffix "usec", 1), (suffix "us", 1), (suffix "", usecPerSec)]

def bytesTable : Table :=
  [(suffix "B", 1), (suffix "K", 1024), (suffix "M", 1024 * 1024), (suffix "G", 1024 * 1024 * 1024),
    (suffix "T", 1024 * 1024 * 1024 * 1024), (suffix "", 1)]

def behindSign (text : List UInt8) : List UInt8 :=
  if text.head? = some 45 ∨ text.head? = some 43 then text.tail else text

def strtoll (p : List UInt8) : Option (Bool × Nat × List UInt8) :=
  let text := p.dropWhile isSpace
  if (behindSign text).head?.any (isDigitOf 10) then
    some (text.head? = some 45, scanDigits 10 0 (behindSign text))
  else
    none

-- The first entry whose suffix the text starts with.
def usedSuffix (table : Table) (e : List UInt8) : Option (List UInt8 × Nat) :=
  table.find? fun entry => entry.1.isPrefixOf e

-- Beyond the range of long long errno is set. A minus sign does no harm to a zero.
def outOfRange (negative : Bool) (l : Nat) : Bool :=
  if negative then 0 < l else 2 ^ 63 ≤ l

def parseItem (table : Table) (p : List UInt8) : Except Errno (Nat × Nat × List UInt8) :=
  match strtoll p with
  | none => .error .invalid
  | some (negative, l, e) =>
    if outOfRange negative l then
      .error .range
    else
      let e := e.dropWhile isWhitespace
      match usedSuffix table e with
      | some entry => .ok (l, entry.2, e.drop entry.1.length)
      | none => .error .invalid

theorem scanDigits_length (base value : Nat) (text : List UInt8) :
    (scanDigits base value text).2.length ≤ text.length := by
  induction text generalizing value with
  | nil => simp [scanDigits]
  | cons byte rest ih =>
    rw [scanDigits]
    split
    next => exact (ih _).trans (by simp)
    next => simp

theorem behindSign_length (text : List UInt8) : (behindSign text).length ≤ text.length := by
  unfold behindSign
  split
  next => simp
  next => exact Nat.le_refl _

theorem strtoll_shorter {p e : List UInt8} {negative : Bool} {l : Nat}
    (number : strtoll p = some (negative, l, e)) : e.length < p.length := by
  have blanks := (dropWhile_suffix isSpace (l := p)).length_le
  have unsigned := (behindSign_length (p.dropWhile isSpace)).trans blanks
  unfold strtoll at number
  cases digits : behindSign (p.dropWhile isSpace) with
  | nil => simp [digits] at number
  | cons byte rest =>
    rw [digits, length_cons] at unsigned
    by_cases digit : isDigitOf 10 byte = true
    next =>
      have scanned := scanDigits_length 10 (10 * 0 + (Serialization.digitValue byte).getD 0) rest
      simp only [digits, head?_cons, Option.any_some, digit, if_true, scanDigits,
        Option.some.injEq, Prod.mk.injEq] at number
      rw [number.2] at scanned
      exact Nat.lt_of_le_of_lt scanned unsigned
    next => simp [digits, digit] at number

theorem parseItem_shorter {table : Table} {p rest : List UInt8} {l factor : Nat}
    (item : parseItem table p = .ok (l, factor, rest)) : rest.length < p.length := by
  unfold parseItem at item
  cases number : strtoll p with
  | none => simp [number] at item
  | some scanned =>
    obtain ⟨negative, magnitude, e⟩ := scanned
    have shorter := strtoll_shorter number
    have blanks := (dropWhile_suffix isWhitespace (l := e)).length_le
    simp only [number] at item
    by_cases out : outOfRange negative magnitude = true
    next => simp [out] at item
    next =>
      cases unit : usedSuffix table (e.dropWhile isWhitespace) with
      | none => simp [out, unit] at item
      | some entry =>
        simp only [out, unit, Bool.false_eq_true, if_false, Except.ok.injEq, Prod.mk.injEq] at item
        rw [← item.2.2, length_drop]
        omega

variable {V : Type}

def parseLoop (table : Table) (add : V -> Nat -> Nat -> V) (r : V) (p : List UInt8) : Except Errno V :=
  match _item : parseItem table p with
  | .error errno => .error errno
  | .ok (l, factor, rest) =>
    if rest = [] then .ok (add r l factor) else parseLoop table add (add r l factor) rest
termination_by p.length
decreasing_by exact parseItem_shorter _item

def parseUsec (t : CString) : Except Errno UInt64 :=
  parseLoop usecTable (fun r l usec => r + UInt64.ofNat l * UInt64.ofNat usec) 0 t.bytes

-- The sum of off_t is one of two's complement.
def parseBytes (t : CString) : Except Errno Int64 :=
  parseLoop bytesTable (fun r l factor => r + Int64.ofNat l * Int64.ofNat factor) 0 t.bytes

def items (table : Table) (p : List UInt8) : Except Errno (List (Nat × Nat)) :=
  match _item : parseItem table p with
  | .error errno => .error errno
  | .ok (l, factor, rest) =>
    if rest = [] then .ok [(l, factor)] else (items table rest).map ((l, factor) :: ·)
termination_by p.length
decreasing_by exact parseItem_shorter _item

def total (items : List (Nat × Nat)) : Nat :=
  (items.map fun item => item.1 * item.2).sum

def Exact (sum : Except Errno Int) (read : Except Errno (List (Nat × Nat))) (limit : Nat) : Prop :=
  (∀ value, sum = .ok value -> ∃ list, read = .ok list ∧ value = total list) ∧
    ∀ list, read = .ok list -> limit ≤ total list -> ∃ errno, sum = .error errno

def UsecExact (t : CString) : Prop :=
  Exact ((parseUsec t).map fun value => (value.toNat : Int)) (items usecTable t.bytes) (2 ^ 64)

def BytesExact (t : CString) : Prop :=
  Exact ((parseBytes t).map (·.toInt)) (items bytesTable t.bytes) (2 ^ 63)

def Fits (read : Except Errno (List (Nat × Nat))) (limit : Nat) : Prop :=
  ∀ list, read = .ok list -> total list < limit

theorem parseLoop_items (table : Table) (add : V -> Nat -> Nat -> V) (r : V) (p : List UInt8) :
    parseLoop table add r p = (items table p).map fun list =>
      list.foldl (fun r item => add r item.1 item.2) r := by
  fun_induction parseLoop table add r p with
  | case1 r p errno item =>
    rw [items, item]
    rfl
  | case2 r p l factor item =>
    rw [items, item]
    rfl
  | case3 r p l factor rest item more ih =>
    rw [items, item, ih]
    simp only [if_neg more]
    cases items table rest <;> rfl

theorem foldl_usec (r : Nat) (list : List (Nat × Nat)) :
    list.foldl (fun r item => r + UInt64.ofNat item.1 * UInt64.ofNat item.2) (UInt64.ofNat r) =
      UInt64.ofNat (r + total list) := by
  induction list generalizing r with
  | nil => simp [total]
  | cons item list ih =>
    rw [foldl_cons, ← UInt64.ofNat_mul, ← UInt64.ofNat_add, ih]
    simp [total, Nat.add_assoc]

theorem foldl_bytes (r : Nat) (list : List (Nat × Nat)) :
    list.foldl (fun r item => r + Int64.ofNat item.1 * Int64.ofNat item.2) (Int64.ofNat r) =
      Int64.ofNat (r + total list) := by
  induction list generalizing r with
  | nil => simp [total]
  | cons item list ih =>
    rw [foldl_cons, ← Int64.ofNat_mul, ← Int64.ofNat_add, ih]
    simp [total, Nat.add_assoc]

variable (t : CString)

theorem parseUsec_items :
    parseUsec t = (items usecTable t.bytes).map fun list => UInt64.ofNat (total list) := by
  rw [parseUsec, parseLoop_items]
  congr 1
  funext list
  simpa using foldl_usec 0 list

theorem parseBytes_items :
    parseBytes t = (items bytesTable t.bytes).map fun list => Int64.ofNat (total list) := by
  rw [parseBytes, parseLoop_items]
  congr 1
  funext list
  simpa using foldl_bytes 0 list

theorem exact_iff {read : Except Errno (List (Nat × Nat))} (value : Nat -> Int) {limit : Nat}
    (within : ∀ sum, sum < limit -> value sum = sum) :
    Exact (read.map fun list => value (total list)) read limit ↔ Fits read limit := by
  constructor
  next =>
    rintro ⟨-, refused⟩ list same
    by_contra beyond
    obtain ⟨errno, failed⟩ := refused list same (Nat.not_lt.mp beyond)
    rw [same] at failed
    nomatch failed
  next =>
    intro fits
    refine ⟨?_, fun list same beyond => absurd (fits list same) (Nat.not_lt.mpr beyond)⟩
    intro result same
    cases it : read with
    | error errno =>
      rw [it] at same
      nomatch same
    | ok list =>
      rw [it] at same
      exact ⟨list, rfl, (Except.ok.inj same).symm.trans (within _ (fits list it))⟩

/-- Both functions are exact on the texts of which the sum fits, and on no others. -/
theorem parse_exact_iff :
    (UsecExact t ↔ Fits (items usecTable t.bytes) (2 ^ 64)) ∧
      (BytesExact t ↔ Fits (items bytesTable t.bytes) (2 ^ 63)) := by
  constructor
  next =>
    have usec : (parseUsec t).map (fun value => (value.toNat : Int)) =
        (items usecTable t.bytes).map fun list => ((UInt64.ofNat (total list)).toNat : Int) := by
      rw [parseUsec_items]
      cases items usecTable t.bytes <;> rfl
    rw [UsecExact, usec]
    refine exact_iff (fun sum => ((UInt64.ofNat sum).toNat : Int)) fun sum small => ?_
    rw [UInt64.toNat_ofNat_of_lt' small]
  next =>
    have bytes : (parseBytes t).map (·.toInt) =
        (items bytesTable t.bytes).map fun list => (Int64.ofNat (total list)).toInt := by
      rw [parseBytes_items]
      cases items bytesTable t.bytes <;> rfl
    rw [BytesExact, bytes]
    exact exact_iff (fun sum => (Int64.ofNat sum).toInt) fun sum small =>
      Int64.toInt_ofNat_of_lt small

theorem items_single {table : Table} {p : List UInt8} {l factor : Nat}
    (item : parseItem table p = .ok (l, factor, [])) : items table p = .ok [(l, factor)] := by
  rw [items, item]
  rfl

/-- More than half a million years, and as many bytes as an off_t cannot hold. -/
theorem parse_wraps : ¬ UsecExact (.ofString "30500569w") ∧ ¬ BytesExact (.ofString "8388608T") := by
  constructor
  next =>
    rintro ⟨-, refused⟩
    have read : items usecTable (CString.ofString "30500569w").bytes = .ok [(30500569, 604800000000)] :=
      items_single (by decide)
    obtain ⟨errno, failed⟩ := refused _ read (by decide)
    rw [parseUsec_items, read] at failed
    nomatch failed
  next =>
    rintro ⟨-, refused⟩
    have read : items bytesTable (CString.ofString "8388608T").bytes = .ok [(8388608, 1099511627776)] :=
      items_single (by decide)
    obtain ⟨errno, failed⟩ := refused _ read (by decide)
    rw [parseBytes_items, read] at failed
    nomatch failed

end Systemd.Spans
