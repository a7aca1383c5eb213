import Systemd.Basic.Lines
import Systemd.Engine.JobType

set_option autoImplicit false

namespace Systemd.Serialization

open List

inductive UnitField where
  | job
  | inactiveExitTimestamp
  | activeEnterTimestamp
  | activeExitTimestamp
  | inactiveEnterTimestamp
  | conditionTimestamp
  | conditionResult
  deriving DecidableEq

namespace UnitField

def all : List UnitField :=
  [.job, .inactiveExitTimestamp, .activeEnterTimestamp, .activeExitTimestamp,
    .inactiveEnterTimestamp, .conditionTimestamp, .conditionResult]

def key : UnitField -> CString
  | .job => .ofString "job"
  | .inactiveExitTimestamp => .ofString "inactive-exit-timestamp"
  | .activeEnterTimestamp => .ofString "active-enter-timestamp"
  | .activeExitTimestamp => .ofString "active-exit-timestamp"
  | .inactiveEnterTimestamp => .ofString "inactive-enter-timestamp"
  | .conditionTimestamp => .ofString "condition-timestamp"
  | .conditionResult => .ofString "condition-result"

def ofKey (key : CString) : Option UnitField :=
  all.find? fun field => field.key = key

variable (field : UnitField)

theorem plain : Plain field.key.bytes := by
  cases field <;> exact ⟨by decide, by decide⟩

theorem length_le : field.key.bytes.length ≤ 24 := by
  cases field <;> decide

theorem ofKey_key : ofKey field.key = some field := by
  cases field <;> decide

end UnitField

inductive ItemKey where
  | state
  | failure
  | controlPid
  | controlCommand
  | mainPid
  | mainPidKnown
  | statusText
  | socketFd
  | mainExecStatusPid
  | mainExecStatusStart
  | mainExecStatusExit
  | mainExecStatusCode
  | mainExecStatusStatus
  | devId
  | token
  | pipeFd
  | cleanup
  | wants
  | nAccepted
  | netlink
  | socket
  | special
  | fifo
  deriving DecidableEq

def ItemKey.text : ItemKey -> CString
  | .state => .ofString "state"
  | .failure => .ofString "failure"
  | .controlPid => .ofString "control-pid"
  | .controlCommand => .ofString "control-command"
  | .mainPid => .ofString "main-pid"
  | .mainPidKnown => .ofString "main-pid-known"
  | .statusText => .ofString "status-text"
  | .socketFd => .ofString "socket-fd"
  | .mainExecStatusPid => .ofString "main-exec-status-pid"
  | .mainExecStatusStart => .ofString "main-exec-status-start"
  | .mainExecStatusExit => .ofString "main-exec-status-exit"
  | .mainExecStatusCode => .ofString "main-exec-status-code"
  | .mainExecStatusStatus => .ofString "main-exec-status-status"
  | .devId => .ofString "dev-id"
  | .token => .ofString "token"
  | .pipeFd => .ofString "pipe-fd"
  | .cleanup => .ofString "cleanup"
  | .wants => .ofString "wants"
  | .nAccepted => .ofString "n-accepted"
  | .netlink => .ofString "netlink"
  | .socket => .ofString "socket"
  | .special => .ofString "special"
  | .fifo => .ofString "fifo"

namespace ItemKey

variable (key : ItemKey)

theorem plain : Plain key.text.bytes := by
  cases key <;> exact ⟨by decide, by decide⟩

theorem not_field : UnitField.ofKey key.text = none := by
  cases key <;> decide

theorem length_le : key.text.bytes.length ≤ 23 := by
  cases key <;> decide

end ItemKey

structure Value where
  text : CString
  oneLine : newline ∉ text.bytes

structure Item where
  key : ItemKey
  value : Value

def assignmentLine (key value : CString) : List UInt8 :=
  key.bytes ++ equalsSign :: value.bytes ++ [newline]

def unitSerializeItem (item : Item) : List UInt8 :=
  assignmentLine item.key.text item.value.text

structure DualTimestamp where
  realtime : UInt64
  monotonic : UInt64

structure UnitMeta where
  job : Option JobType
  inactiveExitTimestamp : DualTimestamp
  activeEnterTimestamp : DualTimestamp
  activeExitTimestamp : DualTimestamp
  inactiveEnterTimestamp : DualTimestamp
  conditionTimestamp : DualTimestamp
  conditionResult : Bool

def jobTypeToString : JobType -> String
  | .start => "start"
  | .verifyActive => "verify-active"
  | .stop => "stop"
  | .reload => "reload"
  | .reloadOrStart => "reload-or-start"
  | .restart => "restart"
  | .tryRestart => "try-restart"

def yesNo (b : Bool) : String :=
  if b then "yes" else "no"

-- %llu; a 64 bit number has at most 20 digits.
def decimal : Nat -> Nat -> List UInt8
  | 0, _ => []
  | digits + 1, number =>
    (if number < 10 then [] else decimal digits (number / 10)) ++ [UInt8.ofNat (48 + number % 10)]

def DualTimestamp.isSet (t : DualTimestamp) : Bool :=
  t.realtime > 0

def DualTimestamp.print (t : DualTimestamp) : CString :=
  .ofBuffer (decimal 20 t.realtime.toNat ++ ' '.toUInt8 :: decimal 20 t.monotonic.toNat)

def dualTimestampSerialize (field : UnitField) (t : DualTimestamp) : List (UnitField × CString) :=
  if t.isSet then [(field, t.print)] else []

-- The lines behind those of the type of the unit.
def metaLines (u : UnitMeta) : List (UnitField × CString) :=
  (match u.job with
    | some type => [(.job, .ofString (jobTypeToString type))]
    | none => []) ++
  dualTimestampSerialize .inactiveExitTimestamp u.inactiveExitTimestamp ++
  dualTimestampSerialize .activeEnterTimestamp u.activeEnterTimestamp ++
  dualTimestampSerialize .activeExitTimestamp u.activeExitTimestamp ++
  dualTimestampSerialize .inactiveEnterTimestamp u.inactiveEnterTimestamp ++
  dualTimestampSerialize .conditionTimestamp u.conditionTimestamp ++
  (if u.conditionTimestamp.isSet then [(.conditionResult, .ofString (yesNo u.conditionResult))]
    else [])

def unitSerialize (items : List Item) (u : UnitMeta) : List UInt8 :=
  items.flatMap unitSerializeItem ++
  (metaLines u).flatMap (fun line => assignmentLine line.1.key line.2) ++ [newline]

def lineMax : Nat := 2048

/-- What unit_deserialize has done so far: the state of the unit, the values of the lines it read
itself, and the bytes that are still to be read. -/
structure Reading (S : Type) where
  state : S
  fields : List (UnitField × CString)
  rest : List UInt8

section

variable {S : Type} (deserializeItem : S -> CString -> CString -> Except Int S)

def handLine (reading : Reading S) (line : CString) : Except Int (Reading S) :=
  let assignment := splitAssignment line
  match UnitField.ofKey assignment.1 with
  | some field => .ok { reading with fields := reading.fields ++ [(field, assignment.2)] }
  | none =>
    (deserializeItem reading.state assignment.1 assignment.2).map fun state =>
      { reading with state }

def deserializeLoop : Nat -> Reading S -> Except Int (Reading S)
  | 0, reading => .ok reading
  | fuel + 1, reading =>
    match fgets lineMax reading.rest with
    | none => .ok reading
    | some (buffer, rest) =>
      let line := strstrip (.ofBuffer buffer)
      -- End marker
      if line.bytes = [] then
        .ok { reading with rest }
      else
        (handLine deserializeItem { reading with rest } line).bind (deserializeLoop fuel)

-- Every line read takes at least one byte.
def deserializeFrom (reading : Reading S) : Except Int (Reading S) :=
  deserializeLoop deserializeItem (reading.rest.length + 1) reading

def unitDeserialize (state : S) (stream : List UInt8) : Except Int (Reading S) :=
  deserializeFrom deserializeItem { state, fields := [], rest := stream }

theorem handLine_rest {reading handed : Reading S} {line : CString}
    (done : handLine deserializeItem reading line = .ok handed) : handed.rest = reading.rest := by
  rw [handLine] at done
  split at done
  · cases done
    rfl
  · cases called : deserializeItem reading.state (splitAssignment line).1 (splitAssignment line).2 with
    | error code => simp [called, Except.map] at done
    | ok state =>
      simp only [called, Except.map] at done
      cases done
      rfl

theorem deserializeLoop_fuel (fuel : Nat) (reading : Reading S) (enough : reading.rest.length < fuel) :
    deserializeLoop deserializeItem fuel reading = deserializeFrom deserializeItem reading := by
  induction fuel using Nat.strong_induction_on generalizing reading with
  | _ fuel ih =>
    cases fuel with
    | zero => omega
    | succ fuel =>
      rw [deserializeFrom]
      cases read : fgets lineMax reading.rest with
      | none => simp only [deserializeLoop, read]
      | some pair =>
        obtain ⟨buffer, rest⟩ := pair
        have shorter := fgets_shorter (by decide : 1 < lineMax) read
        simp only [deserializeLoop, read]
        split
        · rfl
        · cases handed : handLine deserializeItem { reading with rest }
              (strstrip (.ofBuffer buffer)) with
          | error code => rfl
          | ok next =>
            have left := handLine_rest deserializeItem handed
            have fits : next.rest.length < reading.rest.length := by
              rw [left]
              exact shorter
            simp only [Except.bind]
            rw [ih fuel (by omega) next (by omega),
              ih reading.rest.length (by omega) next fits]

theorem deserializeFrom_eq (reading : Reading S) :
    deserializeFrom deserializeItem reading =
      match fgets lineMax reading.rest with
      | none => .ok reading
      | some (buffer, rest) =>
        if (strstrip (.ofBuffer buffer)).bytes = [] then
          .ok { reading with rest }
        else
          (handLine deserializeItem { reading with rest } (strstrip (.ofBuffer buffer))).bind
            (deserializeFrom deserializeItem) := by
  rw [deserializeFrom]
  cases read : fgets lineMax reading.rest with
  | none => simp only [deserializeLoop, read]
  | some pair =>
    obtain ⟨buffer, rest⟩ := pair
    have shorter := fgets_shorter (by decide : 1 < lineMax) read
    simp only [deserializeLoop, read]
    split
    · rfl
    · cases handed : handLine deserializeItem { reading with rest }
          (strstrip (.ofBuffer buffer)) with
      | error code => rfl
      | ok next =>
        refine deserializeLoop_fuel deserializeItem _ next ?_
        rw [handLine_rest deserializeItem handed]
        exact shorter

theorem deserialize_end (state : S) (fields : List (UnitField × CString)) (tail : List UInt8) :
    deserializeFrom deserializeItem { state, fields, rest := newline :: tail } =
      .ok { state, fields, rest := tail } := by
  have read := fgets_line lineMax [] tail (by simp)
  rw [deserializeFrom_eq]
  simp only [nil_append] at read
  simp only [read]
  rfl

-- What is left of a value of which limit bytes were read.
def shown (limit : Nat) (value : CString) : CString where
  bytes := (value.bytes.take limit).rdropWhile isWhitespace
  terminated := fun mem =>
    value.terminated (mem_of_mem_take ((List.rdropWhile_prefix isWhitespace _).subset mem))

theorem shown_bytes (limit : Nat) (value : CString) :
    (shown limit value).bytes = (value.bytes.take limit).rdropWhile isWhitespace := rfl

variable {key : CString}

theorem strstrip_buffer (value : CString) (plain : Plain key.bytes) (limit : Nat) {ending : List UInt8}
    (closed : ending = [] ∨ ending = [newline]) :
    (strstrip (.ofBuffer (key.bytes ++ equalsSign :: (value.bytes.take limit ++ ending)))).bytes =
      key.bytes ++ equalsSign :: (shown limit value).bytes := by
  have terminated : 0 ∉ key.bytes ++ equalsSign :: (value.bytes.take limit ++ ending) := by
    have first := key.terminated
    have second : 0 ∉ value.bytes.take limit := fun mem =>
      value.terminated (mem_of_mem_take mem)
    have third : 0 ∉ ending := by
      rcases closed with rfl | rfl
      · simp
      · decide
    simp only [mem_append, mem_cons, not_or]
    exact ⟨first, by decide, second, third⟩
  rw [strstrip_bytes, CString.ofBuffer_bytes terminated, strip_assignment plain, shown]
  rcases closed with rfl | rfl
  · rw [append_nil]
  · rw [rdropWhile_concat_pos]
    decide

theorem fgets_assignment {value : CString} (plain : Plain key.bytes)
    (short : key.bytes.length < lineMax - 1) (oneLine : newline ∉ value.bytes) (rest : List UInt8) :
    ∃ ending, (ending = [] ∨ ending = [newline]) ∧
      fgets lineMax (assignmentLine key value ++ rest) =
        some (key.bytes ++ equalsSign ::
            (value.bytes.take (lineMax - 2 - key.bytes.length) ++ ending),
          if key.bytes.length + value.bytes.length + 2 < lineMax then rest
          else value.bytes.drop (lineMax - 2 - key.bytes.length) ++ newline :: rest) := by
  have single : newline ∉ key.bytes ++ equalsSign :: value.bytes := by
    have first : newline ∉ key.bytes := fun mem => by
      have none := (plain.2 newline mem).2
      revert none
      decide
    simp only [mem_append, mem_cons, not_or]
    exact ⟨first, by decide, oneLine⟩
  have read := fgets_line lineMax (key.bytes ++ equalsSign :: value.bytes) rest single
  have written : assignmentLine key value ++ rest =
      key.bytes ++ equalsSign :: value.bytes ++ newline :: rest := by
    simp [assignmentLine]
  have bound : lineMax = 2048 := rfl
  rw [length_append, length_cons] at read
  by_cases fits : key.bytes.length + value.bytes.length + 2 < lineMax
  · refine ⟨[newline], .inr rfl, ?_⟩
    rw [written, read, if_pos (by omega), if_pos fits, take_of_length_le (by omega)]
    simp
  · refine ⟨[], .inl rfl, ?_⟩
    have cut : lineMax - 1 - key.bytes.length = lineMax - 2 - key.bytes.length + 1 := by omega
    rw [written, read, if_neg (by omega), if_neg fits, take_append, drop_append, cut,
      take_of_length_le (by omega), drop_of_length_le (by omega)]
    simp

theorem deserialize_line {value : CString} (plain : Plain key.bytes)
    (short : key.bytes.length < lineMax - 1) (oneLine : newline ∉ value.bytes) (state : S)
    (fields : List (UnitField × CString)) (rest : List UInt8) :
    ∃ line : CString,
      splitAssignment line = (key, shown (lineMax - 2 - key.bytes.length) value) ∧
      deserializeFrom deserializeItem
          { state, fields, rest := assignmentLine key value ++ rest } =
        (handLine deserializeItem
          { state, fields,
            rest :=
              if key.bytes.length + value.bytes.length + 2 < lineMax then rest
              else value.bytes.drop (lineMax - 2 - key.bytes.length) ++ newline :: rest }
          line).bind (deserializeFrom deserializeItem) := by
  obtain ⟨ending, closed, read⟩ := fgets_assignment plain short oneLine rest
  have stripped := strstrip_buffer value plain (lineMax - 2 - key.bytes.length) closed
  refine ⟨_, splitAssignment_eq plain stripped, ?_⟩
  rw [deserializeFrom_eq]
  simp only [read]
  rw [if_neg]
  rw [stripped]
  simp

end

/-- A value that comes back as it was written: its line fits into the buffer with the newline and
the NUL, and it does not end in white space. -/
def Readable (key value : CString) : Prop :=
  key.bytes.length + value.bytes.length + 2 < lineMax ∧
    ∀ byte, value.bytes.getLast? = some byte -> isWhitespace byte = false

variable {key : CString}

theorem shown_eq {value : CString} (readable : Readable key value) :
    shown (lineMax - 2 - key.bytes.length) value = value := by
  obtain ⟨fits, clean⟩ := readable
  apply CString.eq_of_bytes
  rw [shown_bytes, take_of_length_le (by omega), rdropWhile_eq_self_iff]
  intro nonempty
  simp [clean _ (getLast?_eq_some_getLast nonempty)]

theorem readable_of_shown {value : CString} (fits : key.bytes.length + value.bytes.length + 2 < lineMax)
    (same : shown (lineMax - 2 - key.bytes.length) value = value) : Readable key value := by
  refine ⟨fits, ?_⟩
  have stripped := congrArg CString.bytes same
  rw [shown_bytes, take_of_length_le (by omega), rdropWhile_eq_self_iff] at stripped
  intro byte last
  obtain ⟨front, written⟩ := getLast?_eq_some_iff.mp last
  simpa [written] using stripped

section

variable {S : Type} (deserializeItem : S -> CString -> CString -> Except Int S)

theorem deserialize_item (item : Item) (state : S) (fields : List (UnitField × CString))
    (rest : List UInt8) :
    deserializeFrom deserializeItem { state, fields, rest := unitSerializeItem item ++ rest } =
      (deserializeItem state item.key.text
        (shown (lineMax - 2 - item.key.text.bytes.length) item.value.text)).bind fun state =>
          deserializeFrom deserializeItem
            { state, fields,
              rest :=
                if item.key.text.bytes.length + item.value.text.bytes.length + 2 < lineMax then rest
                else item.value.text.bytes.drop (lineMax - 2 - item.key.text.bytes.length) ++
                  newline :: rest } := by
  have short : item.key.text.bytes.length < lineMax - 1 :=
    Nat.lt_of_le_of_lt item.key.length_le (by decide)
  obtain ⟨line, assignment, read⟩ := deserialize_line deserializeItem item.key.plain short
    item.value.oneLine state fields rest
  rw [unitSerializeItem, read, handLine]
  simp only [assignment, item.key.not_field]
  cases deserializeItem state item.key.text
    (shown (lineMax - 2 - item.key.text.bytes.length) item.value.text) with
  | error code => rfl
  | ok state => rfl

theorem deserialize_field (field : UnitField) {value : CString} (oneLine : newline ∉ value.bytes)
    (readable : Readable field.key value) (state : S) (fields : List (UnitField × CString))
    (rest : List UInt8) :
    deserializeFrom deserializeItem
        { state, fields, rest := assignmentLine field.key value ++ rest } =
      deserializeFrom deserializeItem { state, fields := fields ++ [(field, value)], rest } := by
  have short : field.key.bytes.length < lineMax - 1 :=
    Nat.lt_of_le_of_lt field.length_le (by decide)
  obtain ⟨line, assignment, read⟩ := deserialize_line deserializeItem field.plain short
    oneLine state fields rest
  rw [shown_eq readable] at assignment
  rw [read, handLine]
  simp only [assignment, field.ofKey_key, if_pos readable.1]
  rfl

end

theorem decimal_digit {digits number : Nat} {byte : UInt8} (mem : byte ∈ decimal digits number) :
    ∃ digit < 10, byte = UInt8.ofNat (48 + digit) := by
  induction digits generalizing number with
  | zero => simp [decimal] at mem
  | succ digits ih =>
    rw [decimal, mem_append, mem_singleton] at mem
    rcases mem with front | rfl
    · split at front
      · simp at front
      · exact ih front
    · exact ⟨number % 10, Nat.mod_lt _ (by decide), rfl⟩

theorem decimal_length (digits number : Nat) : (decimal digits number).length ≤ digits := by
  induction digits generalizing number with
  | zero => simp [decimal]
  | succ digits ih =>
    rw [decimal, length_append, length_singleton]
    split
    · simp
    · exact Nat.succ_le_succ (ih (number / 10))

theorem digit_plain {digit : Nat} (bound : digit < 10) :
    UInt8.ofNat (48 + digit) ≠ 0 ∧ UInt8.ofNat (48 + digit) ≠ newline ∧
      isWhitespace (UInt8.ofNat (48 + digit)) = false := by
  revert digit
  decide

theorem print_bytes (t : DualTimestamp) :
    t.print.bytes = decimal 20 t.realtime.toNat ++ ' '.toUInt8 :: decimal 20 t.monotonic.toNat := by
  have digits : ∀ number, (0 : UInt8) ∉ decimal 20 number := by
    intro number mem
    obtain ⟨digit, bound, same⟩ := decimal_digit mem
    exact (digit_plain bound).1 same.symm
  apply CString.ofBuffer_bytes
  simp only [mem_append, mem_cons, not_or]
  exact ⟨digits _, by decide, digits _⟩

theorem decimal_oneLine (digits number : Nat) : newline ∉ decimal digits number := by
  intro mem
  obtain ⟨digit, bound, same⟩ := decimal_digit mem
  exact (digit_plain bound).2.1 same.symm

theorem decimal_last {number : Nat} {front : List UInt8} {byte : UInt8}
    (last : (front ++ decimal 20 number).getLast? = some byte) : isWhitespace byte = false := by
  have mem : byte ∈ decimal 20 number := by
    rw [getLast?_append, decimal, getLast?_concat] at last
    rw [decimal]
    exact mem_append_right _ (by simpa using last.symm)
  obtain ⟨digit, bound, rfl⟩ := decimal_digit mem
  exact (digit_plain bound).2.2

theorem stamp_readable (short : key.bytes.length ≤ 24) (t : DualTimestamp) :
    newline ∉ t.print.bytes ∧ Readable key t.print := by
  refine ⟨?_, ?_, ?_⟩
  · rw [print_bytes]
    simp only [mem_append, mem_cons, not_or]
    exact ⟨decimal_oneLine _ _, by decide, decimal_oneLine _ _⟩
  · have first := decimal_length 20 t.realtime.toNat
    have second := decimal_length 20 t.monotonic.toNat
    have bound : lineMax = 2048 := rfl
    rw [print_bytes, length_append, length_cons]
    omega
  · intro byte last
    rw [print_bytes, append_cons] at last
    exact decimal_last last

theorem print_readable (field : UnitField) (t : DualTimestamp) :
    newline ∉ t.print.bytes ∧ Readable field.key t.print :=
  stamp_readable field.length_le t

theorem metaLines_readable (u : UnitMeta) (field : UnitField) (value : CString)
    (mem : (field, value) ∈ metaLines u) : newline ∉ value.bytes ∧ Readable field.key value := by
  have stamp : ∀ name t, (field, value) ∈ dualTimestampSerialize name t ->
      newline ∉ value.bytes ∧ Readable field.key value := by
    intro name t inside
    rw [dualTimestampSerialize] at inside
    split at inside
    · rw [mem_singleton, Prod.mk.injEq] at inside
      rw [inside.2]
      exact print_readable field t
    · simp at inside
  simp only [metaLines, mem_append] at mem
  rcases mem with (((((job | stamped) | stamped) | stamped) | stamped) | stamped) | condition
  · cases installed : u.job with
    | none => simp [installed] at job
    | some type =>
      simp only [installed, mem_singleton, Prod.mk.injEq] at job
      rw [job.1, job.2]
      cases type <;> exact ⟨by decide +kernel, by decide +kernel, by decide +kernel⟩
  · exact stamp _ _ stamped
  · exact stamp _ _ stamped
  · exact stamp _ _ stamped
  · exact stamp _ _ stamped
  · exact stamp _ _ stamped
  · split at condition
    · rw [mem_singleton, Prod.mk.injEq] at condition
      rw [condition.1, condition.2]
      cases u.conditionResult <;> exact ⟨by decide +kernel, by decide +kernel, by decide +kernel⟩
    · simp at condition

end Systemd.Serialization
