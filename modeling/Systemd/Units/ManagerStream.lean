import Mathlib.Data.UInt
import Systemd.Services.Reload
import Systemd.Shared.Loop

set_option autoImplicit false

namespace Systemd.Serialization

open Loop Relation List Option
open Services (parseBoolean)

inductive ManagerField where
  | currentJobId
  | taintUsr
  | initrdTimestamp
  | startupTimestamp
  | finishTimestamp
  deriving DecidableEq

namespace ManagerField

def all : List ManagerField :=
  [.currentJobId, .taintUsr, .initrdTimestamp, .startupTimestamp, .finishTimestamp]

def key : ManagerField -> CString
  | .currentJobId => .ofString "current-job-id"
  | .taintUsr => .ofString "taint-usr"
  | .initrdTimestamp => .ofString "initrd-timestamp"
  | .startupTimestamp => .ofString "startup-timestamp"
  | .finishTimestamp => .ofString "finish-timestamp"

theorem plain (field : ManagerField) : Plain field.key.bytes := by
  cases field <;> exact ⟨by decide, by decide⟩

theorem length_le (field : ManagerField) : field.key.bytes.length ≤ 17 := by
  cases field <;> decide

theorem key_inj {field other : ManagerField} (same : field.key.bytes = other.key.bytes) : field = other := by
  revert same
  cases field <;> cases other <;> decide

end ManagerField

structure ManagerState (S : Type) where
  currentJobId : UInt32
  taintUsr : Bool
  initrdTimestamp : DualTimestamp
  startupTimestamp : DualTimestamp
  finishTimestamp : DualTimestamp
  nReloading : Nat
  units : S

def dualTimestampLine (field : ManagerField) (t : DualTimestamp) : List (ManagerField × CString) :=
  if t.isSet then [(field, t.print)] else []

-- The id is printed with %i.
def managerLines {S : Type} (m : ManagerState S) : List (ManagerField × CString) :=
  [(.currentJobId, printInt m.currentJobId.toInt32), (.taintUsr, .ofString (yesNo m.taintUsr))] ++
  dualTimestampLine .initrdTimestamp m.initrdTimestamp ++
  dualTimestampLine .startupTimestamp m.startupTimestamp ++
  dualTimestampLine .finishTimestamp m.finishTimestamp

-- `units` is the id of each unit that is written, with what unit_serialize writes for it.
def managerSerialize {S : Type} (m : ManagerState S) (units : List (CString × List UInt8)) : List UInt8 :=
  (managerLines m).flatMap (fun line => assignmentLine line.1.key line.2) ++ newline ::
    units.flatMap fun unit => unit.1.bytes ++ newline :: unit.2

-- strtoul negates modulo 2^64, and the result has to fit into an unsigned.
def safeAtou (text : CString) : Option UInt32 :=
  match wholeNumber text with
  | some (negative, magnitude) =>
    let value := if negative then (2 ^ 64 - magnitude) % 2 ^ 64 else magnitude
    if magnitude < 2 ^ 64 ∧ value < 2 ^ 32 then some (UInt32.ofNat value) else none
  | none => none

-- What is behind the key and the = of the first field whose key the line starts with.
def ManagerField.ofLine (line : CString) : Option (ManagerField × CString) :=
  (all.find? fun field => (field.key.bytes ++ [equalsSign]).isPrefixOf line.bytes).map fun field =>
    (field, { bytes := line.bytes.drop (field.key.bytes.length + 1)
              terminated := fun mem => line.terminated (mem_of_mem_drop mem) })

def setManagerField {S : Type} (m : ManagerState S) (field : ManagerField) (value : CString) : ManagerState S :=
  match field with
  | .currentJobId =>
    match safeAtou value with
    | some id => { m with currentJobId := max m.currentJobId id }
    | none => m
  | .taintUsr =>
    match parseBoolean value with
    | some b => { m with taintUsr := m.taintUsr || b }
    | none => m
  | .initrdTimestamp => { m with initrdTimestamp := dualTimestampDeserialize value m.initrdTimestamp }
  | .startupTimestamp => { m with startupTimestamp := dualTimestampDeserialize value m.startupTimestamp }
  | .finishTimestamp => { m with finishTimestamp := dualTimestampDeserialize value m.finishTimestamp }

def managerLine {S : Type} (m : ManagerState S) (line : CString) : ManagerState S :=
  match ManagerField.ofLine line with
  | some (field, value) => setManagerField m field value
  | none => m

structure UnitCalls (S U : Type) where
  loadUnit : S -> CString -> Except Int (S × U)
  canSerialize : S -> U -> Bool
  setField : S -> U -> UnitField -> CString -> S
  deserializeItem : S -> U -> CString -> CString -> Except Int S

/-- What is left of a stream. Behind its bytes comes its end, or a read error with this errno. -/
structure Stream where
  bytes : List UInt8
  readError : Option Int

inductive LineRead where
  | line (buffer rest : List UInt8)
  | eof
  | failed (errno : Int)

-- fgets does not return what it has read in front of an error.
def readLine (size : Nat) (stream : Stream) : LineRead :=
  let (line, rest) := readBytes (size - 1) stream.bytes
  if line.length < size - 1 ∧ line.getLast? ≠ some newline then
    match stream.readError with
    | some errno => .failed errno
    | none => if line = [] then .eof else .line line rest
  else .line line rest

/-- Where manager_deserialize stands: in its first loop, in its second, in unit_deserialize, or at its
label `finish` with the value it is going to return. -/
inductive ReaderPhase (U : Type) where
  | header
  | names
  | items (u : U)
  | finish (r : Int)

structure Reader (S U : Type) where
  phase : ReaderPhase U
  manager : ManagerState S
  stream : Stream
  ferror : Bool

def unitNameMax : Nat := 256

def eio : Int := 5

section

variable {S U : Type}

def Reader.withUnits (reader : Reader S U) (phase : ReaderPhase U) (units : S) (rest : List UInt8) : Reader S U :=
  { reader with
    phase
    manager := { reader.manager with units }
    stream := { reader.stream with bytes := rest } }

def Reader.finish (reader : Reader S U) (r : Int) : Reader S U := { reader with phase := .finish r }

def Reader.broken (reader : Reader S U) (errno : Int) : Reader S U :=
  { reader with phase := .finish (-errno), ferror := true }

def headerTurn (reader : Reader S U) : LineRead -> Reader S U
  | .eof => reader.finish 0
  | .failed errno => reader.broken errno
  | .line buffer rest =>
    let line := strstrip (.ofBuffer buffer)
    if line.bytes = [] then { reader with phase := .names, stream := { reader.stream with bytes := rest } }
    else
      { reader with
        manager := managerLine reader.manager line
        stream := { reader.stream with bytes := rest } }

def namesTurn (calls : UnitCalls S U) (reader : Reader S U) : LineRead -> Reader S U
  | .eof => reader.finish 0
  | .failed errno => reader.broken errno
  | .line buffer rest =>
    match calls.loadUnit reader.manager.units (strstrip (.ofBuffer buffer)) with
    | .error r => { reader.finish r with stream := { reader.stream with bytes := rest } }
    | .ok (units, u) => reader.withUnits (if calls.canSerialize units u then .items u else .names) units rest

def itemsTurn (calls : UnitCalls S U) (reader : Reader S U) (u : U) : LineRead -> Reader S U
  | .eof => { reader with phase := .names }
  | .failed errno => reader.broken errno
  | .line buffer rest =>
    let line := strstrip (.ofBuffer buffer)
    if line.bytes = [] then reader.withUnits .names reader.manager.units rest
    else
      let (key, value) := splitAssignment line
      match UnitField.ofKey key with
      | some field => reader.withUnits (.items u) (calls.setField reader.manager.units u field value) rest
      | none =>
        match calls.deserializeItem reader.manager.units u key value with
        | .ok units => reader.withUnits (.items u) units rest
        | .error r => { reader.finish r with stream := { reader.stream with bytes := rest } }

-- One turn of whichever loop manager_deserialize is in, or one `goto finish`.
def managerDeserializeTurn (calls : UnitCalls S U) (reader : Reader S U) : Option (Reader S U) :=
  match reader.phase with
  | .header => some (headerTurn reader (readLine lineMax reader.stream))
  | .names => some (namesTurn calls reader (readLine (unitNameMax + 2) reader.stream))
  | .items u => some (itemsTurn calls reader u (readLine lineMax reader.stream))
  | .finish _ => if reader.ferror then some (reader.finish (-eio)) else none

def managerDeserializeStart (m : ManagerState S) (stream : Stream) : Reader S U where
  phase := .header
  manager := { m with nReloading := m.nReloading + 1 }
  stream := stream
  ferror := false

def ManagerDeserializes (calls : UnitCalls S U) (m : ManagerState S) (stream : Stream) (r : Int)
    (m' : ManagerState S) : Prop :=
  ∃ last, Ends (managerDeserializeTurn calls) (managerDeserializeStart m stream) last ∧
    last.phase = .finish r ∧ m' = { last.manager with nReloading := last.manager.nReloading - 1 }

def MeetsReadError (reader : Reader S U) : Prop :=
  ∃ errno, match reader.phase with
    | .header | .items _ => readLine lineMax reader.stream = .failed errno
    | .names => readLine (unitNameMax + 2) reader.stream = .failed errno
    | .finish _ => False

theorem readLine_shorter {size : Nat} (room : 1 < size) {stream : Stream} {buffer rest : List UInt8}
    (read : readLine size stream = .line buffer rest) : rest.length < stream.bytes.length := by
  have more : stream.bytes ≠ [] := by
    intro empty
    have nothing : readBytes (size - 1) [] = ([], []) := by cases size - 1 <;> rfl
    have limit : 0 < size - 1 := by omega
    cases failing : stream.readError <;> simp [readLine, empty, nothing, limit, failing] at read
  have whole := congrArg List.length (readBytes_append (size - 1) stream.bytes)
  have nonempty := length_pos_iff.mpr (readBytes_nonempty (by omega : 0 < size - 1) more)
  rw [length_append] at whole
  have left : (readBytes (size - 1) stream.bytes).2 = rest := by
    simp only [readLine] at read
    split at read
    · split at read
      · cases read
      · split at read
        · cases read
        · exact (LineRead.line.inj read).2
    · exact (LineRead.line.inj read).2
  rw [left] at whole
  omega

theorem readLine_fgets (size : Nat) (room : 1 < size) (bytes : List UInt8) :
    readLine size ⟨bytes, none⟩ =
      match fgets size bytes with
      | some (buffer, rest) => .line buffer rest
      | none => .eof := by
  by_cases empty : bytes = []
  · subst empty
    have nothing : readBytes (size - 1) [] = ([], []) := by cases size - 1 <;> rfl
    simp [readLine, fgets, nothing, show 0 < size - 1 by omega]
  · have nonempty := readBytes_nonempty (by omega : 0 < size - 1) empty
    simp [readLine, fgets, empty, nonempty]

theorem readLine_no_error (size : Nat) (stream : Stream) (none : stream.readError = none) (errno : Int) :
    readLine size stream ≠ .failed errno := by
  simp only [readLine, none]
  split
  · split <;> simp
  · simp

-- Every turn but the last ones takes a line, and a unit ends before the names go on.
def Reader.size (reader : Reader S U) : Nat :=
  3 * reader.stream.bytes.length + match reader.phase with
    | .header | .names => 1
    | .items _ => 2
    | .finish _ => 0

variable {reader : Reader S U}

variable (calls : UnitCalls S U)

theorem turn_shrinks {next : Reader S U} (clean : reader.ferror = false)
    (spared : ¬MeetsReadError reader) (turn : Loop.Turn (managerDeserializeTurn calls) reader next) :
    next.ferror = false ∧ next.size < reader.size := by
  have room : 1 < lineMax ∧ 1 < unitNameMax + 2 := by decide
  unfold Loop.Turn managerDeserializeTurn at turn
  cases phase : reader.phase with
  | header =>
    simp only [phase, some.injEq] at turn
    subst turn
    cases read : readLine lineMax reader.stream with
    | eof => exact ⟨clean, by simp [headerTurn, Reader.finish, Reader.size, phase]⟩
    | failed errno => exact absurd ⟨errno, by simp [phase, read]⟩ spared
    | line buffer rest =>
      have shorter := readLine_shorter room.1 read
      simp only [headerTurn]
      split
      · exact ⟨clean, by simp only [Reader.size, phase]; omega⟩
      · exact ⟨clean, by simp only [Reader.size, phase]; omega⟩
  | names =>
    simp only [phase, some.injEq] at turn
    subst turn
    cases read : readLine (unitNameMax + 2) reader.stream with
    | eof => exact ⟨clean, by simp [namesTurn, Reader.finish, Reader.size, phase]⟩
    | failed errno => exact absurd ⟨errno, by simp [phase, read]⟩ spared
    | line buffer rest =>
      have shorter := readLine_shorter room.2 read
      simp only [namesTurn]
      split
      · exact ⟨clean, by simp only [Reader.finish, Reader.size, phase]; omega⟩
      · refine ⟨clean, ?_⟩
        split
        · simp only [Reader.withUnits, Reader.size, phase]
          omega
        · simp only [Reader.withUnits, Reader.size, phase]
          omega
  | items u =>
    simp only [phase, some.injEq] at turn
    subst turn
    cases read : readLine lineMax reader.stream with
    | eof => exact ⟨clean, by simp [itemsTurn, Reader.size, phase]⟩
    | failed errno => exact absurd ⟨errno, by simp [phase, read]⟩ spared
    | line buffer rest =>
      have shorter := readLine_shorter room.1 read
      simp only [itemsTurn]
      split
      · exact ⟨clean, by simp only [Reader.withUnits, Reader.size, phase]; omega⟩
      · split
        · exact ⟨clean, by simp only [Reader.withUnits, Reader.size, phase]; omega⟩
        · split
          · exact ⟨clean, by simp only [Reader.withUnits, Reader.size, phase]; omega⟩
          · exact ⟨clean, by simp only [Reader.finish, Reader.size, phase]; omega⟩
  | finish r => simp [phase, clean] at turn

theorem turn_breaks (met : MeetsReadError reader) :
    ∃ errno, Loop.Turn (managerDeserializeTurn calls) reader (reader.broken errno) := by
  obtain ⟨errno, read⟩ := met
  refine ⟨errno, ?_⟩
  unfold Loop.Turn managerDeserializeTurn
  cases phase : reader.phase with
  | header =>
    simp only [phase] at read
    simp only [read, headerTurn]
  | names =>
    simp only [phase] at read
    simp only [read, namesTurn]
  | items u =>
    simp only [phase] at read
    simp only [read, itemsTurn]
  | finish r => simp [phase] at read

theorem broken_never_ends (reader : Reader S U) (errno : Int) (last : Reader S U) :
    ¬Ends (managerDeserializeTurn calls) (reader.broken errno) last := by
  refine not_ends_of_forever (fun state => (∃ r, state.phase = .finish r) ∧ state.ferror = true) ?_
    ⟨⟨-errno, rfl⟩, rfl⟩ last
  rintro state ⟨⟨r, phase⟩, error⟩
  exact ⟨state.finish (-eio), by simp [Loop.Turn, managerDeserializeTurn, phase, error], ⟨-eio, rfl⟩, error⟩

theorem manager_deserialize_terminates_iff (m : ManagerState S) (stream : Stream) :
    (∃ r m', ManagerDeserializes calls m stream r m') ↔
      ∀ reader, ReflTransGen (Loop.Turn (managerDeserializeTurn calls)) (managerDeserializeStart m stream) reader ->
        ¬MeetsReadError reader := by
  constructor
  · rintro ⟨r, m', last, ends, _⟩ reader path met
    obtain ⟨errno, turn⟩ := turn_breaks calls met
    exact broken_never_ends calls reader errno last ((ends.reached path).next turn)
  · intro spared
    obtain ⟨last, ends⟩ := ends_of_measure
      (fun reader : Reader S U => reader.ferror = false ∧ ∀ other,
        ReflTransGen (Loop.Turn (managerDeserializeTurn calls)) reader other -> ¬MeetsReadError other)
      Reader.size
      (fun reader next holds turn => by
        obtain ⟨clean, smaller⟩ := turn_shrinks calls holds.1 (holds.2 reader .refl) turn
        exact ⟨⟨clean, fun other path => holds.2 other (.head turn path)⟩, smaller⟩)
      (⟨rfl, spared⟩ : (managerDeserializeStart m stream).ferror = false ∧ _)
    have stops := ends.stops
    unfold managerDeserializeTurn at stops
    cases phase : last.phase with
    | header => simp [phase] at stops
    | names => simp [phase] at stops
    | items u => simp [phase] at stops
    | finish r => exact ⟨r, _, last, ends, phase, rfl⟩

end

theorem ofLine_assignment (field : ManagerField) (value line : CString)
    (written : line.bytes = field.key.bytes ++ equalsSign :: value.bytes) :
    ManagerField.ofLine line = some (field, value) := by
  have front : ∀ other : ManagerField,
      line.bytes.takeWhile (· != equalsSign) = other.key.bytes -> other = field := by
    intro other same
    have plain : ∀ byte ∈ field.key.bytes, (byte != equalsSign) = true :=
      fun byte mem => by simpa using (field.plain.2 byte mem).1
    rw [written, takeWhile_append_of_pos plain] at same
    exact ManagerField.key_inj (by simpa using same.symm)
  have found : (fun other : ManagerField => (other.key.bytes ++ [equalsSign]).isPrefixOf line.bytes) =
      fun other => decide (other = field) := by
    funext other
    rw [Bool.eq_iff_iff, isPrefixOf_iff_prefix, decide_eq_true_eq]
    constructor
    · rintro ⟨rest, whole⟩
      refine front other ?_
      have plain : ∀ byte ∈ other.key.bytes, (byte != equalsSign) = true :=
        fun byte mem => by simpa using (other.plain.2 byte mem).1
      rw [← whole, append_assoc, takeWhile_append_of_pos plain]
      simp
    · rintro rfl
      exact ⟨value.bytes, by rw [written]; simp⟩
  have first : ManagerField.all.find? (fun other => decide (other = field)) = some field := by
    cases field <;> rfl
  rw [ManagerField.ofLine, found, first]
  simp only [map_some, some.injEq, Prod.mk.injEq, true_and]
  apply CString.eq_of_bytes
  simp [written, drop_append]

theorem safeAtou_printInt (id : UInt32) :
    safeAtou (printInt id.toInt32) = if id.toNat < 2 ^ 31 then some id else none := by
  have small := id.toNat_lt
  have value : id.toInt32.toInt = if id.toNat < 2 ^ 31 then (id.toNat : Int) else id.toNat - 2 ^ 32 := by
    have signed : id.toInt32.toInt = id.toBitVec.toInt := rfl
    have magnitude : id.toBitVec.toNat = id.toNat := rfl
    rw [signed, BitVec.toInt_eq_toNat_cond, magnitude]
    split_ifs <;> omega
  rw [safeAtou, wholeNumber_printInt]
  by_cases low : id.toNat < 2 ^ 31
  · rw [if_pos low] at value ⊢
    have pos : ¬(id.toNat : Int) < 0 := by omega
    have same : UInt32.ofNat id.toNat = id := UInt32.ofNat_toNat
    simp only [value, pos, decide_false, Bool.false_eq_true, if_false, Int.natAbs_natCast, same]
    rw [if_pos (by omega)]
  · rw [if_neg low] at value ⊢
    have negative : (id.toNat : Int) - 2 ^ 32 < 0 := by omega
    simp only [value, negative, decide_true, if_true]
    rw [if_neg (by omega)]

theorem printInt_bytes (number : Int32) :
    (printInt number).bytes = (if number.toInt < 0 then [45] else []) ++ decimal 20 number.toInt.natAbs := by
  apply CString.ofBuffer_bytes
  have digits := decimal_terminated 20 number.toInt.natAbs
  split
  · simpa using digits
  · simpa using digits

theorem printInt_readable {key : CString} (short : key.bytes.length ≤ 24) (number : Int32) :
    newline ∉ (printInt number).bytes ∧ Readable key (printInt number) := by
  refine ⟨?_, ?_, ?_⟩
  · rw [printInt_bytes, mem_append, not_or]
    refine ⟨?_, decimal_oneLine _ _⟩
    split
    · decide
    · simp
  · have digits := decimal_length 20 number.toInt.natAbs
    have sign : (if number.toInt < 0 then [(45 : UInt8)] else []).length ≤ 1 := by split <;> simp
    have bound : lineMax = 2048 := rfl
    rw [printInt_bytes, length_append]
    omega
  · intro byte last
    rw [printInt_bytes] at last
    exact decimal_last last

theorem managerLines_readable {S : Type} (m : ManagerState S) (line : ManagerField × CString)
    (mem : line ∈ managerLines m) : newline ∉ line.2.bytes ∧ Readable line.1.key line.2 := by
  have stamp : ∀ field t, line ∈ dualTimestampLine field t ->
      newline ∉ line.2.bytes ∧ Readable line.1.key line.2 := by
    intro field t inside
    rw [dualTimestampLine] at inside
    split at inside
    · obtain rfl := mem_singleton.mp inside
      exact stamp_readable (field.length_le.trans (by decide)) t
    · simp at inside
  simp only [managerLines, mem_append, mem_cons, not_mem_nil, or_false] at mem
  rcases mem with (((rfl | rfl) | stamped) | stamped) | stamped
  · exact printInt_readable (ManagerField.length_le .currentJobId |>.trans (by decide)) _
  · cases m.taintUsr <;> exact ⟨by decide +kernel, by decide +kernel, by decide +kernel⟩
  · exact stamp _ _ stamped
  · exact stamp _ _ stamped
  · exact stamp _ _ stamped

section

variable {S U : Type} (calls : UnitCalls S U)

theorem header_line (reader : Reader S U) (phase : reader.phase = .header) (field : ManagerField)
    (value : CString) (rest : List UInt8) (oneLine : newline ∉ value.bytes)
    (readable : Readable field.key value)
    (stream : reader.stream = ⟨assignmentLine field.key value ++ rest, none⟩) :
    Loop.Turn (managerDeserializeTurn calls) reader
      { reader with manager := setManagerField reader.manager field value, stream := ⟨rest, none⟩ } := by
  have short : field.key.bytes.length < lineMax - 1 := Nat.lt_of_le_of_lt field.length_le (by decide)
  obtain ⟨ending, closed, read⟩ := fgets_assignment field.plain short oneLine rest
  have stripped := strstrip_buffer value field.plain (lineMax - 2 - field.key.bytes.length) closed
  rw [shown_eq readable] at stripped
  have line := ofLine_assignment field value _ stripped
  have nonempty : (strstrip (.ofBuffer (field.key.bytes ++ equalsSign ::
      (value.bytes.take (lineMax - 2 - field.key.bytes.length) ++ ending)))).bytes ≠ [] := by
    rw [stripped]
    simp
  obtain ⟨buffer, taken, line, nonempty⟩ : ∃ buffer, readLine lineMax reader.stream = .line buffer rest ∧
      ManagerField.ofLine (strstrip (.ofBuffer buffer)) = some (field, value) ∧
        (strstrip (.ofBuffer buffer)).bytes ≠ [] := by
    refine ⟨_, ?_, line, nonempty⟩
    rw [stream, readLine_fgets lineMax (by decide), read, if_pos readable.1]
  have error : reader.stream.readError = none := by rw [stream]
  simp only [Loop.Turn, managerDeserializeTurn, phase, taken, headerTurn, if_neg nonempty, managerLine, line,
    error]

theorem header_lines (lines : List (ManagerField × CString))
    (readable : ∀ line ∈ lines, newline ∉ line.2.bytes ∧ Readable line.1.key line.2)
    (reader : Reader S U) (phase : reader.phase = .header) (rest : List UInt8) (stream : reader.stream =
      ⟨lines.flatMap (fun line => assignmentLine line.1.key line.2) ++ newline :: rest, none⟩) :
    ReflTransGen (Loop.Turn (managerDeserializeTurn calls)) reader
      { reader with
        phase := .names
        manager := lines.foldl (fun m line => setManagerField m line.1 line.2) reader.manager
        stream := ⟨rest, none⟩ } := by
  induction lines generalizing reader with
  | nil =>
    have read := fgets_line lineMax [] rest (by simp)
    have taken : readLine lineMax reader.stream = .line [newline] rest := by
      rw [stream, readLine_fgets lineMax (by decide)]
      simp only [flatMap_nil, nil_append] at read ⊢
      simp only [read]
      rfl
    have blank : (strstrip (.ofBuffer [newline])).bytes = [] := by decide
    have error : reader.stream.readError = none := by rw [stream]
    refine .single ?_
    simp only [Loop.Turn, managerDeserializeTurn, phase, taken, headerTurn, blank, if_true, error, foldl_nil]
  | cons line rest' ih =>
    obtain ⟨oneLine, fits⟩ := readable line mem_cons_self
    rw [flatMap_cons, append_assoc] at stream
    have turn := header_line calls reader phase line.1 line.2 _ oneLine fits stream
    exact .head turn (ih (fun other mem => readable other (mem_cons_of_mem line mem)) _ phase rfl)

theorem setManagerField_currentJobId (m : ManagerState S) (field : ManagerField) (value : CString)
    (other : field ≠ .currentJobId) : (setManagerField m field value).currentJobId = m.currentJobId := by
  cases field with
  | currentJobId => exact absurd rfl other
  | taintUsr =>
    simp only [setManagerField]
    split <;> rfl
  | initrdTimestamp | startupTimestamp | finishTimestamp => rfl

theorem managerLines_currentJobId (m m0 : ManagerState S) :
    ((managerLines m).foldl (fun m line => setManagerField m line.1 line.2) m0).currentJobId =
      if m.currentJobId.toNat < 2 ^ 31 then max m0.currentJobId m.currentJobId else m0.currentJobId := by
  have others : ∀ (lines : List (ManagerField × CString)), (∀ line ∈ lines, line.1 ≠ .currentJobId) ->
      ∀ m0 : ManagerState S, (lines.foldl (fun m line => setManagerField m line.1 line.2) m0).currentJobId =
        m0.currentJobId := by
    intro lines
    induction lines with
    | nil => intro _ _; rfl
    | cons line rest ih =>
      intro other m0
      rw [foldl_cons, ih fun line mem => other line (mem_cons_of_mem _ mem)]
      exact setManagerField_currentJobId m0 line.1 line.2 (other line mem_cons_self)
  have stamps : ∀ field t, ∀ line ∈ dualTimestampLine field t, line.1 = field := by
    intro field t line mem
    rw [dualTimestampLine] at mem
    split at mem
    · rw [mem_singleton.mp mem]
    · simp at mem
  simp only [managerLines, cons_append, nil_append, foldl_cons]
  rw [others]
  · rw [setManagerField_currentJobId _ _ _ (by decide), setManagerField, safeAtou_printInt]
    split_ifs <;> rfl
  · intro line mem
    simp only [mem_append] at mem
    rcases mem with (stamped | stamped) | stamped
    · simp [stamps _ _ line stamped]
    · simp [stamps _ _ line stamped]
    · simp [stamps _ _ line stamped]

theorem turn_keeps (reader next : Reader S U) (turn : Loop.Turn (managerDeserializeTurn calls) reader next) :
    next.stream.readError = reader.stream.readError ∧
      (reader.phase ≠ .header ->
        next.phase ≠ .header ∧ next.manager.currentJobId = reader.manager.currentJobId) := by
  unfold Loop.Turn managerDeserializeTurn at turn
  cases phase : reader.phase with
  | header =>
    simp only [phase, some.injEq] at turn
    subst turn
    refine ⟨?_, fun h => absurd rfl h⟩
    cases readLine lineMax reader.stream with
    | eof | failed => rfl
    | line buffer rest =>
      simp only [headerTurn]
      split <;> rfl
  | names =>
    simp only [phase, some.injEq] at turn
    subst turn
    cases readLine (unitNameMax + 2) reader.stream with
    | eof | failed => exact ⟨rfl, fun _ => ⟨by simp [namesTurn, Reader.finish, Reader.broken], rfl⟩⟩
    | line buffer rest =>
      simp only [namesTurn]
      split
      · exact ⟨rfl, fun _ => ⟨by simp [Reader.finish], rfl⟩⟩
      · refine ⟨rfl, fun _ => ⟨?_, rfl⟩⟩
        simp only [Reader.withUnits]
        split <;> simp
  | items u =>
    simp only [phase, some.injEq] at turn
    subst turn
    cases readLine lineMax reader.stream with
    | eof | failed => exact ⟨rfl, fun _ => ⟨by simp [itemsTurn, Reader.broken], rfl⟩⟩
    | line buffer rest =>
      simp only [itemsTurn]
      split
      · exact ⟨rfl, fun _ => ⟨by simp [Reader.withUnits], rfl⟩⟩
      · split
        · exact ⟨rfl, fun _ => ⟨by simp [Reader.withUnits], rfl⟩⟩
        · split
          · exact ⟨rfl, fun _ => ⟨by simp [Reader.withUnits], rfl⟩⟩
          · exact ⟨rfl, fun _ => ⟨by simp [Reader.finish], rfl⟩⟩
  | finish r =>
    simp only [phase] at turn
    split at turn
    · rw [← some.inj turn]
      exact ⟨rfl, fun _ => ⟨by simp [Reader.finish], rfl⟩⟩
    · cases turn

-- Whatever the units make of their part, reading back what was written comes to an end, and leaves the
-- counter at what the first line said.
theorem manager_deserialize_reads_back (m0 m : ManagerState S) (units : List (CString × List UInt8)) :
    (∃ r m', ManagerDeserializes calls m0 ⟨managerSerialize m units, none⟩ r m') ∧
      ∀ r m', ManagerDeserializes calls m0 ⟨managerSerialize m units, none⟩ r m' ->
        m'.currentJobId = if m.currentJobId.toNat < 2 ^ 31 then max m0.currentJobId m.currentJobId
          else m0.currentJobId := by
  constructor
  · rw [manager_deserialize_terminates_iff]
    rintro reader path ⟨errno, failed⟩
    have none : reader.stream.readError = none :=
      path_invariant (fun reader : Reader S U => reader.stream.readError = Option.none)
        (fun reader next holds turn => (turn_keeps calls reader next turn).1.trans holds) path rfl
    cases phase : reader.phase with
    | header =>
      simp only [phase] at failed
      exact readLine_no_error _ _ none errno failed
    | names =>
      simp only [phase] at failed
      exact readLine_no_error _ _ none errno failed
    | items u =>
      simp only [phase] at failed
      exact readLine_no_error _ _ none errno failed
    | finish r => simp [phase] at failed
  · rintro r m' ⟨last, ends, _, rfl⟩
    have path := header_lines calls (managerLines m) (managerLines_readable m)
      (managerDeserializeStart m0 ⟨managerSerialize m units, none⟩) rfl _ rfl
    have kept := path_invariant
      (fun reader : Reader S U => reader.phase ≠ .header ∧ reader.manager.currentJobId =
        ((managerLines m).foldl (fun m line => setManagerField m line.1 line.2)
          (managerDeserializeStart (U := U) m0 ⟨managerSerialize m units, none⟩).manager).currentJobId)
      (fun reader next holds turn => by
        obtain ⟨later, same⟩ := (turn_keeps calls reader next turn).2 holds.1
        exact ⟨later, same.trans holds.2⟩)
      (ends.reached path).path ⟨by simp, rfl⟩
    exact kept.2.trans (managerLines_currentJobId m _)

end

-- The function ends unless it meets a read error; and the counter comes back if it stood there already,
-- or stood lower and the number that was printed is not negative.
theorem manager_deserialize_total_and_faithful_iff {S U : Type} (calls : UnitCalls S U)
    (m0 : ManagerState S) :
    (∀ stream, (∃ r m', ManagerDeserializes calls m0 stream r m') ↔
      ∀ reader, ReflTransGen (Loop.Turn (managerDeserializeTurn calls)) (managerDeserializeStart m0 stream) reader ->
        ¬MeetsReadError reader) ∧
    ∀ (m : ManagerState S) units, (∃ r m', ManagerDeserializes calls m0 ⟨managerSerialize m units, none⟩ r m' ∧
        m'.currentJobId = m.currentJobId) ↔
      m0.currentJobId = m.currentJobId ∨
        m0.currentJobId ≤ m.currentJobId ∧ m.currentJobId.toNat < 2 ^ 31 := by
  refine ⟨manager_deserialize_terminates_iff calls m0, fun m units => ?_⟩
  obtain ⟨⟨r, m', done⟩, back⟩ := manager_deserialize_reads_back calls m0 m units
  have value : (if m.currentJobId.toNat < 2 ^ 31 then max m0.currentJobId m.currentJobId
      else m0.currentJobId) = m.currentJobId ↔
      m0.currentJobId = m.currentJobId ∨
        m0.currentJobId ≤ m.currentJobId ∧ m.currentJobId.toNat < 2 ^ 31 := by
    by_cases low : m.currentJobId.toNat < 2 ^ 31
    · have larger : max m0.currentJobId m.currentJobId =
          if m0.currentJobId ≤ m.currentJobId then m.currentJobId else m0.currentJobId := rfl
      rw [if_pos low, larger]
      by_cases above : m0.currentJobId ≤ m.currentJobId
      · rw [if_pos above]
        exact ⟨fun _ => .inr ⟨above, low⟩, fun _ => rfl⟩
      · rw [if_neg above]
        exact ⟨.inl, fun either => either.resolve_right fun both => above both.1⟩
    · rw [if_neg low]
      exact ⟨.inl, fun either => either.resolve_right fun both => low both.2⟩
  constructor
  · rintro ⟨r, m', done, same⟩
    exact value.mp ((back r m' done).symm.trans same)
  · intro holds
    exact ⟨r, m', done, (back r m' done).trans (value.mpr holds)⟩

def freshManager (currentJobId : UInt32) : ManagerState Unit where
  currentJobId := currentJobId
  taintUsr := false
  initrdTimestamp := ⟨0, 0⟩
  startupTimestamp := ⟨0, 0⟩
  finishTimestamp := ⟨0, 0⟩
  nReloading := 1
  units := ()

def noUnits : UnitCalls Unit Unit where
  loadUnit := fun _ _ => .error (-22)
  canSerialize := fun _ _ => false
  setField := fun _ _ _ _ => ()
  deserializeItem := fun _ _ _ _ => .ok ()

theorem manager_deserialize_spins_and_forgets :
    (¬∃ r m', ManagerDeserializes noUnits (freshManager 1) ⟨[], some eio⟩ r m') ∧
    ¬∃ r m', ManagerDeserializes noUnits (freshManager 1)
        ⟨managerSerialize (freshManager (2 ^ 31)) [], none⟩ r m' ∧ m'.currentJobId = 2 ^ 31 := by
  constructor
  · rintro ⟨r, m', last, ends, _⟩
    have met : MeetsReadError (U := Unit) (managerDeserializeStart (freshManager 1) ⟨[], some eio⟩) := ⟨eio, rfl⟩
    obtain ⟨errno, turn⟩ := turn_breaks noUnits met
    exact broken_never_ends noUnits _ errno last (ends.next turn)
  · rintro ⟨r, m', done, same⟩
    have kept := (manager_deserialize_reads_back noUnits (freshManager 1) (freshManager (2 ^ 31)) []).2 r m' done
    rw [same] at kept
    revert kept
    decide

end Systemd.Serialization
