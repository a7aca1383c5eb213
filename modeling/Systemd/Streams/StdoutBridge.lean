import Systemd.Services.Reload
import Systemd.Shared.Loop

set_option autoImplicit false

namespace Systemd.Streams

open List

open Serialization (safeAtoi scanNumber)
open Services (parseBoolean)

def lineMax : Nat := 2048

inductive StreamTarget where
  | syslog
  | kmsg
  deriving DecidableEq

inductive StreamState where
  | target
  | priority
  | process
  | prefixed
  | running
  deriving DecidableEq

structure Client where
  state : StreamState := .target
  target : StreamTarget := .syslog
  priority : Int32 := 0
  process : Option CString := none
  linePrefix : Bool := false
  teeConsole : Bool := false
  deriving DecidableEq

def eperm : Int := 1

def einval : Int := 22

def erange : Int := 34

def ebadmsg : Int := 74

-- A number that strtol() cannot represent sets errno, whatever is behind it.
def safeAtoiErrno (text : CString) : Int :=
  match scanNumber text.bytes with
  | some number =>
    if (if number.negative then 2 ^ 63 < number.magnitude else 2 ^ 63 ≤ number.magnitude) then
      erange
    else if number.rest = [] then
      erange
    else
      einval
  | none => einval

def streamLine (kmsgAvailable : Bool) (streamLog : Client -> CString -> Int) (s : Client) (line : CString) :
    Int × Client :=
  let p := strstrip line
  match s.state with
  | .target =>
    let tee := s.teeConsole || "+console".toList.map Char.toUInt8 <:+ p.bytes
    if p = .ofString "syslog" ∨ p = .ofString "syslog+console" then
      (0, { s with target := .syslog, teeConsole := tee, state := .priority })
    else if p = .ofString "kmsg" ∨ p = .ofString "kmsg+console" then
      if kmsgAvailable then
        (0, { s with target := .kmsg, teeConsole := tee, state := .priority })
      else
        (-eperm, s)
    else
      (-ebadmsg, s)
  | .priority =>
    match safeAtoi p with
    | none => (-safeAtoiErrno p, s)
    | some priority =>
      if priority < 0 then
        (-erange, { s with priority := priority })
      else
        (0, { s with priority := priority, state := .process })
  | .process => (0, { s with process := some p, state := .prefixed })
  | .prefixed =>
    match parseBoolean p with
    | none => (-einval, s)
    | some r => (0, { s with linePrefix := r, state := .running })
  | .running => (streamLog s p, s)

section

variable {S : Type}

/-- A stream: the bytes that were read and not scanned yet stand at the front of the buffer. Whether an
index has left the buffer is remembered. -/
structure Stream where
  buffer : List UInt8
  length : Nat
  outside : Bool := false

def Stream.Fine (s : Stream) : Prop :=
  s.buffer.length = lineMax + 1 ∧ s.length ≤ lineMax ∧ s.outside = false

def emptyStream : Stream where
  buffer := List.replicate (lineMax + 1) 0
  length := 0

theorem emptyStream_fine : emptyStream.Fine :=
  ⟨length_replicate, Nat.zero_le _, rfl⟩

def Stream.contents (s : Stream) : List UInt8 :=
  s.buffer.take s.length

structure Scan (S : Type) where
  buffer : List UInt8
  p : Nat
  remaining : Nat
  r : Int
  client : S
  passed : List CString
  outside : Bool

def Scan.window (s : Scan S) : List UInt8 :=
  (s.buffer.drop s.p).take s.remaining

-- Where strstrip() puts the NUL, seen from the start of the text.
def stripEnd (text : List UInt8) : Nat :=
  (text.takeWhile isWhitespace).length + ((text.dropWhile isWhitespace).rdropWhile isWhitespace).length

def Scan.lineEnd (s : Scan S) : Option (Nat × Nat) :=
  match s.window.idxOf? newline with
  | some i => some (i, i + 1)
  | none => if lineMax ≤ s.remaining then some (lineMax, lineMax) else none

def scanStep (line : S -> CString -> Int × S) (s : Scan S) : Option (Scan S) :=
  s.lineEnd.map fun (ahead, skip) =>
    let terminated := s.buffer.set (s.p + ahead) 0
    let text := CString.ofBuffer (terminated.drop s.p)
    let (r, client) := line s.client text
    { buffer := terminated.set (s.p + stripEnd text.bytes) 0
      p := if 0 ≤ r then s.p + skip else s.p
      remaining := if 0 ≤ r then s.remaining - skip else s.remaining
      r := r
      client := client
      passed := s.passed ++ [text]
      outside := s.outside || decide (s.buffer.length < s.p + s.remaining) ||
        decide (s.buffer.length ≤ s.p + ahead) }

def Scan.start (client : S) (s : Stream) : Scan S where
  buffer := s.buffer
  p := 0
  remaining := s.length
  r := 0
  client := client
  passed := []
  outside := s.outside

def Scan.compact (s : Scan S) : Stream where
  buffer := s.window ++ s.buffer.drop s.window.length
  length := s.remaining
  outside := s.outside

def Stream.append (s : Stream) (bytes : List UInt8) : Stream where
  buffer := s.buffer.take s.length ++ bytes ++ s.buffer.drop (s.length + bytes.length)
  length := s.length + bytes.length
  outside := s.outside || decide (s.buffer.length < s.length + bytes.length)

inductive ReadResult where
  | again
  | failed (errno : Int)
  | data (bytes : List UInt8)

/-- A call of stream_process() that returns: what it returns, and what it passed to stream_line(). -/
inductive Processes (line : S -> CString -> Int × S) (client : S) (s : Stream) :
    ReadResult -> Int -> S -> Stream -> List CString -> Prop where
  | again : Processes line client s .again 0 client s []
  | failed (errno : Int) : Processes line client s (.failed errno) (-errno) client s []
  | ended : Processes line client s (.data []) 0 client s []
  | scanned (bytes : List UInt8) (last : Scan S) : bytes ≠ [] ->
      Loop.Ends (scanStep line) (.start client (s.append bytes)) last ->
        Processes line client s (.data bytes) (if last.r < 0 then last.r else 1) last.client last.compact
          last.passed

variable (text : List UInt8)

theorem stripEnd_le : stripEnd text ≤ text.length := by
  have whole := congrArg List.length (takeWhile_append_dropWhile (p := isWhitespace) (l := text))
  have trailing := (List.rdropWhile_prefix isWhitespace (l := text.dropWhile isWhitespace)).length_le
  rw [length_append] at whole
  rw [stripEnd]
  omega

theorem ofBuffer_terminated (rest : List UInt8) :
    CString.ofBuffer (text ++ 0 :: rest) = .ofBuffer text := by
  apply CString.eq_of_bytes
  simp only [CString.ofBuffer]
  induction text with
  | nil => rfl
  | cons byte text ih =>
    by_cases nul : byte = 0
    next => simp [nul]
    next => simpa [nul] using ih

theorem ofBuffer_length : (CString.ofBuffer text).bytes.length ≤ text.length :=
  (List.takeWhile_prefix _).length_le

variable (line : S -> CString -> Int × S) {s : Scan S}

def Scan.Fine (s : Scan S) : Prop :=
  s.buffer.length = lineMax + 1 ∧ s.p + s.remaining ≤ lineMax ∧ s.outside = false

theorem Scan.Fine.window_length (fine : s.Fine) : s.window.length = s.remaining := by
  rw [Scan.window, length_take_of_le]
  rw [length_drop, fine.1]
  have room := fine.2.1
  omega

/-- What a turn does with a text that ends so far ahead: whoever is given the text, if it is accepted the
scan goes on behind it, and otherwise it stays where it is. -/
structure Turned (line : S -> CString -> Int × S) (s next : Scan S) (text : CString) (ahead skip : Nat) :
    Prop where
  fine : next.Fine
  passed : next.passed = s.passed ++ [text]
  answer : (next.r, next.client) = line s.client text
  accepted : 0 ≤ next.r -> next.p = s.p + skip ∧ next.remaining = s.remaining - skip ∧
    (ahead < skip -> next.window = s.window.drop skip)
  rejected : next.r < 0 -> next.p = s.p ∧ next.remaining = s.remaining ∧
    next.window = (s.window.set ahead 0).set (stripEnd text.bytes) 0

theorem scanStep_turned (fine : s.Fine) {ahead skip : Nat} (ends : s.lineEnd = some (ahead, skip))
    (within : s.p + ahead ≤ lineMax) (enough : skip ≤ s.remaining) {text : CString}
    (shown : CString.ofBuffer ((s.buffer.set (s.p + ahead) 0).drop s.p) = text)
    (short : text.bytes.length ≤ ahead) :
    ∃ next, scanStep line s = some next ∧ Turned line s next text ahead skip := by
  have strip := stripEnd_le text.bytes
  obtain ⟨size, room, inside⟩ := fine
  refine ⟨_, by rw [scanStep, ends]; rfl, ?_⟩
  simp only [shown]
  constructor
  next =>
    refine ⟨by simpa using size, ?_, ?_⟩
    next =>
      dsimp only
      split <;> omega
    next => simp [inside, size]; omega
  next => rfl
  next => rfl
  next =>
    intro accepted
    dsimp only at accepted ⊢
    simp only [if_pos accepted, true_and]
    intro less
    simp only [Scan.window]
    rw [drop_set_of_lt (by omega), drop_set_of_lt (by omega), drop_take, drop_drop]
  next =>
    intro rejected
    dsimp only at rejected ⊢
    simp only [if_neg (Int.not_le.mpr rejected), true_and, Scan.window]
    rw [drop_set, if_neg (by omega), drop_set, if_neg (by omega), take_set, take_set,
      Nat.add_sub_cancel_left, Nat.add_sub_cancel_left]

variable {pre post : List UInt8}

theorem idxOf?_newline (plain : newline ∉ pre) :
    (pre ++ newline :: post).idxOf? newline = some pre.length := by
  induction pre with
  | nil => simp [idxOf?_cons]
  | cons byte pre ih =>
    obtain ⟨other, rest⟩ : newline ≠ byte ∧ newline ∉ pre := by simpa using plain
    simp [idxOf?_cons, other.symm, ih rest]

theorem line_turn (fine : s.Fine) (window : s.window = pre ++ newline :: post) (plain : newline ∉ pre) :
    ∃ next, scanStep line s = some next ∧
      Turned line s next (.ofBuffer pre) pre.length (pre.length + 1) := by
  have size := fine.window_length
  rw [window, length_append, length_cons] at size
  have room := fine.2.1
  refine scanStep_turned line fine ?_ (by omega) (by omega) ?_ (ofBuffer_length pre)
  next => rw [Scan.lineEnd, window, idxOf?_newline plain]
  next =>
    have memory : s.buffer.drop s.p = pre ++ newline :: (post ++ (s.buffer.drop s.p).drop s.remaining) := by
      conv_lhs => rw [← take_append_drop s.remaining (s.buffer.drop s.p)]
      rw [← Scan.window, window]
      simp
    rw [drop_set, if_neg (by omega), Nat.add_sub_cancel_left, memory,
      set_append_right _ _ (Nat.le_refl _), Nat.sub_self, set_cons_zero, ofBuffer_terminated]

theorem forced_turn (fine : s.Fine) (plain : newline ∉ s.window) (full : s.remaining = lineMax) :
    ∃ next, scanStep line s = some next ∧ Turned line s next (.ofBuffer s.window) lineMax lineMax := by
  have size := fine.window_length
  have room := fine.2.1
  have front : s.p = 0 := by omega
  refine scanStep_turned line fine ?_ (by omega) (by omega) ?_ ((ofBuffer_length _).trans (by omega))
  next =>
    rw [Scan.lineEnd, idxOf?_eq_none_iff.mpr plain]
    simp [full]
  next =>
    have memory : s.buffer.drop s.p = s.window ++ (s.buffer.drop s.p).drop s.remaining :=
      (take_append_drop s.remaining (s.buffer.drop s.p)).symm
    obtain ⟨last, rest, more⟩ : ∃ last rest, (s.buffer.drop s.p).drop s.remaining = last :: rest := by
      apply exists_cons_of_length_pos
      rw [length_drop, length_drop, fine.1]
      omega
    rw [drop_set, if_neg (by omega), Nat.add_sub_cancel_left, memory, more,
      set_append_right _ _ (by omega), size, full, Nat.sub_self, set_cons_zero,
      ofBuffer_terminated]

theorem scanStep_leaves (plain : newline ∉ s.window) (some : s.remaining < lineMax) :
    scanStep line s = none := by
  rw [scanStep, Scan.lineEnd, idxOf?_eq_none_iff.mpr plain]
  simp [Nat.not_le.mpr some]

theorem Stream.Fine.append {s : Stream} (fine : s.Fine) {bytes : List UInt8}
    (fits : s.length + bytes.length ≤ lineMax) (client : S) :
    (Scan.start client (s.append bytes)).Fine ∧
      (Scan.start client (s.append bytes)).window = s.contents ++ bytes := by
  obtain ⟨size, within, inside⟩ := fine
  have front : (s.buffer.take s.length).length = s.length := length_take_of_le (by omega)
  refine ⟨⟨?_, by simpa [Scan.start, Stream.append] using fits, ?_⟩, ?_⟩
  next =>
    simp only [Scan.start, Stream.append, length_append, front, length_drop, size]
    omega
  next => simp [Scan.start, Stream.append, inside, size]; omega
  next =>
    have length : s.length + bytes.length = (s.buffer.take s.length ++ bytes).length := by simp [front]
    simp only [Scan.window, Scan.start, Stream.append, drop_zero, Stream.contents]
    rw [length, take_left]

theorem Scan.Fine.compact (fine : s.Fine) : s.compact.Fine ∧ s.compact.contents = s.window := by
  have length := fine.window_length
  obtain ⟨size, room, inside⟩ := fine
  refine ⟨⟨?_, by simp only [Scan.compact]; omega, inside⟩, ?_⟩
  next =>
    simp only [Scan.compact, length_append, length_drop]
    omega
  next =>
    simp only [Scan.compact, Stream.contents]
    rw [← length, take_left]

end

end Systemd.Streams
