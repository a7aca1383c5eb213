import Mathlib.Data.List.Count
import Systemd.Streams.StdoutBridge

set_option autoImplicit false

namespace Systemd.Streams

open List

open Loop (Ends Turn)

def pattern (results : Nat -> Int) (calls : Nat) (_ : CString) : Int × Nat :=
  (results calls, calls + 1)

/-- Either some line is accepted on the way, or not all of the buffer is used: then no rejected line may be
followed by an accepted last one. Otherwise there must be no newline, and the first forced line must be
accepted. -/
def Harmless (results : Nat -> Int) (contents : List UInt8) : Prop :=
  let lines := contents.count newline
  if contents.length < lineMax ∨ ∃ i < lines, 0 ≤ results i then
    ∀ i < lines, results i < 0 -> results (lines - 1) < 0
  else
    lines = 0 ∧ 0 ≤ results 0

variable (results : Nat -> Int) {s next : Scan Nat}

variable {window : List UInt8}

theorem set_before {pre post : List UInt8} (split : window = pre ++ newline :: post)
    (plain : newline ∉ pre) {n : Nat} (before : n ≤ pre.length) :
    ((window.set pre.length 0).set n 0).count newline + 1 = window.count newline := by
  have none : (pre.set n 0).count newline = 0 := by
    rw [count_eq_zero]
    intro mem
    rcases mem_or_eq_of_mem_set mem with inside | nul
    next => exact plain inside
    next => exact absurd nul (by decide)
  have all := count_eq_zero.mpr plain
  rw [split, set_append_right _ _ (Nat.le_refl _), Nat.sub_self, set_cons_zero]
  rcases Nat.lt_or_eq_of_le before with less | rfl
  next =>
    rw [set_append_left _ _ less]
    simp [none, all, show (0 : UInt8) ≠ newline by decide]
  next =>
    rw [set_append_right _ _ (Nat.le_refl _)]
    simp [all, show (0 : UInt8) ≠ newline by decide]

theorem set_plain (plain : newline ∉ window) (first second : Nat) :
    newline ∉ (window.set first 0).set second 0 := by
  have nul : newline ≠ 0 := by decide
  intro mem
  rcases mem_or_eq_of_mem_set mem with inside | same
  next =>
    rcases mem_or_eq_of_mem_set inside with inside | same
    next => exact plain inside
    next => exact nul same
  next => exact nul same

section

variable (fine : s.Fine)
include fine

theorem pattern_line (some : 0 < s.window.count newline) :
    ∃ next, scanStep (pattern results) s = Option.some next ∧ next.Fine ∧
      next.window.count newline + 1 = s.window.count newline ∧ next.r = results s.client ∧
      next.client = s.client + 1 ∧ next.passed.length = s.passed.length + 1 ∧
      (0 ≤ results s.client -> next.remaining < s.remaining) ∧
      (results s.client < 0 -> next.p = s.p ∧ next.remaining = s.remaining) := by
  obtain ⟨pre, post, split, plain⟩ := eq_append_cons_of_mem (count_pos_iff.mp some)
  obtain ⟨next, turn, turned⟩ := line_turn (pattern results) fine split plain
  have answer := turned.answer
  simp only [pattern, Prod.mk.injEq] at answer
  have size := fine.window_length
  rw [split, length_append, length_cons] at size
  refine ⟨next, turn, turned.fine, ?_, answer.1, answer.2, by simp [turned.passed], ?_, ?_⟩
  next =>
    rcases Int.lt_or_le next.r 0 with rejected | accepted
    next =>
      rw [(turned.rejected rejected).2.2]
      exact set_before split plain ((stripEnd_le _).trans (ofBuffer_length pre))
    next =>
      have behind : s.window.drop (pre.length + 1) = post := by
        rw [split, append_cons]
        exact drop_left' (by simp)
      rw [(turned.accepted accepted).2.2 (Nat.lt_succ_self _), behind, split]
      simp [count_eq_zero.mpr plain]
  next =>
    intro accepted
    rw [← answer.1] at accepted
    have less := (turned.accepted accepted).2.1
    omega
  next =>
    intro rejected
    rw [← answer.1] at rejected
    exact ⟨(turned.rejected rejected).1, (turned.rejected rejected).2.1⟩

theorem ends_notFull (room : s.remaining < lineMax) :
    ∃ last, Ends (scanStep (pattern results)) s last ∧
      last.passed.length = s.passed.length + s.window.count newline ∧
      last.r = if s.window.count newline = 0 then s.r
        else results (s.client + s.window.count newline - 1) := by
  induction lines : s.window.count newline generalizing s with
  | zero =>
    have stops : scanStep (pattern results) s = none :=
      scanStep_leaves _ (count_eq_zero.mp lines) room
    exact ⟨s, .done s stops, rfl, by simp⟩
  | succ lines ih =>
    obtain ⟨next, turn, fine, fewer, r, client, passed, accepted, rejected⟩ :=
      pattern_line results fine (by omega)
    have still : next.remaining < lineMax := by
      rcases Int.lt_or_le (results s.client) 0 with negative | pos
      next => rw [(rejected negative).2]; exact room
      next => exact (accepted pos).trans room
    obtain ⟨last, ends, calls, result⟩ := ih fine still (by omega)
    refine ⟨last, .turn _ _ _ turn ends, by omega, ?_⟩
    rw [result, r, client]
    split
    next zero => simp [zero]
    next =>
      simp only [Nat.add_eq_zero_iff, Nat.one_ne_zero, and_false, if_false]
      congr 1
      omega

section

variable (full : s.remaining = lineMax)
include full

theorem ends_accepted (accepts : ∃ i < s.window.count newline, 0 ≤ results (s.client + i)) :
    ∃ last, Ends (scanStep (pattern results)) s last ∧
      last.passed.length = s.passed.length + s.window.count newline ∧
      last.r = results (s.client + s.window.count newline - 1) := by
  induction lines : s.window.count newline generalizing s with
  | zero =>
    obtain ⟨i, less, -⟩ := accepts
    omega
  | succ lines ih =>
    obtain ⟨next, turn, fine, fewer, r, client, passed, accepted, rejected⟩ :=
      pattern_line results fine (by omega)
    rcases Int.lt_or_le (results s.client) 0 with negative | pos
    next =>
      obtain ⟨i, less, success⟩ := accepts
      have later : i ≠ 0 := by
        rintro rfl
        rw [Nat.add_zero] at success
        omega
      obtain ⟨last, ends, calls, result⟩ := ih fine ((rejected negative).2.trans full)
        ⟨i - 1, by omega, by rw [client, show s.client + 1 + (i - 1) = s.client + i by omega]; exact success⟩
        (by omega)
      refine ⟨last, .turn _ _ _ turn ends, by omega, ?_⟩
      rw [result, client]
      congr 1
      omega
    next =>
      obtain ⟨last, ends, calls, result⟩ := ends_notFull results fine
        ((accepted pos).trans_le full.le)
      refine ⟨last, .turn _ _ _ turn ends, by omega, ?_⟩
      rw [result, r, client]
      split
      next zero =>
        congr 1
        omega
      next =>
        congr 1
        omega

theorem pattern_forced (none : s.window.count newline = 0) :
    ∃ next, scanStep (pattern results) s = some next ∧ next.Fine ∧ next.r = results s.client ∧
      next.client = s.client + 1 ∧ next.passed.length = s.passed.length + 1 ∧
      (0 ≤ results s.client -> next.remaining = 0) ∧
      (results s.client < 0 -> next.remaining = lineMax ∧ next.window.count newline = 0) := by
  have plain := count_eq_zero.mp none
  obtain ⟨next, turn, turned⟩ := forced_turn (pattern results) fine plain full
  have answer := turned.answer
  simp only [pattern, Prod.mk.injEq] at answer
  refine ⟨next, turn, turned.fine, answer.1, answer.2, by simp [turned.passed], ?_, ?_⟩
  next =>
    intro accepted
    rw [← answer.1] at accepted
    rw [(turned.accepted accepted).2.1, full, Nat.sub_self]
  next =>
    intro rejected
    rw [← answer.1] at rejected
    refine ⟨(turned.rejected rejected).2.1.trans full, ?_⟩
    rw [(turned.rejected rejected).2.2]
    exact count_eq_zero.mpr (set_plain plain _ _)

theorem ends_late (j : Nat) (few : s.window.count newline ≤ j)
    (fails : ∀ i < j, results (s.client + i) < 0) (succeeds : 0 ≤ results (s.client + j)) :
    ∃ last, Ends (scanStep (pattern results)) s last ∧ last.passed.length = s.passed.length + j + 1 ∧
      last.r = results (s.client + j) := by
  induction j generalizing s with
  | zero =>
    obtain ⟨next, turn, fine, r, client, passed, accepted, -⟩ :=
      pattern_forced results fine full (by omega)
    rw [Nat.add_zero] at succeeds
    have nothing := accepted succeeds
    have empty : next.window = [] := by simp [Scan.window, nothing]
    have stops : scanStep (pattern results) next = none :=
      scanStep_leaves _ (by simp [empty]) (by rw [nothing]; decide)
    exact ⟨next, .turn _ _ _ turn (.done _ stops), by omega, by simpa using r⟩
  | succ j ih =>
    have failed : results s.client < 0 := by simpa using fails 0 (Nat.succ_pos j)
    have rest : ∀ next : Scan Nat, scanStep (pattern results) s = some next -> next.Fine ->
        next.remaining = lineMax -> next.window.count newline ≤ j -> next.client = s.client + 1 ->
          next.passed.length = s.passed.length + 1 ->
            ∃ last, Ends (scanStep (pattern results)) s last ∧
              last.passed.length = s.passed.length + (j + 1) + 1 ∧ last.r = results (s.client + (j + 1)) := by
      intro next turn fine full few client passed
      have later : ∀ i, next.client + i = s.client + (i + 1) := by
        intro i
        omega
      obtain ⟨last, ends, calls, result⟩ := ih fine full few
        (fun i less => by rw [later]; exact fails (i + 1) (by omega)) (by rw [later]; exact succeeds)
      exact ⟨last, .turn _ _ _ turn ends, by omega, by rw [result, later]⟩
    rcases Nat.eq_zero_or_pos (s.window.count newline) with none | more
    next =>
      obtain ⟨next, turn, fine, -, client, passed, -, rejected⟩ :=
        pattern_forced results fine full none
      exact rest next turn fine (rejected failed).1 (by rw [(rejected failed).2]; omega) client passed
    next =>
      obtain ⟨next, turn, fine, fewer, -, client, passed, -, rejected⟩ :=
        pattern_line results fine more
      exact rest next turn fine ((rejected failed).2.trans full) (by omega) client passed

theorem never_ends (fails : ∀ i, results (s.client + i) < 0) (last : Scan Nat) :
    ¬ Ends (scanStep (pattern results)) s last := by
  refine Loop.not_ends_of_forever (fun s : Scan Nat => s.Fine ∧ s.remaining = lineMax ∧
    ∀ i, results (s.client + i) < 0) ?_ ⟨fine, full, fails⟩ last
  rintro s ⟨fine, full, fails⟩
  have failed : results s.client < 0 := fails 0
  have later : ∀ next : Scan Nat, next.client = s.client + 1 -> ∀ i, results (next.client + i) < 0 := by
    intro next client i
    rw [client, Nat.add_assoc]
    exact fails (1 + i)
  rcases Nat.eq_zero_or_pos (s.window.count newline) with none | more
  next =>
    obtain ⟨next, turn, fine, -, client, -, -, rejected⟩ := pattern_forced results fine full none
    exact ⟨next, turn, fine, (rejected failed).1, later next client⟩
  next =>
    obtain ⟨next, turn, fine, -, -, client, -, -, rejected⟩ := pattern_line results fine more
    exact ⟨next, turn, fine, (rejected failed).2.trans full, later next client⟩

end

end

/-- The bytes that were read do not keep stream_process() from returning, and it returns an error if a line
was rejected. -/
def Safe (results : Nat -> Int) (s : Stream) (bytes : List UInt8) : Prop :=
  (∃ r client next lines, Processes (pattern results) 0 s (.data bytes) r client next lines) ∧
    ∀ r client next lines, Processes (pattern results) 0 s (.data bytes) r client next lines ->
      (∃ i < lines.length, results i < 0) -> r < 0

section

variable {results} {stream : Stream} {bytes : List UInt8}

theorem safe_of_ends (some : bytes ≠ []) {last : Scan Nat}
    (ends : Ends (scanStep (pattern results)) (.start 0 (stream.append bytes)) last) :
    Safe results stream bytes ↔ ((∃ i < last.passed.length, results i < 0) -> last.r < 0) := by
  constructor
  next =>
    rintro ⟨-, closed⟩ rejected
    have negative := closed _ _ _ _ (.scanned bytes last some ends) rejected
    split at negative
    next => assumption
    next => cases negative
  next =>
    intro closed
    refine ⟨⟨_, _, _, _, .scanned bytes last some ends⟩, ?_⟩
    intro r client next lines processed
    cases processed with
    | ended => exact absurd rfl some
    | scanned _ other _ also =>
      obtain rfl := ends.same also
      intro rejected
      rw [if_pos (closed rejected)]
      exact closed rejected

variable (fine : stream.Fine) (some : bytes ≠ []) (fits : stream.length + bytes.length ≤ lineMax)

include fine some fits

theorem safe_seen {lines : Nat} (counted : (stream.contents ++ bytes).count newline = lines)
    (seen : (stream.contents ++ bytes).length < lineMax ∨ ∃ i < lines, 0 ≤ results i) :
    Safe results stream bytes ↔ ∀ i < lines, results i < 0 -> results (lines - 1) < 0 := by
  obtain ⟨start, window⟩ := fine.append fits 0
  have length := start.window_length
  have remaining : (Scan.start 0 (stream.append bytes)).remaining = stream.length + bytes.length := rfl
  have client : (Scan.start 0 (stream.append bytes)).client = 0 := rfl
  have passed : (Scan.start 0 (stream.append bytes)).passed.length = 0 := rfl
  rw [window] at length
  rw [← window] at counted
  obtain ⟨last, ends, calls, result⟩ : ∃ last,
      Ends (scanStep (pattern results)) (.start 0 (stream.append bytes)) last ∧
        last.passed.length = lines ∧ (0 < lines -> last.r = results (lines - 1)) := by
    by_cases room : (stream.contents ++ bytes).length < lineMax
    next =>
      obtain ⟨last, ends, calls, result⟩ := ends_notFull results start (length ▸ room)
      refine ⟨last, ends, by omega, fun some => ?_⟩
      rw [result, counted, if_neg (by omega), client, Nat.zero_add]
    next =>
      have accepts := seen.resolve_left room
      obtain ⟨last, ends, calls, result⟩ := ends_accepted results start (by omega)
        (by simpa [counted, client] using accepts)
      refine ⟨last, ends, by omega, fun _ => ?_⟩
      rw [result, counted, client, Nat.zero_add]
  rw [safe_of_ends some ends, calls]
  constructor
  next =>
    intro closed i less failed
    rw [← result (by omega)]
    exact closed ⟨i, less, failed⟩
  next =>
    rintro closed ⟨i, less, failed⟩
    rw [result (by omega)]
    exact closed i less failed

theorem safe_unseen {lines : Nat} (counted : (stream.contents ++ bytes).count newline = lines)
    (full : lineMax ≤ (stream.contents ++ bytes).length) (fails : ∀ i < lines, results i < 0) :
    Safe results stream bytes ↔ lines = 0 ∧ 0 ≤ results 0 := by
  obtain ⟨start, window⟩ := fine.append fits 0
  have length := start.window_length
  have remaining : (Scan.start 0 (stream.append bytes)).remaining = stream.length + bytes.length := rfl
  have client : (Scan.start 0 (stream.append bytes)).client = 0 := rfl
  have passed : (Scan.start 0 (stream.append bytes)).passed.length = 0 := rfl
  rw [window] at length
  rw [← window] at counted
  by_cases ever : ∃ j, 0 ≤ results j
  next =>
    have first := Nat.find_spec ever
    have before : ∀ i < Nat.find ever, results i < 0 := fun i less => Int.not_le.mp (Nat.find_min ever less)
    have few : lines ≤ Nat.find ever := by
      by_contra less
      have failed := fails (Nat.find ever) (Nat.not_le.mp less)
      omega
    obtain ⟨last, ends, calls, result⟩ := ends_late results start (by omega) (Nat.find ever)
      (by omega) (by simpa [client] using before) (by simpa [client] using first)
    rw [client, Nat.zero_add] at result
    rw [safe_of_ends some ends, result]
    constructor
    next =>
      intro closed
      have now : Nat.find ever = 0 := by
        by_contra later
        have negative := closed ⟨0, by omega, before 0 (by omega)⟩
        omega
      rw [now] at few first
      exact ⟨by omega, first⟩
    next =>
      rintro ⟨-, success⟩ ⟨i, less, failed⟩
      have now : Nat.find ever = 0 := by
        by_contra later
        have negative := before 0 (by omega)
        omega
      obtain rfl : i = 0 := by omega
      omega
  next =>
    have always : ∀ i, results i < 0 := fun i => Int.not_le.mp fun success => ever ⟨i, success⟩
    constructor
    next =>
      rintro ⟨⟨r, client, next, lines, processed⟩, -⟩
      cases processed with
      | ended => exact absurd rfl some
      | scanned _ last _ ends =>
        exact absurd ends (never_ends results start (by omega) (fun i => always _) last)
    next =>
      rintro ⟨-, success⟩
      exact absurd success (Int.not_le.mpr (always 0))

/-- A stream is safe from its client exactly if the results are harmless. -/
theorem streamProcess_safe_iff (results : Nat -> Int) :
    Safe results stream bytes ↔ Harmless results (stream.contents ++ bytes) := by
  unfold Harmless
  dsimp only
  split
  next seen => exact safe_seen fine some fits rfl seen
  next unseen =>
    obtain ⟨full, none⟩ := not_or.mp unseen
    exact safe_unseen fine some fits rfl (Nat.not_lt.mp full) fun i less =>
      Int.not_le.mp fun success => none ⟨i, less, success⟩

end

theorem one_line_safe :
    Safe (fun _ => 0) emptyStream [65, newline] ↔
      Harmless (fun _ => 0) (emptyStream.contents ++ [65, newline]) :=
  streamProcess_safe_iff emptyStream_fine (by decide) (by decide) _

/-- A client that begins with as many bytes as fit and no newline, none of which stream_line() wants. -/
theorem garbage_hangs : ¬ Safe (fun _ => -ebadmsg) emptyStream (List.replicate lineMax 120) := by
  intro safe
  have none : (emptyStream.contents ++ List.replicate lineMax 120).count newline = 0 := by
    simp [emptyStream, Stream.contents, count_replicate, show (120 : UInt8) ≠ newline by decide]
  have accepted := (safe_unseen emptyStream_fine
    (by simp [show lineMax ≠ 0 by decide]) (by simp [emptyStream]) none
    (by simp [emptyStream]) (by simp)).mp safe
  exact absurd accepted.2 (by decide)

@[simp] def StreamState.passed : StreamState -> Nat
  | .target => 0
  | .priority => 1
  | .process => 2
  | .prefixed => 3
  | .running => 4

section

variable (kmsgAvailable : Bool) (streamLog : Client -> CString -> Int)

-- The client after some lines, how many were accepted, and what was logged for it.
def streamLines (s : Client) : List CString -> Client × Nat × List (Client × CString)
  | [] => (s, 0, [])
  | line :: rest =>
    let result := streamLine kmsgAvailable streamLog s line
    let last := streamLines result.2 rest
    (last.1, last.2.1 + (if 0 ≤ result.1 then 1 else 0),
      if s.state = .running then (s, strstrip line) :: last.2.2 else last.2.2)

theorem streamLines_running {s : Client} (running : s.state = .running) (lines : List CString) :
    (streamLines kmsgAvailable streamLog s lines).1 = s ∧
      (streamLines kmsgAvailable streamLog s lines).2.2 = lines.map fun line => (s, strstrip line) := by
  induction lines with
  | nil => exact ⟨rfl, rfl⟩
  | cons line rest ih => simp [streamLines, streamLine, running, ih]

theorem streamLine_passed {s : Client} (header : s.state ≠ .running) (line : CString) :
    (streamLine kmsgAvailable streamLog s line).2.state.passed =
      s.state.passed + if 0 ≤ (streamLine kmsgAvailable streamLog s line).1 then 1 else 0 := by
  have errno : 0 < safeAtoiErrno (strstrip line) := by
    unfold safeAtoiErrno
    split
    · split_ifs <;> decide
    · decide
  cases state : s.state with
  | running => exact absurd state header
  | process => simp [streamLine, state]
  | target =>
    by_cases syslog : strstrip line = .ofString "syslog" ∨ strstrip line = .ofString "syslog+console"
    · simp [streamLine, state, syslog]
    by_cases kmsg : strstrip line = .ofString "kmsg" ∨ strstrip line = .ofString "kmsg+console"
    · cases kmsgAvailable <;> simp [streamLine, state, syslog, kmsg, eperm]
    · simp [streamLine, state, syslog, kmsg, ebadmsg]
  | priority =>
    cases number : Serialization.safeAtoi (strstrip line) with
    | none => simp [streamLine, state, number, errno]
    | some priority => by_cases negative : priority < 0 <;> simp [streamLine, state, number, negative, erange]
  | prefixed =>
    cases flag : Services.parseBoolean (strstrip line) <;> simp [streamLine, state, flag, einval]

/-- What a client says of itself takes four lines that are accepted, and holds for all that is logged. -/
theorem header_settles (s : Client) (lines : List CString) :
    ∃ header text client, lines = header ++ text ∧
      (streamLines kmsgAvailable streamLog s header).2.1 + s.state.passed = client.state.passed ∧
      (text ≠ [] -> client.state = .running) ∧
      (streamLines kmsgAvailable streamLog s lines).1 = client ∧
      (streamLines kmsgAvailable streamLog s lines).2.2 = text.map fun line => (client, strstrip line) := by
  induction lines generalizing s with
  | nil => exact ⟨[], [], s, rfl, Nat.zero_add _, fun more => absurd rfl more, rfl, rfl⟩
  | cons line rest ih =>
    by_cases running : s.state = .running
    · exact ⟨[], line :: rest, s, rfl, Nat.zero_add _, fun _ => running, streamLines_running _ _ running _⟩
    · obtain ⟨header, text, client, split, accepted, settled, last, logged⟩ :=
        ih (streamLine kmsgAvailable streamLog s line).2
      refine ⟨line :: header, text, client, by rw [split, cons_append], ?_, settled, last, ?_⟩
      · have passed := streamLine_passed kmsgAvailable streamLog running line
        simp only [streamLines]
        omega
      · simp [streamLines, running, logged]

end

end Systemd.Streams
