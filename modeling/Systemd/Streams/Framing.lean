import Systemd.Streams.StdoutBridge

set_option autoImplicit false

namespace Systemd.Streams

open List

open Loop (Ends)

def frame : List UInt8 -> List UInt8 -> List (List UInt8) × List UInt8
  | run, [] => ([], run)
  | run, byte :: rest =>
    if byte = newline then
      (run :: (frame [] rest).1, (frame [] rest).2)
    else if run.length + 1 = lineMax then
      ((run ++ [byte]) :: (frame [] rest).1, (frame [] rest).2)
    else
      frame (run ++ [byte]) rest

variable (run : List UInt8)

theorem frame_append (first second : List UInt8) :
    frame run (first ++ second) =
      ((frame run first).1 ++ (frame (frame run first).2 second).1, (frame (frame run first).2 second).2) := by
  induction first generalizing run with
  | nil => rfl
  | cons byte rest ih =>
    rw [cons_append, frame, frame]
    split
    next => rw [ih []]; rfl
    next =>
      split
      next => rw [ih []]; rfl
      next => exact ih _

variable {text : List UInt8}

theorem frame_short (plain : newline ∉ text) (short : run.length + text.length < lineMax) :
    frame run text = ([], run ++ text) := by
  induction text generalizing run with
  | nil => simp [frame]
  | cons byte rest ih =>
    obtain ⟨other, others⟩ : newline ≠ byte ∧ newline ∉ rest := by simpa using plain
    rw [length_cons] at short
    rw [frame, if_neg other.symm, if_neg (by omega), ih _ others (by simp; omega)]
    simp

theorem frame_line (rest : List UInt8) (plain : newline ∉ text)
    (short : run.length + text.length < lineMax) :
    frame run (text ++ newline :: rest) = ((run ++ text) :: (frame [] rest).1, (frame [] rest).2) := by
  rw [frame_append, frame_short run plain short, frame, if_pos rfl]
  rfl

theorem frame_full (plain : newline ∉ text) (some : text ≠ [])
    (full : run.length + text.length = lineMax) : frame run text = ([run ++ text], []) := by
  obtain ⟨front, last, rfl⟩ := (eq_nil_or_concat' text).resolve_left some
  obtain ⟨others, other⟩ : newline ∉ front ∧ newline ≠ last := by simpa using plain
  rw [length_append, length_singleton] at full
  have ended : (run ++ front).length + 1 = lineMax := by
    rw [length_append]
    omega
  rw [frame_append, frame_short run others (by omega), frame, if_neg other.symm, if_pos ended]
  simp [frame]

theorem frame_left (text : List UInt8) (plain : newline ∉ run) (short : run.length < lineMax) :
    newline ∉ (frame run text).2 ∧ (frame run text).2.length < lineMax := by
  induction text generalizing run with
  | nil => exact ⟨plain, short⟩
  | cons byte rest ih =>
    have fresh := ih [] (by simp) (by decide)
    rw [frame]
    split
    next => exact fresh
    next other =>
      split
      next => exact fresh
      next more =>
        have apart : newline ≠ byte := fun same => other same.symm
        exact ih _ (by simp [plain, apart]) (by simp; omega)

variable {S : Type} (line : S -> CString -> Int × S)

def Accepts : Prop :=
  ∀ client text, 0 ≤ (line client text).1

variable {line}

theorem scan_frames (accepts : Accepts line) {s : Scan S} (fine : s.Fine) (good : 0 ≤ s.r) :
    ∃ last, Ends (scanStep line) s last ∧ last.Fine ∧ 0 ≤ last.r ∧
      last.window = (frame [] s.window).2 ∧
      last.passed = s.passed ++ (frame [] s.window).1.map CString.ofBuffer := by
  induction size : s.remaining using Nat.strong_induction_on generalizing s with
  | _ n ih =>
    have length := fine.window_length
    have room := fine.2.1
    have accepted : ∀ {next : Scan S} {text : CString} {ahead skip : Nat},
        Turned line s next text ahead skip -> 0 ≤ next.r := by
      intro next text ahead skip turned
      have answer := accepts s.client text
      rw [← turned.answer] at answer
      exact answer
    by_cases lined : newline ∈ s.window
    next =>
      obtain ⟨pre, post, split, plain⟩ := eq_append_cons_of_mem lined
      obtain ⟨next, turn, turned⟩ := line_turn line fine split plain
      rw [split, length_append, length_cons] at length
      obtain ⟨-, remaining, window⟩ := turned.accepted (accepted turned)
      have behind : next.window = post := by
        rw [window (Nat.lt_succ_self _), split, append_cons]
        exact drop_left' (by simp)
      obtain ⟨last, ends, fineLast, goodLast, left, passed⟩ :=
        ih next.remaining (by omega) turned.fine (accepted turned) rfl
      have framed := frame_line [] post plain (by simp; omega)
      refine ⟨last, .turn _ _ _ turn ends, fineLast, goodLast, ?_, ?_⟩
      next => rw [left, behind, split, framed]
      next =>
        rw [passed, behind, turned.passed, split, framed]
        simp
    next =>
      by_cases full : s.remaining = lineMax
      next =>
        obtain ⟨next, turn, turned⟩ := forced_turn line fine lined full
        obtain ⟨-, remaining, -⟩ := turned.accepted (accepted turned)
        rw [full, Nat.sub_self] at remaining
        have empty : next.window = [] := by simp [Scan.window, remaining]
        have stops : scanStep line next = none :=
          scanStep_leaves _ (by simp [empty]) (by rw [remaining]; decide)
        have some : s.window ≠ [] := by
          intro none
          rw [none, full] at length
          exact absurd length (by decide)
        have framed := frame_full [] lined some (by simpa [full] using length)
        refine ⟨next, .turn _ _ _ turn (.done _ stops), turned.fine, accepted turned, ?_, ?_⟩
        next => rw [empty, framed]
        next =>
          rw [turned.passed, framed]
          simp
      next =>
        have stops : scanStep line s = none := scanStep_leaves _ lined (by omega)
        have framed := frame_short [] lined (by simp; omega)
        exact ⟨s, .done _ stops, fine, good, by rw [framed]; rfl, by rw [framed]; simp⟩

theorem frame_run {run : List UInt8} (plain : newline ∉ run) (short : run.length < lineMax)
    (text : List UInt8) : frame [] (run ++ text) = frame run text := by
  rw [frame_append, frame_short [] plain (by simpa using short)]
  rfl

structure Waiting (s : Stream) : Prop where
  fine : s.Fine
  plain : newline ∉ s.contents
  short : s.contents.length < lineMax

variable {stream : Stream} {bytes : List UInt8}

theorem process_frames (client : S) (accepts : Accepts line) (waiting : Waiting stream) (some : bytes ≠ [])
    (fits : stream.length + bytes.length ≤ lineMax) :
    ∃ client' next, Processes line client stream (.data bytes) 1 client' next
        ((frame stream.contents bytes).1.map CString.ofBuffer) ∧
      Waiting next ∧ next.contents = (frame stream.contents bytes).2 := by
  obtain ⟨start, window⟩ := waiting.fine.append fits client
  obtain ⟨last, ends, fine, good, left, passed⟩ := scan_frames accepts start (Int.le_refl 0)
  have processed : Processes line client stream _ _ _ _ _ := .scanned bytes last some ends
  obtain ⟨compact, contents⟩ := fine.compact
  rw [window, frame_run waiting.plain waiting.short] at left passed
  obtain ⟨plain, short⟩ := frame_left stream.contents bytes waiting.plain waiting.short
  rw [if_neg (Int.not_lt.mpr good), passed] at processed
  refine ⟨_, _, processed, ⟨compact, ?_, ?_⟩, contents.trans left⟩
  next => rw [contents, left]; exact plain
  next => rw [contents, left]; exact short

inductive Reads (line : S -> CString -> Int × S) :
    S -> Stream -> List (List UInt8) -> S -> Stream -> List CString -> Prop where
  | done (client : S) (s : Stream) : Reads line client s [] client s []
  | read {client client' last : S} {s next final : Stream} {bytes : List UInt8} {rest : List (List UInt8)}
      {r : Int} {lines more : List CString} :
      Processes line client s (.data bytes) r client' next lines -> Reads line client' next rest last final more ->
        Reads line client s (bytes :: rest) last final (lines ++ more)

def Deliverable : List UInt8 -> List (List UInt8) -> Prop
  | _, [] => True
  | run, bytes :: rest =>
    bytes ≠ [] ∧ run.length + bytes.length ≤ lineMax ∧ Deliverable (frame run bytes).2 rest

theorem Stream.Fine.contents_length {s : Stream} (fine : s.Fine) : s.contents.length = s.length :=
  length_take_of_le (by rw [fine.1]; exact Nat.le_succ_of_le fine.2.1)

theorem Processes.same {r r' : Int} {client client' client'' : S} {next next' : Stream} {lines lines' : List CString}
    (first : Processes line client stream (.data bytes) r client' next lines)
    (second : Processes line client stream (.data bytes) r' client'' next' lines') :
    r = r' ∧ client' = client'' ∧ next = next' ∧ lines = lines' := by
  cases first with
  | ended =>
    cases second with
    | ended => exact ⟨rfl, rfl, rfl, rfl⟩
    | scanned _ _ some => exact absurd rfl some
  | scanned _ last some ends =>
    cases second with
    | ended => exact absurd rfl some
    | scanned _ other _ also =>
      obtain rfl := ends.same also
      exact ⟨rfl, rfl, rfl, rfl⟩

theorem reads_frames (client : S) (accepts : Accepts line) (waiting : Waiting stream) (chunks : List (List UInt8))
    (deliverable : Deliverable stream.contents chunks) :
    (∃ last final, Reads line client stream chunks last final
      ((frame stream.contents chunks.flatten).1.map CString.ofBuffer)) ∧
    ∀ last final lines, Reads line client stream chunks last final lines ->
      final.Fine ∧ lines = (frame stream.contents chunks.flatten).1.map CString.ofBuffer := by
  induction chunks generalizing client stream with
  | nil =>
    refine ⟨⟨client, stream, .done client stream⟩, ?_⟩
    intro last final lines reads
    cases reads
    exact ⟨waiting.fine, rfl⟩
  | cons bytes rest ih =>
    obtain ⟨some, fits, later⟩ := deliverable
    rw [waiting.fine.contents_length] at fits
    obtain ⟨client', next, processed, waits, contents⟩ :=
      process_frames client accepts waiting some fits
    rw [← contents] at later
    obtain ⟨⟨last, final, goes⟩, every⟩ := ih client' waits later
    have framed : (frame stream.contents (bytes :: rest).flatten).1 =
        (frame stream.contents bytes).1 ++ (frame next.contents rest.flatten).1 := by
      rw [flatten_cons, frame_append, contents]
    rw [framed, map_append]
    refine ⟨⟨last, final, .read processed goes⟩, ?_⟩
    intro last final lines reads
    cases reads with
    | read first others =>
      obtain ⟨-, rfl, rfl, rfl⟩ := processed.same first
      obtain ⟨fine, rest⟩ := every _ _ _ others
      exact ⟨fine, by rw [rest]⟩

end Systemd.Streams
