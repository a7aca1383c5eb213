import Systemd.Config.Lines

set_option autoImplicit false

namespace Systemd.Config

open List

section

variable {front text piece : List UInt8}

theorem escapedAfter_concat (text : List UInt8) (byte : UInt8) :
    escapedAfter (text ++ [byte]) = (!escapedAfter text && byte = backslash) := by
  rw [escapedAfter, foldl_append]
  rfl

theorem escapedAfter_append (settled : escapedAfter front = false) (text : List UInt8) :
    escapedAfter (front ++ text) = escapedAfter text := by
  induction text using List.reverseRecOn with
  | nil => simpa [escapedAfter] using settled
  | append_singleton text byte ih =>
    rw [← append_assoc, escapedAfter_concat, escapedAfter_concat, ih]

theorem settled_continued (text : List UInt8) : escapedAfter (continued text) = false := by
  have other : space ≠ backslash := by decide
  rw [continued, escapedAfter_concat]
  simp [other]

section

variable (escaped : escapedAfter text = true)
include escaped

theorem escaped_split : ∃ start, text = start ++ [backslash] ∧ continued text = start ++ [space] := by
  induction text using List.reverseRecOn with
  | nil => cases escaped
  | append_singleton start byte _ =>
    rw [escapedAfter_concat] at escaped
    obtain rfl : byte = backslash := by
      simp only [Bool.and_eq_true, decide_eq_true_eq] at escaped
      exact escaped.2
    exact ⟨start, rfl, by simp [continued]⟩

theorem length_continued : (continued text).length = text.length := by
  obtain ⟨start, rfl, same⟩ := escaped_split escaped
  simp [same]

theorem continued_append (front : List UInt8) :
    continued (front ++ text) = front ++ continued text := by
  obtain ⟨start, rfl, same⟩ := escaped_split escaped
  rw [same, ← append_assoc, continued]
  simp

end

theorem continued_ne_nil (text : List UInt8) : continued text ≠ [] := by simp [continued]

theorem settled_append (settled : escapedAfter front = false) (text : List UInt8) :
    escapedAfter (front ++ continued text) = false := by
  rw [escapedAfter_append settled, settled_continued]

def body (line : List UInt8) : List UInt8 :=
  if escapedAfter line then continued line else line

theorem length_body (line : List UInt8) : (body line).length = line.length := by
  rw [body]
  split_ifs with escaped
  · exact length_continued escaped
  · rfl

end

section

variable {front : List UInt8}

theorem joinLines_nil (front : List UInt8) : joinLines front [] = if front = [] then [] else [front] := rfl

theorem joinLines_line (front line : List UInt8) (rest : List (List UInt8)) :
    joinLines front (line :: rest) =
      if escapedAfter line then joinLines (front ++ continued line) rest
      else (front ++ line) :: joinLines [] rest := rfl

theorem joinLines_front (nonempty : front ≠ []) (lines : List (List UInt8)) :
    ∃ out more, joinLines front lines = out :: more ∧ front <+: out := by
  induction lines generalizing front with
  | nil => exact ⟨front, [], by rw [joinLines_nil, if_neg nonempty], prefix_rfl⟩
  | cons line rest ih =>
    rw [joinLines_line]
    split_ifs with escaped
    · obtain ⟨out, more, joined, within⟩ := @ih (front ++ continued line) (by simp [continued])
      exact ⟨out, more, joined, (prefix_append _ _).trans within⟩
    · exact ⟨_, _, rfl, prefix_append _ _⟩

theorem joinLines_cons (front line : List UInt8) (rest : List (List UInt8)) :
    ∃ out more, joinLines front (line :: rest) = out :: more ∧ front ++ body line <+: out := by
  rw [joinLines_line, body]
  split_ifs with escaped
  · exact joinLines_front (by simp [continued]) rest
  · exact ⟨_, _, rfl, prefix_rfl⟩

variable {line : List UInt8} {lines : List (List UInt8)}

theorem joinLines_escaped (escaped : escapedAfter line = true) (front : List UInt8)
    (rest : List (List UInt8)) :
    joinLines front (line :: rest) = joinLines (front ++ continued line) rest := by
  rw [joinLines_line, if_pos escaped]

theorem joinLines_complete (complete : ¬escapedAfter line = true) (front : List UInt8)
    (rest : List (List UInt8)) :
    joinLines front (line :: rest) = (front ++ line) :: joinLines [] rest := by
  rw [joinLines_line, if_neg complete]

theorem joinLines_empty (front : List UInt8) (rest : List (List UInt8)) :
    joinLines front ([] :: rest) = front :: joinLines [] rest := by
  rw [joinLines_complete (by simp [escapedAfter]), append_nil]

theorem joinLines_length (front : List UInt8) (lines : List (List UInt8)) :
    (joinLines front lines).flatten.length = front.length + lines.flatten.length := by
  induction lines generalizing front with
  | nil =>
    rw [joinLines_nil]
    split_ifs with empty
    · simp [empty]
    · simp
  | cons line rest ih =>
    rw [joinLines_line]
    split_ifs with escaped
    · rw [ih, length_append, length_continued escaped, flatten_cons, length_append]
      omega
    · rw [flatten_cons, length_append, ih, flatten_cons, length_append,
        length_append, length_nil]
      omega

def unfinished : List UInt8 -> List (List UInt8) -> List UInt8
  | front, [] => front
  | front, line :: rest =>
    if escapedAfter line then unfinished (front ++ continued line) rest else unfinished [] rest

section

variable (settled : escapedAfter front = false)
include settled

theorem joinPieces_eq (lines : List (List UInt8)) :
    joinLines front lines =
      joinPieces front lines ++ if unfinished front lines = [] then [] else [unfinished front lines] := by
  induction lines generalizing front with
  | nil => rfl
  | cons line rest ih =>
    rw [joinLines_line, joinPieces, unfinished, escapedAfter_append settled]
    by_cases escaped : escapedAfter line = true
    · rw [if_pos escaped, if_pos escaped, if_pos escaped, continued_append escaped]
      exact ih (settled_append settled line)
    · rw [if_neg escaped, if_neg escaped, if_neg escaped, @ih [] rfl, cons_append]

theorem joinPieces_of_finished (finished : unfinished front lines = []) :
    joinPieces front lines = joinLines front lines := by
  rw [joinPieces_eq settled, if_pos finished, append_nil]

theorem finished_of_length
    (whole : (joinPieces front lines).flatten.length = front.length + lines.flatten.length) :
    unfinished front lines = [] := by
  by_contra lost
  have lengths := joinLines_length front lines
  rw [joinPieces_eq settled, if_neg lost, flatten_append, length_append] at lengths
  have pos := length_pos_iff.mpr lost
  simp only [flatten_cons, flatten_nil, append_nil] at lengths
  omega

end

end

variable {stream rest line contents front : List UInt8} {lines : List (List UInt8)}

theorem pieces_enough {first second : Nat} (enough : stream.length < first)
    (also : stream.length < second) : pieces first stream = pieces second stream := by
  induction first generalizing second stream with
  | zero => simp at enough
  | succ first ih =>
    cases second with
    | zero => simp at also
    | succ second =>
      rw [pieces, pieces]
      cases read : fgets lineMax stream with
      | none => rfl
      | some outcome =>
        obtain ⟨l, rest⟩ := outcome
        have shorter := fgets_shorter (by decide) read
        simp only
        rw [ih (by omega) (by omega : rest.length < second)]

def chunks (stream : List UInt8) : List (List UInt8) := pieces (stream.length + 1) stream

theorem chunks_nil : chunks [] = [] := rfl

theorem chunks_step {l : List UInt8} (read : fgets lineMax stream = some (l, rest)) :
    chunks stream = truncateNl l :: chunks rest := by
  have shorter := fgets_shorter (by decide) read
  rw [chunks, pieces]
  simp only [read]
  rw [pieces_enough shorter (Nat.lt_succ_self _), chunks]

def carriageReturn : UInt8 := '\r'.toUInt8

def Clean (bytes : List UInt8) : Prop :=
  ∀ byte ∈ bytes, byte ≠ 0 ∧ byte ≠ carriageReturn

theorem isNewline_iff (byte : UInt8) : isNewline byte = true ↔ byte = newline ∨ byte = carriageReturn := by
  have both : newlines = [newline, carriageReturn] := by decide
  simp [isNewline, both]

section

variable {line : List UInt8} (clean : Clean line) (single : newline ∉ line)

include clean single

theorem truncateNl_line : truncateNl line = line := by
  apply takeWhile_eq_self_iff.mpr
  intro byte mem
  obtain ⟨visible, plain⟩ := clean byte mem
  have other : byte ≠ newline := fun same => single (same ▸ mem)
  have inside : isNewline byte = false := by
    by_contra ends
    rcases (isNewline_iff byte).mp (by simpa using ends) with same | same
    · exact other same
    · exact plain same
  simp [visible, inside]

theorem truncateNl_newline : truncateNl (line ++ [newline]) = line := by
  have inside : ∀ byte ∈ line, (byte ≠ 0 && !isNewline byte) = true :=
    takeWhile_eq_self_iff.mp (truncateNl_line clean single)
  have ends : isNewline newline = true := (isNewline_iff newline).mpr (.inl rfl)
  rw [truncateNl, takeWhile_append_of_pos inside]
  simp [ends]

theorem chunks_line (rest : List UInt8) (fits : line.length < 2047) :
    chunks (line ++ newline :: rest) = line :: chunks rest := by
  have read := fgets_line lineMax line rest single
  rw [if_pos (by simpa [lineMax] using fits)] at read
  rw [chunks_step read, truncateNl_newline clean single]

theorem chunks_long (rest : List UInt8) (long : 2047 ≤ line.length) :
    chunks (line ++ newline :: rest) = line.take 2047 :: chunks (line.drop 2047 ++ newline :: rest) := by
  have read := fgets_line lineMax line rest single
  rw [if_neg (by simpa [lineMax] using long)] at read
  rw [chunks_step read, truncateNl_line]
  · rfl
  · exact fun byte mem => clean byte (mem_of_mem_take mem)
  · exact fun mem => single (mem_of_mem_take mem)

omit clean in
theorem readBytes_last (limit : Nat) : readBytes limit line = (line.take limit, line.drop limit) := by
  induction line generalizing limit with
  | nil => cases limit <;> rfl
  | cons byte line ih =>
    rw [mem_cons, not_or] at single
    cases limit with
    | zero => rfl
    | succ limit =>
      have other : byte ≠ newline := fun same => single.1 same.symm
      rw [readBytes, if_neg other, ih single.2]
      rfl

theorem chunks_last (full : line ≠ []) : chunks line = line.take 2047 :: chunks (line.drop 2047) := by
  have read : fgets lineMax line = some (line.take 2047, line.drop 2047) := by
    rw [fgets, if_neg full, readBytes_last single]
    rfl
  rw [chunks_step read, truncateNl_line]
  · exact fun byte mem => clean byte (mem_of_mem_take mem)
  · exact fun mem => single (mem_of_mem_take mem)

end

theorem file_induction {motive : List UInt8 -> Prop} (empty : motive [])
    (last : ∀ line, line ≠ [] -> newline ∉ line -> motive line)
    (line : ∀ line rest, newline ∉ line -> motive rest -> motive (line ++ newline :: rest))
    (contents : List UInt8) : motive contents := by
  induction size : contents.length using Nat.strong_induction_on generalizing contents with
  | _ size ih =>
    by_cases inside : newline ∈ contents
    · obtain ⟨front, rest, rfl, single⟩ := eq_append_cons_of_mem inside
      refine line front rest single (ih rest.length ?_ rest rfl)
      rw [← size, length_append, length_cons]
      omega
    · by_cases full : contents = []
      · exact full ▸ empty
      · exact last contents full inside

theorem physicalLines_nil : physicalLines [] = [] := by decide

theorem physicalLines_last (full : line ≠ []) (single : newline ∉ line) :
    physicalLines line = [line] := by
  have lines : line.splitOn newline = [line] := by
    apply splitOnP_eq_singleton
    intro byte mem
    have other : byte ≠ newline := fun same => single (same ▸ mem)
    simpa using other
  rw [physicalLines, lines]
  simp [full]

theorem physicalLines_line (single : newline ∉ line) (rest : List UInt8) :
    physicalLines (line ++ newline :: rest) = line :: physicalLines rest := by
  have lines : (line ++ newline :: rest).splitOn newline = line :: rest.splitOn newline := by
    apply splitOnP_append_cons_of_forall_mem
    · intro byte mem
      have other : byte ≠ newline := fun same => single (same ▸ mem)
      simpa using other
    · simp
  have more : rest.splitOn newline ≠ [] := splitOnP_ne_nil _ _
  obtain ⟨first, others, split⟩ := exists_cons_of_ne_nil more
  rw [physicalLines, physicalLines, lines, split]
  simp only [getLast?_cons_cons]
  split_ifs
  · rfl
  · rfl

theorem physicalLines_ne_nil (full : contents ≠ []) : physicalLines contents ≠ [] := by
  induction contents using file_induction with
  | empty => exact absurd rfl full
  | last line full single => simp [physicalLines_last full single]
  | line line rest single _ => simp [physicalLines_line single rest]

/-- Every line is read with a single call, and the last one is not waited for. Only a last line of 2047
bytes whose newline is read with another call may end in a backslash. -/
structure ShortLines (contents : List UInt8) : Prop where
  short : ∀ line ∈ (physicalLines contents).dropLast, line.length ≤ 2046
  last : ∀ line ∈ (physicalLines contents).getLast?,
    if contents.getLast? = some newline then
      line.length ≤ 2046 ∧ escapedAfter line = false ∨ line.length = 2047 ∧ escapedAfter line = true
    else
      line.length ≤ 2047 ∧ escapedAfter line = false

theorem shortLines_nil : ShortLines [] := by
  constructor
  · simp [physicalLines_nil]
  · simp [physicalLines_nil]

section

variable {line : List UInt8} (single : newline ∉ line)

include single

theorem shortLines_last (full : line ≠ []) :
    ShortLines line ↔ line.length ≤ 2047 ∧ escapedAfter line = false := by
  have lines := physicalLines_last full single
  have unterminated : line.getLast? ≠ some newline := fun ends => single (mem_of_getLast? ends)
  constructor
  · intro short
    have last := short.last line (by simp [lines])
    rwa [if_neg unterminated] at last
  · intro fits
    constructor
    · simp [lines]
    · simpa [lines, unterminated] using fits

theorem shortLines_only :
    ShortLines (line ++ [newline]) ↔
      line.length ≤ 2046 ∧ escapedAfter line = false ∨ line.length = 2047 ∧ escapedAfter line = true := by
  have lines : physicalLines (line ++ [newline]) = [line] := by
    rw [physicalLines_line single [], physicalLines_nil]
  have terminated : (line ++ [newline]).getLast? = some newline := by simp
  constructor
  · intro short
    have last := short.last line (by simp [lines])
    rwa [if_pos terminated] at last
  · intro fits
    constructor
    · simp [lines]
    · simpa [lines] using fits

theorem shortLines_line (more : rest ≠ []) :
    ShortLines (line ++ newline :: rest) ↔ line.length ≤ 2046 ∧ ShortLines rest := by
  have lines := physicalLines_line single rest
  have others := physicalLines_ne_nil more
  have final : (line ++ newline :: rest).getLast? = rest.getLast? := by
    rw [getLast?_append_of_ne_nil _ (by simp), getLast?_cons]
    simp [getLast?_eq_some_getLast more]
  have drop : (line :: physicalLines rest).dropLast = line :: (physicalLines rest).dropLast :=
    dropLast_cons_of_ne_nil others
  have last : (line :: physicalLines rest).getLast? = (physicalLines rest).getLast? := by
    simp [getLast?_cons, getLast?_eq_some_getLast others]
  constructor
  · intro short
    have each := short.short
    rw [lines, drop, forall_mem_cons] at each
    have ending := short.last
    rw [lines, last, final] at ending
    exact ⟨each.1, each.2, ending⟩
  · rintro ⟨fits, each, ending⟩
    constructor
    · rw [lines, drop, forall_mem_cons]
      exact ⟨fits, each⟩
    · rw [lines, last, final]
      exact ending

end

theorem clean_split (clean : Clean (line ++ newline :: rest)) : Clean line ∧ Clean rest :=
  ⟨fun byte mem => clean byte (by simp [mem]), fun byte mem => clean byte (by simp [mem])⟩

theorem chunks_extra (clean : Clean contents) (begun : contents = [] -> front = []) :
    front :: joinLines [] (chunks contents) ≠ joinLines front (physicalLines contents) := by
  induction contents using file_induction generalizing front with
  | empty => simp [physicalLines_nil, joinLines, begun rfl]
  | last line full single =>
    rw [physicalLines_last full single]
    obtain ⟨out, more, joined, within⟩ := joinLines_cons front line []
    intro same
    obtain rfl : front = out := (List.cons.inj (same.trans joined)).1
    have length := within.length_le
    rw [length_append, length_body] at length
    exact full (length_eq_zero_iff.mp (by omega))
  | line line rest single ih =>
    rw [physicalLines_line single rest]
    obtain ⟨out, more, joined, within⟩ := joinLines_cons front line (physicalLines rest)
    intro same
    obtain rfl : front = out := (List.cons.inj (same.trans joined)).1
    have length := within.length_le
    rw [length_append, length_body] at length
    obtain rfl : line = [] := length_eq_zero_iff.mp (by omega)
    obtain ⟨cleanLine, cleanRest⟩ := clean_split clean
    rw [joinLines_empty, chunks_line cleanLine single rest (by simp), joinLines_empty] at same
    exact ih cleanRest (fun _ => rfl) (List.cons.inj same).2

theorem long_cut (long : 2047 ≤ line.length) {rest others : List (List UInt8)}
    (same : joinLines front (line.take 2047 :: rest) = joinLines front (line :: others)) :
    line.length = 2047 := by
  obtain ⟨out, more, joined, within⟩ := joinLines_cons front line others
  obtain ⟨cut, later, joinedCut, withinCut⟩ := joinLines_cons front (line.take 2047) rest
  have size : (line.take 2047).length = 2047 := by rw [length_take]; omega
  by_contra longer
  by_cases escaped : escapedAfter (line.take 2047) = true
  · -- The backslash in the middle of the line becomes a space.
    obtain rfl : cut = out := (List.cons.inj (joinedCut.symm.trans (same.trans joined))).1
    obtain ⟨start, split, carried⟩ := escaped_split escaped
    have inner : body (line.take 2047) <+: body line := by
      have order : (front ++ body (line.take 2047)).length ≤ (front ++ body line).length := by
        rw [length_append, length_append, length_body, length_body, size]
        omega
      exact (prefix_append_right_inj front).mp (prefix_of_prefix_length_le withinCut within order)
    have kept : line.take 2047 <+: body line := by
      rw [body]
      split_ifs with ends
      · obtain ⟨whole, rfl, same⟩ := escaped_split ends
        rw [length_append, length_singleton] at long longer
        rw [same, take_append_of_le_length (by omega)]
        exact (List.take_prefix _ _).trans (prefix_append _ _)
      · exact take_prefix _ _
    have equal : body (line.take 2047) = line.take 2047 :=
      List.IsPrefix.eq_of_length (prefix_of_prefix_length_le inner kept (by rw [length_body]))
        (by rw [length_body])
    rw [body, if_pos escaped, carried, split] at equal
    have last := append_cancel_left equal
    exact absurd last (by decide)
  · rw [joinLines_line, if_neg escaped, joined] at same
    obtain rfl := (List.cons.inj same).1
    have length := within.length_le
    rw [length_append, length_append, length_body, size] at length
    omega

theorem drop_full (size : line.length = 2047) : line.take 2047 = line ∧ line.drop 2047 = [] := by
  have whole : line.length ≤ 2047 := size.le
  exact ⟨take_of_length_le whole, drop_of_length_le whole⟩

theorem chunks_full (clean : Clean line) (single : newline ∉ line) (size : line.length = 2047)
    (rest : List UInt8) : chunks (line ++ newline :: rest) = line :: [] :: chunks rest := by
  obtain ⟨whole, nothing⟩ := drop_full size
  have empty : Clean [] := fun byte mem => by simp at mem
  rw [chunks_long clean single rest size.ge, whole, nothing, chunks_line empty (by simp) rest (by simp)]

theorem chunks_short_last (clean : Clean line) (single : newline ∉ line) (full : line ≠ [])
    (fits : line.length ≤ 2047) : chunks line = [line] := by
  rw [chunks_last clean single full, take_of_length_le fits, drop_of_length_le fits, chunks_nil]

theorem passed_of_short (clean : Clean contents) (short : ShortLines contents)
    (settled : escapedAfter front = false) (begun : contents = [] -> front = []) :
    joinPieces front (chunks contents) = joinLines front (physicalLines contents) := by
  induction contents using file_induction generalizing front with
  | empty => simp [chunks_nil, physicalLines_nil, joinPieces, joinLines, begun rfl]
  | last line full single =>
    obtain ⟨fits, complete⟩ := (shortLines_last single full).mp short
    rw [chunks_short_last clean single full fits, physicalLines_last full single, joinPieces, joinLines_line,
      escapedAfter_append settled, if_neg (by simp [complete]), if_neg (by simp [complete])]
    rfl
  | line line rest single ih =>
    obtain ⟨cleanLine, cleanRest⟩ := clean_split clean
    rw [physicalLines_line single rest, joinLines]
    by_cases more : rest = []
    · subst more
      rcases (shortLines_only single).mp short with ⟨fits, complete⟩ | ⟨size, escaped⟩
      · rw [chunks_line cleanLine single [] (by omega), joinPieces, escapedAfter_append settled,
          if_neg (by simp [complete]), if_neg (by simp [complete])]
        rfl
      · -- The rest of this line is read as an empty piece, and ends the continuation.
        have carried := settled_append settled line
        rw [chunks_full cleanLine single size, joinPieces, escapedAfter_append settled, if_pos escaped,
          if_pos escaped, continued_append escaped, joinPieces, append_nil, carried]
        simp [chunks_nil, physicalLines_nil, joinPieces, joinLines, continued_ne_nil]
    · obtain ⟨fits, later⟩ := (shortLines_line single more).mp short
      rw [chunks_line cleanLine single rest (by omega), joinPieces, escapedAfter_append settled]
      split_ifs with escaped
      · rw [continued_append escaped]
        exact ih cleanRest later (settled_append settled line) fun empty => absurd empty more
      · rw [ih cleanRest later rfl fun _ => rfl]

theorem short_of_passed (clean : Clean contents) (settled : escapedAfter front = false)
    (finished : unfinished front (chunks contents) = [])
    (same : joinLines front (chunks contents) = joinLines front (physicalLines contents)) :
    ShortLines contents := by
  induction contents using file_induction generalizing front with
  | empty => exact shortLines_nil
  | last line full single =>
    rw [shortLines_last single full]
    have fits : line.length ≤ 2047 := by
      by_contra long
      rw [chunks_last clean single full, physicalLines_last full single] at same
      exact long (long_cut (by omega) same).le
    rw [chunks_short_last clean single full fits, unfinished] at finished
    refine ⟨fits, ?_⟩
    by_contra escaped
    rw [if_pos (by simpa using escaped), unfinished] at finished
    simp [continued_ne_nil] at finished
  | line line rest single ih =>
    obtain ⟨cleanLine, cleanRest⟩ := clean_split clean
    rw [physicalLines_line single rest] at same
    by_cases fits : line.length < 2047
    · rw [chunks_line cleanLine single rest fits] at same finished
      rw [unfinished] at finished
      have size : line.length ≤ 2046 := by omega
      by_cases escaped : escapedAfter line = true
      · rw [if_pos escaped] at finished
        rw [joinLines_escaped escaped, joinLines_escaped escaped] at same
        have later := ih cleanRest (settled_append settled line) finished same
        have more : rest ≠ [] := by
          rintro rfl
          simp [chunks_nil, unfinished, continued_ne_nil] at finished
        exact (shortLines_line single more).mpr ⟨size, later⟩
      · rw [if_neg escaped] at finished
        rw [joinLines_complete escaped, joinLines_complete escaped] at same
        have later := ih cleanRest rfl finished (List.cons.inj same).2
        by_cases more : rest = []
        · subst more
          exact (shortLines_only single).mpr (.inl ⟨size, by simpa using escaped⟩)
        · exact (shortLines_line single more).mpr ⟨size, later⟩
    · have size : line.length = 2047 := by
        have cut := same
        rw [chunks_long cleanLine single rest (by omega)] at cut
        exact long_cut (by omega) cut
      rw [chunks_full cleanLine single size] at same
      by_cases escaped : escapedAfter line = true
      · rw [joinLines_escaped escaped, joinLines_escaped escaped, joinLines_empty] at same
        by_cases more : rest = []
        · subst more
          exact (shortLines_only single).mpr (.inr ⟨size, escaped⟩)
        · exact absurd same (chunks_extra cleanRest fun empty => absurd empty more)
      · rw [joinLines_complete escaped, joinLines_complete escaped, joinLines_empty] at same
        exact absurd (List.cons.inj same).2 (chunks_extra cleanRest fun _ => rfl)

def visible (contents : List UInt8) : List UInt8 := contents.filter fun byte => byte ≠ newline

theorem visible_line (single : newline ∉ line) : visible line = line := by
  apply filter_eq_self.mpr
  intro byte mem
  have other : byte ≠ newline := fun same => single (same ▸ mem)
  simpa using other

theorem visible_append (line rest : List UInt8) : visible (line ++ newline :: rest) = visible line ++ visible rest := by
  simp [visible]

theorem physicalLines_flatten (contents : List UInt8) : (physicalLines contents).flatten = visible contents := by
  induction contents using file_induction with
  | empty => rfl
  | last line full single => simp [physicalLines_last full single, visible_line single]
  | line line rest single ih =>
    rw [physicalLines_line single rest, flatten_cons, ih, visible_append, visible_line single]

theorem chunks_flatten (clean : Clean stream) : (chunks stream).flatten = visible stream := by
  induction size : stream.length using Nat.strong_induction_on generalizing stream with
  | _ size ih =>
    by_cases inside : newline ∈ stream
    · obtain ⟨line, rest, rfl, single⟩ := eq_append_cons_of_mem inside
      obtain ⟨cleanLine, cleanRest⟩ := clean_split clean
      rw [length_append, length_cons] at size
      by_cases fits : line.length < 2047
      · rw [chunks_line cleanLine single rest fits, flatten_cons, ih rest.length (by omega) cleanRest rfl,
          visible_append, visible_line single]
      · have dropped : Clean (line.drop 2047 ++ newline :: rest) := by
          intro byte mem
          rcases mem_append.mp mem with within | beyond
          · exact cleanLine byte (mem_of_mem_drop within)
          · exact clean byte (mem_append_right _ beyond)
        rw [chunks_long cleanLine single rest (by omega), flatten_cons, ih _ ?_ dropped rfl,
          visible_append, visible_append, visible_line single,
          visible_line fun mem => single (mem_of_mem_drop mem), ← append_assoc,
          take_append_drop]
        rw [length_append, length_cons, length_drop]
        omega
    · by_cases full : stream = []
      · subst full
        rfl
      · have dropped : Clean (stream.drop 2047) := fun byte mem => clean byte (mem_of_mem_drop mem)
        have pos := length_pos_iff.mpr full
        rw [chunks_last clean inside full, flatten_cons, ih _ ?_ dropped rfl, visible_line inside,
          visible_line fun mem => inside (mem_of_mem_drop mem), take_append_drop]
        rw [length_drop]
        omega

theorem mem_joinLines {byte : UInt8} (plain : byte ≠ backslash)
    (mem : byte ∈ front ∨ byte ∈ lines.flatten) : byte ∈ (joinLines front lines).flatten := by
  induction lines generalizing front with
  | nil =>
    rw [flatten_nil, or_iff_left not_mem_nil] at mem
    rw [joinLines_nil, if_neg (ne_nil_of_mem mem)]
    simpa using mem
  | cons line rest ih =>
    rw [flatten_cons, mem_append] at mem
    by_cases escaped : escapedAfter line = true
    · have kept : byte ∈ line -> byte ∈ continued line := by
        obtain ⟨start, rfl, same⟩ := escaped_split escaped
        rw [same, mem_append, mem_append, mem_singleton]
        exact fun mem => .inl (mem.resolve_right plain)
      rw [joinLines_escaped escaped]
      apply ih
      rcases mem with own | here | later
      · exact .inl (mem_append_left _ own)
      · exact .inl (mem_append_right _ (kept here))
      · exact .inr later
    · rw [joinLines_complete escaped, flatten_cons, mem_append, mem_append]
      rcases mem with own | here | later
      · exact .inl (.inl own)
      · exact .inl (.inr here)
      · exact .inr (ih (.inr later))

theorem clean_pieces (fuel : Nat) (stream : List UInt8) : Clean (pieces fuel stream).flatten := by
  induction fuel generalizing stream with
  | zero => exact fun byte mem => by simp [pieces] at mem
  | succ fuel ih =>
    rw [pieces]
    cases read : fgets lineMax stream with
    | none => exact fun byte mem => by simp at mem
    | some outcome =>
      obtain ⟨l, rest⟩ := outcome
      intro byte mem
      rcases mem_append.mp mem with here | later
      · have kept := mem_takeWhile_imp here
        simp only [Bool.and_eq_true, decide_eq_true_eq, Bool.not_eq_true'] at kept
        refine ⟨kept.1, ?_⟩
        rintro rfl
        rw [(isNewline_iff carriageReturn).mpr (.inr rfl)] at kept
        exact absurd kept.2 (by simp)
      · exact ih rest byte later

theorem clean_joinPieces (start : Clean front) (each : Clean lines.flatten) :
    Clean (joinPieces front lines).flatten := by
  have blank : space ≠ 0 ∧ space ≠ carriageReturn := by decide
  induction lines generalizing front with
  | nil => exact fun byte mem => by simp [joinPieces] at mem
  | cons line rest ih =>
    have own : Clean (front ++ line) := by
      intro byte mem
      rcases mem_append.mp mem with before | here
      · exact start byte before
      · exact each byte (mem_append_left _ here)
    have later : Clean rest.flatten := fun byte mem => each byte (mem_append_right _ mem)
    rw [joinPieces]
    split_ifs
    · apply ih _ later
      intro byte mem
      rcases mem_append.mp mem with kept | last
      · exact own byte (dropLast_subset _ kept)
      · exact mem_singleton.mp last ▸ blank
    · intro byte mem
      rcases mem_append.mp mem with here | beyond
      · exact own byte here
      · exact ih (fun byte mem => by simp at mem) later byte beyond

theorem clean_of_passed (same : passedLines contents = logicalLines contents) : Clean contents := by
  have passed : Clean (passedLines contents).flatten :=
    clean_joinPieces (fun byte mem => by simp at mem) (clean_pieces _ contents)
  have special : ∀ byte ∈ contents, byte ≠ newline -> byte ≠ backslash -> byte ≠ 0 ∧ byte ≠ carriageReturn := by
    intro byte mem text plain
    apply passed byte
    rw [same, logicalLines]
    apply mem_joinLines plain (.inr _)
    rw [physicalLines_flatten, visible, mem_filter]
    exact ⟨mem, by simpa using text⟩
  intro byte mem
  by_cases text : byte = newline
  · exact text ▸ by decide
  · by_cases plain : byte = backslash
    · exact plain ▸ by decide
    · exact special byte mem text plain

def Fits (contents : List UInt8) : Prop := Clean contents ∧ ShortLines contents

theorem fits_of_passed (same : passedLines contents = logicalLines contents) : Fits contents := by
  have clean := clean_of_passed same
  have whole : (joinPieces [] (chunks contents)).flatten.length =
      ([] : List UInt8).length + (chunks contents).flatten.length := by
    have lengths := congrArg (fun lines => lines.flatten.length) same
    simp only [logicalLines, joinLines_length, physicalLines_flatten] at lengths
    rw [chunks_flatten clean]
    exact lengths
  have finished := finished_of_length rfl whole
  refine ⟨clean, short_of_passed clean rfl finished ?_⟩
  rw [← joinPieces_of_finished rfl finished]
  exact same

theorem configParse_honours_iff (contents : List UInt8) : Honoured contents ↔ Fits contents := by
  rw [honoured_iff_passed]
  constructor
  · exact fits_of_passed
  · rintro ⟨clean, short⟩
    exact passed_of_short clean short rfl fun _ => rfl

theorem configParse_dishonours :
    ¬Honoured ("Description=a\\\n".toList.map Char.toUInt8) ∧
      ¬Honoured (List.replicate 2100 'a'.toUInt8 ++ [newline]) := by
  constructor
  · rw [honoured_iff_passed]
    decide
  · intro honoured
    have fits := fits_of_passed ((honoured_iff_passed _).mp honoured)
    have single : newline ∉ List.replicate 2100 'a'.toUInt8 := by
      intro mem
      exact absurd (eq_of_mem_replicate mem) (by decide)
    have short := (shortLines_only single).mp fits.2
    rw [length_replicate] at short
    omega

end Systemd.Config
