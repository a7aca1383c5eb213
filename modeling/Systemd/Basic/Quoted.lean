import Systemd.Basic.Escape
import Systemd.Basic.Lines
import Systemd.Basic.Words

set_option autoImplicit false

namespace Systemd

open List

structure QuotedWord where
  start : List UInt8
  length : Nat
  deriving DecidableEq

namespace QuotedWord

def text (w : QuotedWord) : List UInt8 :=
  w.start.take w.length

def copied (w : QuotedWord) : CString :=
  .ofBuffer w.text

def unescaped (w : QuotedWord) : CString :=
  .ofBuffer (cunescapeLength w.start w.length)

end QuotedWord

-- The three loops of split_quoted differ in the characters they stop at.
def wordLength (stops : UInt8 -> Bool) : Bool -> List UInt8 -> Nat
  | _, [] => 0
  | true, _ :: e => wordLength stops false e + 1
  | false, c :: e =>
    if c = backslashByte then
      wordLength stops true e + 1
    else if stops c then
      0
    else
      wordLength stops false e + 1

def quotedWord (quote : UInt8) (current : List UInt8) : QuotedWord × List UInt8 :=
  let l := wordLength (· = quote) false current
  (⟨current, l⟩, (current.drop l).tail)

def bareWord (current : List UInt8) : QuotedWord × List UInt8 :=
  let l := wordLength whitespace.contains false current
  (⟨current, l⟩, current.drop l)

def takeWord (current : List UInt8) : QuotedWord × List UInt8 :=
  match current with
  | [] => bareWord []
  | c :: rest =>
    if c = singleQuote then
      quotedWord singleQuote rest
    else if c = doubleQuote then
      quotedWord doubleQuote rest
    else
      bareWord (c :: rest)

def splitQuoted (c : List UInt8) (state : Option (List UInt8)) :
    Option (QuotedWord × List UInt8) :=
  let current := state.getD c
  if current = [] ∨ c = [] then
    none
  else
    some (takeWord (current.dropWhile whitespace.contains))

def wordsUpTo (c : List UInt8) : Nat -> Option (List UInt8) -> List (QuotedWord × List UInt8)
  | 0, _ => []
  | fuel + 1, state =>
    match splitQuoted c state with
    | none => []
    | some (w, state) => (w, state) :: wordsUpTo c fuel (some state)

def wordsQuoted (c : List UInt8) : List (QuotedWord × List UInt8) :=
  wordsUpTo c (c.length + 1) none

def strvSplitQuoted (s : CString) : List CString :=
  (wordsQuoted s.bytes).map (·.1.unescaped)

theorem wordLength_le (stops : UInt8 -> Bool) (escaped : Bool) (e : List UInt8) :
    wordLength stops escaped e ≤ e.length := by
  fun_induction wordLength stops escaped e with
  | case1 => simp
  | case2 _ e ih => simpa using ih
  | case3 _ ih => simpa using ih
  | case4 => simp
  | case5 _ _ _ _ ih => simpa using ih

theorem wordLength_stops (stops : UInt8 -> Bool) (escaped : Bool) (e : List UInt8) :
    ∀ c ∈ e[wordLength stops escaped e]?, stops c = true := by
  fun_induction wordLength stops escaped e with
  | case1 => simp
  | case2 _ e ih => simpa using ih
  | case3 _ ih => simpa using ih
  | case4 c _ _ stopped => simpa using stopped
  | case5 _ _ _ _ ih => simpa using ih

theorem bareWord_positive {c : UInt8} (plain : c ∉ whitespace) (rest : List UInt8) :
    0 < wordLength whitespace.contains false (c :: rest) := by
  rw [wordLength]
  split
  next => exact Nat.succ_pos _
  next => simp [plain]

variable {current c f rest written : List UInt8} {m : Nat} {stops : UInt8 -> Bool}

theorem takeWord_shorter (nonempty : current ≠ []) (start : ∀ c ∈ current.head?, c ∉ whitespace) :
    (takeWord current).2.length < current.length := by
  cases current with
  | nil => exact absurd rfl nonempty
  | cons c rest =>
    have quoted : ∀ quote, (quotedWord quote rest).2.length < (c :: rest).length := by
      intro quote
      simp only [quotedWord, length_tail, length_drop, length_cons]
      omega
    unfold takeWord
    dsimp only
    split
    next => exact quoted singleQuote
    next =>
      split
      next => exact quoted doubleQuote
      next =>
        have pos := bareWord_positive (start c rfl) rest
        simp only [bareWord, length_drop, length_cons]
        omega

theorem dropWhile_start (current : List UInt8) :
    ∀ c ∈ (current.dropWhile whitespace.contains).head?, c ∉ whitespace := by
  intro c first
  have plain := head?_dropWhile_not whitespace.contains current
  rw [Option.mem_def.mp first] at plain
  simpa using plain

def nextWord (current : List UInt8) : QuotedWord × List UInt8 :=
  takeWord (current.dropWhile whitespace.contains)

theorem nextWord_shorter (nonempty : current ≠ []) : (nextWord current).2.length < current.length := by
  have shorter := (dropWhile_suffix whitespace.contains (l := current)).length_le
  unfold nextWord
  by_cases blank : current.dropWhile whitespace.contains = []
  · rw [blank]
    exact length_pos_iff.mpr nonempty
  · exact Nat.lt_of_lt_of_le (takeWord_shorter blank (dropWhile_start current)) shorter

theorem wordsUpTo_some (nonempty : c ≠ []) (fuel : Nat) (current : List UInt8) :
    wordsUpTo c (fuel + 1) (some current) =
      if current = [] then [] else nextWord current :: wordsUpTo c fuel (some (nextWord current).2) := by
  rw [wordsUpTo, splitQuoted, Option.getD_some]
  by_cases ended : current = []
  · simp [ended]
  · simp [ended, nonempty, nextWord]

theorem wordsUpTo_enough {c c' : List UInt8} (nonempty : c ≠ []) (nonempty' : c' ≠ [])
    {fuel fuel' : Nat} {current : List UInt8} (enough : current.length < fuel)
    (enough' : current.length < fuel') :
    wordsUpTo c fuel (some current) = wordsUpTo c' fuel' (some current) := by
  induction fuel generalizing fuel' current with
  | zero => cases enough
  | succ fuel ih =>
    cases fuel' with
    | zero => cases enough'
    | succ fuel' =>
      rw [wordsUpTo_some nonempty, wordsUpTo_some nonempty']
      by_cases ended : current = []
      · simp [ended]
      · have shorter := nextWord_shorter ended
        rw [if_neg ended, if_neg ended, @ih fuel' _ (by omega) (by omega)]

@[simp] theorem wordsQuoted_nil : wordsQuoted [] = [] := rfl

theorem wordsQuoted_step (nonempty : c ≠ []) :
    wordsQuoted c = nextWord c :: wordsQuoted (nextWord c).2 := by
  have first : wordsQuoted c = wordsUpTo c (c.length + 1) (some c) := rfl
  rw [first, wordsUpTo_some nonempty, if_neg nonempty]
  congr 1
  by_cases ended : (nextWord c).2 = []
  · have pos : 0 < c.length := length_pos_iff.mpr nonempty
    obtain ⟨length, counted⟩ := Nat.exists_eq_succ_of_ne_zero pos.ne'
    rw [ended, wordsQuoted_nil, counted, wordsUpTo_some nonempty, if_pos rfl]
  · exact wordsUpTo_enough nonempty ended (nextWord_shorter nonempty) (Nat.lt_succ_self _)

def Undigit (c : UInt8) : Prop :=
  unhexchar c = none ∧ unoctchar c = none

theorem hexEscape_take (ends : ∀ c ∈ f[m]?, Undigit c) : hexEscape (f.take m) = hexEscape f := by
  have nul : unhexchar 0 = none := by decide
  rcases f with _ | ⟨a, _ | ⟨b, f⟩⟩ <;> rcases m with _ | _ | m
  all_goals simp_all [hexEscape, Undigit]

theorem octEscape_take (ends : ∀ c ∈ f[m]?, Undigit c) : octEscape (f.take m) = octEscape f := by
  have nul : unoctchar 0 = none := by decide
  rcases f with _ | ⟨a, _ | ⟨b, _ | ⟨c, f⟩⟩⟩ <;> rcases m with _ | _ | _ | m
  all_goals simp_all [octEscape, Undigit]

theorem unescapeSwitch_take (c : UInt8) (ends : ∀ d ∈ rest[m]?, Undigit d) :
    unescapeSwitch (c :: rest.take m) = unescapeSwitch (c :: rest) := by
  have hex := hexEscape_take ends
  have oct : octEscape (c :: rest.take m) = octEscape (c :: rest) :=
    octEscape_take (f := c :: rest) (m := m + 1) ends
  simp only [unescapeSwitch, hex, oct]

theorem hexEscape_some {byte : UInt8} (found : hexEscape f = some byte) :
    ∃ a b rest, f = a :: b :: rest ∧ (unhexchar a).isSome ∧ (unhexchar b).isSome := by
  have nul : unhexchar 0 = none := by decide
  rcases f with _ | ⟨a, _ | ⟨b, rest⟩⟩
  · simp [hexEscape, nul] at found
  · simp [hexEscape, nul] at found
  · refine ⟨a, b, rest, rfl, ?_⟩
    cases high : unhexchar a <;> cases low : unhexchar b <;> simp [hexEscape, high, low] at found ⊢

theorem octEscape_some {c : UInt8} {byte : UInt8} (found : octEscape (c :: f) = some byte) :
    ∃ a b rest, f = a :: b :: rest ∧ (unoctchar a).isSome ∧ (unoctchar b).isSome := by
  have nul : unoctchar 0 = none := by decide
  rcases f with _ | ⟨a, _ | ⟨b, rest⟩⟩
  · simp [octEscape, nul] at found
  · simp [octEscape, nul] at found
  · refine ⟨a, b, rest, rfl, ?_⟩
    cases high : unoctchar a <;> cases low : unoctchar b <;> simp [octEscape, high, low] at found ⊢

theorem unescapeSwitch_within (ends : ∀ c, stops c = true -> Undigit c) {c : UInt8} {moved : Nat}
    (switched : unescapeSwitch (c :: rest) = (written, some moved)) :
    wordLength stops false rest = wordLength stops false (rest.drop moved) + moved := by
  have digit : ∀ {d : UInt8}, ¬ Undigit d -> d ≠ backslashByte ∧ stops d = false := by
    intro d digit
    refine ⟨?_, by simpa using mt (ends d) digit⟩
    rintro rfl
    exact digit ⟨by decide, by decide⟩
  have two : ∀ {a b f}, ¬ Undigit a -> ¬ Undigit b ->
      wordLength stops false (a :: b :: f) = wordLength stops false f + 2 := by
    intro a b f first second
    simp [wordLength, digit first, digit second]
  have hexDigit : ∀ {d}, (unhexchar d).isSome -> ¬ Undigit d := by
    intro d some none
    simp [none.1] at some
  have octDigit : ∀ {d}, (unoctchar d).isSome -> ¬ Undigit d := by
    intro d some none
    simp [none.2] at some
  unfold unescapeSwitch at switched
  dsimp only at switched
  split at switched
  next =>
    cases switched
    rfl
  next =>
    split at switched
    next =>
      cases switched
      rfl
    next =>
      split at switched
      next =>
        split at switched
        next byte found =>
          cases switched
          obtain ⟨a, b, f, rfl, first, second⟩ := hexEscape_some found
          exact two (hexDigit first) (hexDigit second)
        next =>
          cases switched
          rfl
      next =>
        split at switched
        next =>
          split at switched
          next byte found =>
            cases switched
            obtain ⟨a, b, f, rfl, first, second⟩ := octEscape_some found
            exact two (octDigit first) (octDigit second)
          next =>
            cases switched
            rfl
        next =>
          cases switched
          rfl

theorem unescapeSwitch_none (switched : unescapeSwitch f = (written, none)) : f = [] := by
  cases f with
  | nil => rfl
  | cons c rest =>
    unfold unescapeSwitch at switched
    dsimp only at switched
    repeat' split at switched
    all_goals cases switched

theorem cunescapeLength_word (ends : ∀ c, stops c = true -> Undigit c) (s : List UInt8) :
    cunescapeLength s (wordLength stops false s) =
      cunescapeLength (s.take (wordLength stops false s)) (wordLength stops false s) := by
  induction counted : s.length using Nat.strong_induction_on generalizing s with
  | _ size ih =>
    have shorter : ∀ f : List UInt8, f.length < s.length ->
        cunescapeLength f (wordLength stops false f) =
          cunescapeLength (f.take (wordLength stops false f)) (wordLength stops false f) :=
      fun f less => ih f.length (counted ▸ less) f rfl
    cases s with
    | nil => rfl
    | cons c rest =>
      by_cases escape : c = backslashByte
      · subst escape
        cases rest with
        | nil => rfl
        | cons d f =>
          have length : wordLength stops false (backslashByte :: d :: f) =
              wordLength stops false f + 1 + 1 := by
            simp [wordLength]
          have same := unescapeSwitch_take d fun e found =>
            ends e (wordLength_stops stops false f e found)
          rw [length, take_succ_cons, take_succ_cons, cunescapeLength_escape,
            cunescapeLength_escape, same]
          cases switched : unescapeSwitch (d :: f) with
          | mk written moved =>
            cases moved with
            | none => cases unescapeSwitch_none switched
            | some moved =>
              have within := unescapeSwitch_within ends switched
              have later := shorter (f.drop moved) (by simp; omega)
              dsimp only
              rw [within, drop_succ_cons, drop_succ_cons, drop_take]
              simpa using later
      · by_cases stopped : stops c = true
        · simp [wordLength, escape, stopped, cunescapeLength_zero]
        · have length : wordLength stops false (c :: rest) = wordLength stops false rest + 1 := by
            simp [wordLength, escape, stopped]
          rw [length, take_succ_cons, cunescapeLength_plain escape, cunescapeLength_plain escape,
            shorter rest (by simp)]

theorem singleQuote_undigit : ∀ c, decide (c = singleQuote) = true -> Undigit c := by
  intro c quote
  obtain rfl := of_decide_eq_true quote
  exact ⟨by decide, by decide⟩

theorem doubleQuote_undigit : ∀ c, decide (c = doubleQuote) = true -> Undigit c := by
  intro c quote
  obtain rfl := of_decide_eq_true quote
  exact ⟨by decide, by decide⟩

theorem whitespace_undigit : ∀ c, whitespace.contains c = true -> Undigit c := by
  intro c blank
  have each : ∀ c ∈ whitespace, unhexchar c = none ∧ unoctchar c = none := by decide
  exact each c (by simpa using blank)

structure WordIn (c : List UInt8) (w : QuotedWord) : Prop where
  start : w.start <:+ c
  within : w.length ≤ w.start.length
  decoded : cunescapeLength w.start w.length = cunescapeLength w.text w.length

theorem WordIn.of_stops {w : QuotedWord} (start : w.start <:+ c)
    (ends : ∀ c, stops c = true -> Undigit c) (length : w.length = wordLength stops false w.start) :
    WordIn c w := by
  refine ⟨start, length ▸ wordLength_le stops false w.start, ?_⟩
  rw [QuotedWord.text, length]
  exact cunescapeLength_word ends w.start

theorem takeWord_in (current : List UInt8) :
    WordIn current (takeWord current).1 ∧ (takeWord current).2 <:+ current := by
  cases current with
  | nil => exact ⟨.of_stops (suffix_refl _) whitespace_undigit rfl, suffix_refl _⟩
  | cons c rest =>
    have behind : rest <:+ c :: rest := suffix_cons c rest
    have state : ∀ quote, (quotedWord quote rest).2 <:+ c :: rest := fun quote =>
      ((tail_suffix _).trans (drop_suffix _ rest)).trans behind
    unfold takeWord
    dsimp only
    split
    next => exact ⟨.of_stops behind singleQuote_undigit rfl, state _⟩
    next =>
      split
      next => exact ⟨.of_stops behind doubleQuote_undigit rfl, state _⟩
      next => exact ⟨.of_stops (suffix_refl _) whitespace_undigit rfl, drop_suffix _ _⟩

theorem nextWord_in (current : List UInt8) :
    WordIn current (nextWord current).1 ∧ (nextWord current).2 <:+ current := by
  obtain ⟨⟨start, within, decoded⟩, state⟩ := takeWord_in (current.dropWhile whitespace.contains)
  have skipped := dropWhile_suffix whitespace.contains (l := current)
  exact ⟨⟨start.trans skipped, within, decoded⟩, state.trans skipped⟩

theorem wordsQuoted_in (c : List UInt8) : ∀ entry ∈ wordsQuoted c, WordIn c entry.1 := by
  induction counted : c.length using Nat.strong_induction_on generalizing c with
  | _ size ih =>
    intro entry mem
    by_cases ended : c = []
    · rw [ended] at mem
      simp at mem
    · obtain ⟨first, state⟩ := nextWord_in c
      rw [wordsQuoted_step ended, mem_cons] at mem
      rcases mem with rfl | later
      · exact first
      · obtain ⟨start, within, decoded⟩ := ih _ (counted ▸ nextWord_shorter ended) _ rfl entry later
        exact ⟨start.trans state, within, decoded⟩

def quoted (s : CString) : List UInt8 :=
  doubleQuote :: ((cescape s).bytes ++ [doubleQuote])

def quotedList (list : List CString) : CString :=
  .ofBuffer (joinWords ' '.toUInt8 (list.map quoted))

theorem wordLength_plain {code : List UInt8} (plain : ∀ c ∈ code, c ≠ backslashByte ∧ stops c = false)
    (rest : List UInt8) :
    wordLength stops false (code ++ rest) = wordLength stops false rest + code.length := by
  induction code with
  | nil => rfl
  | cons c code ih =>
    obtain ⟨⟨other, inside⟩, others⟩ := forall_mem_cons.mp plain
    rw [cons_append, wordLength, if_neg other, inside, if_neg Bool.false_ne_true, ih others,
      length_cons, Nat.add_assoc]

theorem wordLength_cescapeByte (byte : UInt8) (rest : List UInt8) :
    wordLength (· = doubleQuote) false (cescapeByte byte ++ rest) =
      wordLength (· = doubleQuote) false rest + (cescapeByte byte).length := by
  have digits : ∀ digit ∈ List.map (fun digit => '0'.toUInt8 + UInt8.ofNat digit) (List.range 8),
      digit ≠ backslashByte ∧ decide (digit = doubleQuote) = false := by
    decide
  unfold cescapeByte
  split
  next => simp [wordLength]
  next none =>
    split
    next =>
      have other : ∀ c ∈ [octchar (byte.toNat >>> 6), octchar (byte.toNat >>> 3), octchar byte.toNat],
          c ≠ backslashByte ∧ decide (c = doubleQuote) = false := by
        intro c mem
        simp only [mem_cons, not_mem_nil, or_false] at mem
        rcases mem with rfl | rfl | rfl <;> exact digits _ (octchar_digit _)
      have both := wordLength_plain (forall_mem_cons.mp other).2 rest
      simpa [wordLength] using both
    next =>
      refine wordLength_plain (fun c mem => ?_) rest
      obtain rfl := mem_singleton.mp mem
      constructor
      · rintro rfl
        revert none
        decide
      · rw [decide_eq_false_iff_not]
        rintro rfl
        revert none
        decide

theorem wordLength_cescape (bytes rest : List UInt8) :
    wordLength (· = doubleQuote) false (bytes.flatMap cescapeByte ++ rest) =
      wordLength (· = doubleQuote) false rest + (bytes.flatMap cescapeByte).length := by
  induction bytes with
  | nil => rfl
  | cons byte bytes ih =>
    rw [flatMap_cons, append_assoc, wordLength_cescapeByte, ih, length_append]
    omega

theorem nextWord_quoted {blanks : List UInt8} (skipped : ∀ c ∈ blanks, c ∈ whitespace) (s : CString)
    (rest : List UInt8) :
    nextWord (blanks ++ (quoted s ++ rest)) =
      (⟨(cescape s).bytes ++ doubleQuote :: rest, (cescape s).bytes.length⟩, rest) := by
  have first : doubleQuote ∉ whitespace := by decide
  have skip : (blanks ++ (quoted s ++ rest)).dropWhile whitespace.contains = quoted s ++ rest := by
    rw [dropWhile_append_of_pos fun c mem => by simpa using skipped c mem]
    simp [quoted, first]
  have length : wordLength (· = doubleQuote) false ((cescape s).bytes ++ doubleQuote :: rest) =
      (cescape s).bytes.length := by
    have closed : wordLength (· = doubleQuote) false (doubleQuote :: rest) = 0 := by
      rw [wordLength, if_neg (by decide), if_pos (by decide)]
    rw [cescape_bytes, wordLength_cescape, closed, Nat.zero_add]
  have shape : quoted s ++ rest = doubleQuote :: ((cescape s).bytes ++ doubleQuote :: rest) := by
    simp [quoted]
  have single : doubleQuote ≠ singleQuote := by decide
  rw [nextWord, skip, shape, takeWord, if_neg single, if_pos rfl, quotedWord]
  simp only [length, drop_left, tail_cons]

theorem unescaped_quoted (s : CString) (rest : List UInt8) :
    QuotedWord.unescaped ⟨(cescape s).bytes ++ rest, (cescape s).bytes.length⟩ = s := by
  have decoded := Decodes.flatMap (fun byte (_ : byte ∈ s.bytes) => cescapeByte_decodes byte) rest 0
  rw [cunescapeLength_zero, append_nil, Nat.add_zero, ← cescape_bytes] at decoded
  rw [QuotedWord.unescaped, decoded, CString.ofBuffer_self]

theorem quoted_unterminated (s : CString) : 0 ∉ quoted s := by
  have quote : (0 : UInt8) ≠ doubleQuote := by decide
  simp [quoted, quote, (cescape s).terminated]

theorem joinWords_unterminated (list : List CString) : 0 ∉ joinWords ' '.toUInt8 (list.map quoted) := by
  have blank : (0 : UInt8) ≠ ' '.toUInt8 := by decide
  induction list with
  | nil => simp [joinWords]
  | cons s list ih =>
    cases list with
    | nil => simpa [joinWords] using quoted_unterminated s
    | cons other list =>
      simp only [map_cons, joinWords] at ih ⊢
      simp [quoted_unterminated s, blank, ih]

theorem quotedList_bytes (list : List CString) :
    (quotedList list).bytes = joinWords ' '.toUInt8 (list.map quoted) :=
  CString.ofBuffer_bytes (joinWords_unterminated list)

theorem wordsQuoted_blank (list : List CString) (blank : c = joinWords ' '.toUInt8 (list.map quoted) ∨
      list ≠ [] ∧ c = ' '.toUInt8 :: joinWords ' '.toUInt8 (list.map quoted)) :
    (wordsQuoted c).map (·.1.unescaped) = list := by
  induction list generalizing c with
  | nil =>
    rcases blank with rfl | ⟨absent, -⟩
    · rfl
    · exact absurd rfl absent
  | cons s list ih =>
    obtain ⟨blanks, skipped, rest, found, later⟩ : ∃ blanks : List UInt8,
        (∀ c ∈ blanks, c ∈ whitespace) ∧ ∃ rest, c = blanks ++ (quoted s ++ rest) ∧
          (rest = joinWords ' '.toUInt8 (list.map quoted) ∨
            list ≠ [] ∧ rest = ' '.toUInt8 :: joinWords ' '.toUInt8 (list.map quoted)) := by
      obtain ⟨rest, shape, later⟩ : ∃ rest,
          joinWords ' '.toUInt8 ((s :: list).map quoted) = quoted s ++ rest ∧
            (rest = joinWords ' '.toUInt8 (list.map quoted) ∨
              list ≠ [] ∧ rest = ' '.toUInt8 :: joinWords ' '.toUInt8 (list.map quoted)) := by
        cases list with
        | nil => exact ⟨[], by simp [joinWords], .inl rfl⟩
        | cons other list => exact ⟨_, rfl, .inr ⟨by simp, rfl⟩⟩
      rcases blank with rfl | ⟨-, rfl⟩
      · exact ⟨[], by simp, rest, shape, later⟩
      · exact ⟨[' '.toUInt8], by decide, rest, by rw [shape]; rfl, later⟩
    have nonempty : c ≠ [] := by
      rw [found]
      simp [quoted]
    have next := nextWord_quoted skipped s rest
    rw [← found] at next
    rw [wordsQuoted_step nonempty, next, map_cons, unescaped_quoted, ih later]

/-- A list of quoted strings is read back as it was, and every word of any string is decoded as a copy
of the word would be. -/
theorem strvSplitQuoted_quotedList :
    (∀ list, strvSplitQuoted (quotedList list) = list) ∧
      ∀ (s : CString), ∀ entry ∈ wordsQuoted s.bytes,
        cunescapeLength entry.1.start entry.1.length =
            cunescapeLength entry.1.copied.bytes entry.1.copied.bytes.length ∧
          entry.1.unescaped = cunescape entry.1.copied := by
  constructor
  · intro list
    rw [strvSplitQuoted, quotedList_bytes]
    exact wordsQuoted_blank list (.inl rfl)
  · intro s entry mem
    obtain ⟨start, within, decoded⟩ := wordsQuoted_in s.bytes entry mem
    have copy : entry.1.copied.bytes = entry.1.text :=
      CString.ofBuffer_bytes fun nul =>
        s.terminated (start.subset ((List.take_prefix _ _).subset nul))
    have length : entry.1.text.length = entry.1.length := by
      rw [QuotedWord.text, length_take, Nat.min_eq_left within]
    have same : cunescapeLength entry.1.start entry.1.length =
        cunescapeLength entry.1.copied.bytes entry.1.copied.bytes.length := by
      rw [copy, length, decoded]
    exact ⟨same, congrArg CString.ofBuffer same⟩

end Systemd
