import Systemd.Basic.Quoted

set_option autoImplicit false

namespace Systemd

open List

def wordRuns (separator text : List UInt8) : List (List UInt8) :=
  (text.splitOnP separator.contains).filter (· ≠ [])

/-- The words that split enumerates, however long it is called, and that strv_split collects. -/
structure SplitsExactly (text : CString) (separator : List UInt8) : Prop where
  enumerated : ∀ fuel, text.bytes.length < fuel ->
    splitWords separator fuel text.bytes = wordRuns separator text.bytes
  collected : strvSplit text separator = wordRuns separator text.bytes

-- The word begins behind a quotation mark, and the same mark follows.
def Explicit (c : List UInt8) (w : QuotedWord) : Prop :=
  ∃ quote front rest, (quote = singleQuote ∨ quote = doubleQuote) ∧ w.start = quote :: rest ∧
    c = front ++ quote :: quote :: rest

def QuotedExactly (c : List UInt8) : Prop :=
  ∀ entry ∈ wordsQuoted c, entry.1.length = 0 -> Explicit c entry.1

/-- Where a text ends, as the quotation rules read it: between the words, behind white space, in a
bare word, behind an opening quotation mark or further on in a quoted word. -/
inductive Place where
  | between
  | blank
  | bare (escaped : Bool)
  | opened (quote : UInt8)
  | quoted (quote : UInt8) (escaped : Bool)
  deriving DecidableEq

namespace Place

def outside (c : UInt8) : Place :=
  if c ∈ whitespace then .blank
  else if c = singleQuote ∨ c = doubleQuote then .opened c
  else .bare (c = backslashByte)

def unquoted (c : UInt8) : Place :=
  if c = backslashByte then .bare true
  else if c ∈ whitespace then .blank
  else .bare false

def inside (quote c : UInt8) : Place :=
  if c = backslashByte then .quoted quote true
  else if c = quote then .between
  else .quoted quote false

def step : Place -> UInt8 -> Place
  | .between, c => outside c
  | .blank, c => outside c
  | .bare true, _ => .bare false
  | .bare false, c => unquoted c
  | .opened quote, c => inside quote c
  | .quoted quote true, _ => .quoted quote false
  | .quoted quote false, c => inside quote c

def after (place : Place) (text : List UInt8) : Place :=
  text.foldl step place

def Hanging : Place -> Prop
  | .blank => True
  | .opened _ => True
  | _ => False

instance : DecidablePred Hanging
  | .between => isFalse id
  | .blank => isTrue trivial
  | .bare _ => isFalse id
  | .opened _ => isTrue trivial
  | .quoted _ _ => isFalse id

end Place

section

variable {separator : List UInt8}

theorem wordRuns_separator {byte : UInt8} (mem : byte ∈ separator) (rest : List UInt8) :
    wordRuns separator (byte :: rest) = wordRuns separator rest := by
  have here : separator.contains byte = true := by simpa using mem
  rw [wordRuns, splitOnP_cons_eq_if_modifyHead, if_pos here, filter_cons_of_neg (by simp), wordRuns]

theorem wordRuns_skip {front : List UInt8} (blank : ∀ byte ∈ front, byte ∈ separator)
    (rest : List UInt8) : wordRuns separator (front ++ rest) = wordRuns separator rest := by
  induction front with
  | nil => rfl
  | cons byte front ih =>
    rw [forall_mem_cons] at blank
    rw [cons_append, wordRuns_separator blank.1, ih blank.2]

variable {rest : List UInt8}

theorem wordRuns_word {word : List UInt8} (isWord : IsWord separator word)
    (stops : ∀ byte ∈ rest.head?, byte ∈ separator) :
    wordRuns separator (word ++ rest) = word :: wordRuns separator rest := by
  have apart : ∀ byte ∈ word, separator.contains byte = false := by
    intro byte mem
    simpa using isWord.2 byte mem
  cases rest with
  | nil =>
    rw [append_nil, wordRuns, splitOnP_eq_singleton apart]
    simp [wordRuns, isWord.1]
  | cons byte rest =>
    have here : byte ∈ separator := stops byte rfl
    rw [wordRuns_separator here, wordRuns,
      splitOnP_append_cons_of_forall_mem apart byte (by simpa using here) rest,
      filter_cons_of_pos (by simpa using isWord.1), wordRuns]

def extraWord (separator text : List UInt8) : List (List UInt8) :=
  if ∃ byte ∈ text.getLast?, byte ∈ separator then [[]] else []

theorem extraWord_append (front : List UInt8) (nonempty : rest ≠ []) :
    extraWord separator (front ++ rest) = extraWord separator rest := by
  rw [extraWord, extraWord, getLast?_append_of_ne_nil _ nonempty]

theorem splitWords_runs (fuel : Nat) (text : List UInt8) (enough : text.length < fuel) :
    splitWords separator fuel text = wordRuns separator text ++ extraWord separator text := by
  induction fuel generalizing text with
  | zero => cases enough
  | succ fuel ih =>
    by_cases ended : text = []
    · subst ended
      rfl
    · have skipped : ∀ byte ∈ text.takeWhile separator.contains, byte ∈ separator := by
        intro byte mem
        simpa using mem_takeWhile_imp mem
      have halves := takeWhile_append_dropWhile (p := separator.contains) (l := text)
      have starts := head?_dropWhile_not separator.contains text
      rw [splitWords, if_neg ended]
      dsimp only
      generalize text.takeWhile separator.contains = front at skipped halves
      generalize text.dropWhile separator.contains = current at halves starts ⊢
      subst halves
      by_cases blank : current = []
      · -- Nothing but separators is left, and the empty run behind them counts as a word.
        subst blank
        have last : ∃ byte ∈ (front ++ []).getLast?, byte ∈ separator :=
          ⟨_, getLast?_eq_some_getLast ended, skipped _ (by simp)⟩
        have nothing : wordRuns separator ([] : List UInt8) = [] := rfl
        rw [wordRuns_skip skipped, nothing, extraWord, if_pos last]
        cases fuel <;> rfl
      · have whole := takeWhile_append_dropWhile (p := fun byte => !separator.contains byte)
          (l := current)
        have stops := head?_dropWhile_not (fun byte => !separator.contains byte) current
        have solid : ∀ byte ∈ current.takeWhile fun byte => !separator.contains byte, byte ∉ separator := by
          intro byte mem
          simpa using mem_takeWhile_imp mem
        have nonempty : (current.takeWhile fun byte => !separator.contains byte) ≠ [] := by
          cases current with
          | nil => exact absurd rfl blank
          | cons byte rest =>
            have plain : separator.contains byte = false := by simpa using starts
            simp only [takeWhile_cons, plain]
            exact cons_ne_nil _ _
        generalize (current.takeWhile fun byte => !separator.contains byte) = word at whole solid nonempty ⊢
        generalize (current.dropWhile fun byte => !separator.contains byte) = rest at whole stops ⊢
        subst whole
        have bounded : ∀ byte ∈ rest.head?, byte ∈ separator := by
          intro byte first
          rw [Option.mem_def.mp first] at stops
          simpa using stops
        have pos := length_pos_iff.mpr nonempty
        simp only [length_append] at enough
        rw [wordRuns_skip skipped, wordRuns_word ⟨nonempty, solid⟩ bounded, ih rest (by omega),
          extraWord_append front (by simp [nonempty]), cons_append]
        by_cases ended' : rest = []
        · subst ended'
          have inner : ¬∃ byte ∈ word.getLast?, byte ∈ separator := by
            rintro ⟨byte, last, mem⟩
            exact solid byte (mem_of_getLast? last) mem
          rw [append_nil, extraWord, extraWord, if_neg inner, if_neg (by simp)]
        · rw [extraWord_append word ended']

theorem splitsExactly_iff (text : CString) :
    SplitsExactly text separator ↔ ∀ byte ∈ text.bytes.getLast?, byte ∉ separator := by
  have collected := @splitWords_runs separator (text.bytes.length + 1) text.bytes (Nat.lt_succ_self _)
  constructor
  · intro exactly byte last mem
    have same := exactly.collected
    have trailing : ∃ byte ∈ text.bytes.getLast?, byte ∈ separator := ⟨byte, last, mem⟩
    rw [strvSplit, collected, extraWord, if_pos trailing] at same
    simp at same
  · intro plain
    have none : ¬∃ byte ∈ text.bytes.getLast?, byte ∈ separator := by
      rintro ⟨byte, last, mem⟩
      exact plain byte last mem
    have nothing : extraWord separator text.bytes = [] := by rw [extraWord, if_neg none]
    rw [nothing, append_nil] at collected
    refine ⟨fun fuel enough => ?_, collected⟩
    rw [splitWords_runs fuel text.bytes enough, nothing, append_nil]

end

namespace Place

variable (place : Place)

@[simp] theorem after_nil : place.after [] = place := rfl

@[simp] theorem after_cons (c : UInt8) (rest : List UInt8) :
    place.after (c :: rest) = (place.step c).after rest := rfl

theorem after_append (front rest : List UInt8) :
    place.after (front ++ rest) = (place.after front).after rest :=
  foldl_append

theorem after_reads (read : Bool -> Place) (target : Place) (stops : UInt8 -> Bool)
    (skips : ∀ c, (read true).step c = read false) (reads : ∀ c, (read false).step c = if c =
      backslashByte then read true else if stops c then target else read false) (escaped : Bool)
    (e : List UInt8) :
    (∃ last, e.drop (wordLength stops escaped e) = [] ∧ (read escaped).after e = read last) ∨
      ∃ c rest, e.drop (wordLength stops escaped e) = c :: rest ∧ stops c = true ∧
        (read escaped).after e = target.after rest := by
  fun_induction wordLength stops escaped e with
  | case1 escaped => exact .inl ⟨escaped, rfl, rfl⟩
  | case2 c e ih =>
    rw [after_cons, skips, drop_succ_cons]
    exact ih
  | case3 e ih =>
    rw [after_cons, reads, if_pos rfl, drop_succ_cons]
    exact ih
  | case4 c e other stopped =>
    rw [after_cons, reads, if_neg other, if_pos stopped]
    exact .inr ⟨c, e, rfl, stopped, rfl⟩
  | case5 c e other stopped ih =>
    rw [after_cons, reads, if_neg other, if_neg stopped, drop_succ_cons]
    exact ih

theorem after_quoted (quote : UInt8) (escaped : Bool) (e : List UInt8) :
    ((quoted quote escaped).after e).Hanging ↔
      (between.after (e.drop (wordLength (· = quote) escaped e)).tail).Hanging := by
  have reads := after_reads (quoted quote) between (· = quote)
    (fun _ => rfl) (fun c => by simp [step, inside]) escaped e
  rcases reads with ⟨last, dropped, ends⟩ | ⟨c, rest, dropped, -, ends⟩
  · rw [ends, dropped]
    exact Iff.rfl
  · rw [ends, dropped, tail_cons]

theorem after_bare (escaped : Bool) (e : List UInt8) :
    ((bare escaped).after e).Hanging ↔
      (between.after (e.drop (wordLength whitespace.contains escaped e))).Hanging := by
  have reads := after_reads bare blank whitespace.contains
    (fun _ => rfl) (fun c => by simp [step, unquoted]) escaped e
  rcases reads with ⟨last, dropped, ends⟩ | ⟨c, rest, dropped, stopped, ends⟩
  · rw [ends, dropped]
    exact Iff.rfl
  · have white : c ∈ whitespace := by simpa using stopped
    rw [ends, dropped, after_cons, step, outside, if_pos white]

variable {front : List UInt8}

theorem after_whitespace (white : ∀ c ∈ front, c ∈ whitespace) (nonempty : front ≠ []) :
    between.after front = blank := by
  have stays : ∀ front : List UInt8, (∀ c ∈ front, c ∈ whitespace) -> blank.after front = blank := by
    intro front white
    induction front with
    | nil => rfl
    | cons c front ih =>
      rw [forall_mem_cons] at white
      rw [after_cons, step, outside, if_pos white.1, ih white.2]
  cases front with
  | nil => exact absurd rfl nonempty
  | cons c front =>
    rw [forall_mem_cons] at white
    rw [after_cons, step, outside, if_pos white.1, stays front white.2]

theorem after_skip (white : ∀ c ∈ front, c ∈ whitespace) (c : UInt8) (rest : List UInt8) :
    between.after (front ++ c :: rest) = (outside c).after rest := by
  rw [after_append]
  by_cases nonempty : front = []
  · subst nonempty
    rfl
  · rw [after_whitespace white nonempty]
    rfl

end Place

variable {c rest front : List UInt8}

theorem Explicit.mono {c' : List UInt8} {w : QuotedWord} (e : Explicit c w) (suffix : c <:+ c') :
    Explicit c' w := by
  obtain ⟨before, rfl⟩ := suffix
  obtain ⟨quote, front, rest, mark, start, found⟩ := e
  exact ⟨quote, before ++ front, rest, mark, start, by rw [found, append_assoc]⟩

structure KnownWord (c : List UInt8) : Prop where
  hanging : (Place.between.after c).Hanging ↔
    (nextWord c).1.start = [] ∨ (Place.between.after (nextWord c).2).Hanging
  explicit : (nextWord c).1.length = 0 -> (nextWord c).1.start ≠ [] -> Explicit c (nextWord c).1

theorem quotedWord_tells {quote : UInt8} (mark : quote = singleQuote ∨ quote = doubleQuote)
    (white : ∀ d ∈ front, d ∈ whitespace) (whole : c = front ++ quote :: rest)
    (word : nextWord c = quotedWord quote rest) : KnownWord c := by
  have opens : Place.outside quote = .opened quote := by
    have plain : quote ∉ whitespace := by rcases mark with rfl | rfl <;> decide
    rw [Place.outside, if_neg plain, if_pos mark]
  constructor
  · rw [whole, Place.after_skip white, opens, ← whole, word, quotedWord]
    cases rest with
    | nil => simp [Place.Hanging]
    | cons d rest =>
      have same : (Place.opened quote).after (d :: rest) = (Place.quoted quote false).after (d :: rest) := rfl
      rw [same, Place.after_quoted]
      simp
  · rw [word, quotedWord]
    intro empty nonempty
    cases rest with
    | nil => exact absurd rfl nonempty
    | cons d rest =>
      have here : d = quote := by
        by_contra other
        simp only [wordLength, decide_eq_true_eq, if_neg other] at empty
        split at empty <;> simp at empty
      exact ⟨quote, front, rest, mark, by rw [here], by rw [whole, here]⟩

theorem bareWord_tells {d : UInt8} (plain : d ∉ whitespace)
    (unmarked : ¬(d = singleQuote ∨ d = doubleQuote)) (white : ∀ e ∈ front, e ∈ whitespace)
    (whole : c = front ++ d :: rest) (word : nextWord c = bareWord (d :: rest)) : KnownWord c := by
  constructor
  · have length : wordLength whitespace.contains false (d :: rest) =
        wordLength whitespace.contains (d = backslashByte) rest + 1 := by
      rw [wordLength]
      by_cases escape : d = backslashByte <;> simp [escape, plain]
    rw [whole, Place.after_skip white, Place.outside, if_neg plain, if_neg unmarked, Place.after_bare,
      ← whole, word, bareWord, length]
    simp
  · intro empty
    rw [word, bareWord] at empty
    exact absurd empty (bareWord_positive plain rest).ne'

theorem nextWord_known (nonempty : c ≠ []) : KnownWord c := by
  have white : ∀ d ∈ c.takeWhile whitespace.contains, d ∈ whitespace := by
    intro d mem
    simpa using mem_takeWhile_imp mem
  have halves := takeWhile_append_dropWhile (p := whitespace.contains) (l := c)
  have starts := dropWhile_start c
  cases current : c.dropWhile whitespace.contains with
  | nil =>
    rw [current, append_nil] at halves
    have word : nextWord c = (⟨[], 0⟩, []) := by rw [nextWord, current]; rfl
    constructor
    · have ends := Place.after_whitespace white (by rwa [halves])
      rw [halves] at ends
      simp [ends, word, Place.Hanging]
    · simp [word]
  | cons d rest =>
    have plain : d ∉ whitespace := starts d (by rw [current]; rfl)
    have whole : c = c.takeWhile whitespace.contains ++ d :: rest := by rw [← current, halves]
    have taken : nextWord c = takeWord (d :: rest) := by rw [nextWord, current]
    by_cases single : d = singleQuote
    · exact quotedWord_tells (.inl single) white whole (by rw [taken, takeWord, if_pos single, single])
    · by_cases double : d = doubleQuote
      · exact quotedWord_tells (.inr double) white whole
          (by rw [taken, takeWord, if_neg single, if_pos double, double])
      · exact bareWord_tells plain (not_or.mpr ⟨single, double⟩) white whole
          (by rw [taken, takeWord, if_neg single, if_neg double])

theorem hanging_iff (c : List UInt8) :
    (Place.between.after c).Hanging ↔ ∃ entry ∈ wordsQuoted c, entry.1.start = [] := by
  induction counted : c.length using Nat.strong_induction_on generalizing c with
  | _ size ih =>
    by_cases ended : c = []
    · subst ended
      simp [Place.Hanging]
    · have later := ih _ (counted ▸ nextWord_shorter ended) _ rfl
      rw [(nextWord_known ended).hanging, later, wordsQuoted_step ended]
      simp

theorem wordsQuoted_explicit (c : List UInt8) :
    ∀ entry ∈ wordsQuoted c, entry.1.length = 0 -> entry.1.start ≠ [] -> Explicit c entry.1 := by
  induction counted : c.length using Nat.strong_induction_on generalizing c with
  | _ size ih =>
    intro entry mem empty nonempty
    by_cases ended : c = []
    · subst ended
      simp at mem
    · rw [wordsQuoted_step ended, mem_cons] at mem
      rcases mem with rfl | later
      · exact (nextWord_known ended).explicit empty nonempty
      · exact (ih _ (counted ▸ nextWord_shorter ended) _ rfl entry later empty nonempty).mono
          (nextWord_in c).2

theorem quotedExactly_iff (c : List UInt8) : QuotedExactly c ↔ ¬(Place.between.after c).Hanging := by
  constructor
  · intro exactly hangs
    obtain ⟨entry, mem, start⟩ := (hanging_iff c).mp hangs
    have within := (wordsQuoted_in c entry mem).within
    rw [start, length_nil, Nat.le_zero] at within
    obtain ⟨quote, front, rest, -, begins, -⟩ := exactly entry mem within
    rw [start] at begins
    cases begins
  · intro settled entry mem empty
    refine wordsQuoted_explicit c entry mem empty fun start => ?_
    exact settled ((hanging_iff c).mpr ⟨entry, mem, start⟩)

theorem split_exact_iff (text : CString) (separator : List UInt8) :
    SplitsExactly text separator ∧ QuotedExactly text.bytes ↔
      (∀ byte ∈ text.bytes.getLast?, byte ∉ separator) ∧ ¬(Place.between.after text.bytes).Hanging := by
  rw [splitsExactly_iff, quotedExactly_iff]

theorem split_trailing_separator : ¬SplitsExactly (.ofString "a ") (" ".toList.map Char.toUInt8) ∧
    ¬QuotedExactly (CString.ofString "a ").bytes := by
  constructor
  · intro exactly
    have collected := exactly.collected
    revert collected
    decide
  · intro exactly
    have last : (⟨[], 0⟩, []) ∈ wordsQuoted (CString.ofString "a ").bytes := by decide
    obtain ⟨quote, front, rest, -, start, -⟩ := exactly _ last rfl
    cases start

end Systemd
