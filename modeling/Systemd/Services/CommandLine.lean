import Systemd.Basic.Quoted
import Systemd.Basic.PathNames
import Systemd.Units.Path

set_option autoImplicit false

namespace Systemd.CommandLine

open List Option

structure ExecCommand where
  path : CString
  argv : List CString
  ignore : Bool
  deriving DecidableEq

def slash : UInt8 := '/'.toUInt8

def dash : UInt8 := '-'.toUInt8

def atSign : UInt8 := '@'.toUInt8

def semicolon : UInt8 := ';'.toUInt8

-- strncmp(w, ";", MAX(l, 1U)) == 0
def isSeparator (w : QuotedWord) : Bool :=
  w.start.take (max w.length 1) = [semicolon].take (max w.length 1)

def commandWords : List (QuotedWord × List UInt8) -> List QuotedWord × List UInt8
  | [] => ([], [])
  | (w, state) :: rest =>
    if isSeparator w then
      ([], state)
    else
      (w :: (commandWords rest).1, (commandWords rest).2)

def fillArgv (honourArgv0 : Bool) (rvalue : List UInt8) (capacity : Nat) :
    List QuotedWord -> Option CString -> List CString -> Option (Option CString × List CString)
  | [], path, n => if n.length < capacity then some (path, n) else none
  | w :: rest, path, n =>
    if honourArgv0 && w.start = rvalue then
      if path.isSome then
        none
      else
        fillArgv honourArgv0 rvalue capacity rest (some w.unescaped) n
    else if n.length < capacity then
      fillArgv honourArgv0 rvalue capacity rest path (n ++ [w.unescaped])
    else
      none

-- The inner none stands for a command line that is refused.
def takeCommand (ignore honourArgv0 : Bool) (rvalue : List UInt8) :
    Option (Option (ExecCommand × List UInt8)) :=
  if rvalue.head? ≠ some slash then
    some none
  else
    let found := commandWords (wordsQuoted rvalue)
    let k := found.1.length
    match fillArgv honourArgv0 rvalue (k + (!honourArgv0).toNat) found.1 none [] with
    | none => none
    | some (_, []) => some none
    | some (path, first :: rest) =>
      let path := path.getD first
      if pathIsAbsolute path.bytes then
        some (some (⟨.ofBuffer (pathKillSlashes path.bytes), first :: rest, ignore⟩, found.2))
      else
        none

def skipFlag (flag : UInt8) (rvalue : List UInt8) : Bool × List UInt8 :=
  if rvalue.head? = some flag then (true, rvalue.tail) else (false, rvalue)

def execLoop : Nat -> List UInt8 -> List ExecCommand -> Option (List ExecCommand)
  | 0, _, _ => none
  | fuel + 1, rvalue, e =>
    let rvalue := rvalue.dropWhile whitespace.contains
    if rvalue = [] then
      some e
    else
      let (ignore, rvalue) := skipFlag dash rvalue
      let (honourArgv0, rvalue) := skipFlag atSign rvalue
      match takeCommand ignore honourArgv0 rvalue with
      | none => none
      | some none => some e
      | some (some (nce, state)) => execLoop fuel state (e ++ [nce])

def configParseExec (rvalue : CString) (e : List ExecCommand) : Option (List ExecCommand) :=
  execLoop (rvalue.bytes.length + 1) rvalue.bytes e

theorem fillArgv_arguments {honourArgv0 : Bool} {rvalue : List UInt8} {capacity : Nat}
    {words : List QuotedWord} {path : Option CString} {n : List CString}
    (others : honourArgv0 = true -> ∀ w ∈ words, w.start ≠ rvalue)
    (room : n.length + words.length < capacity) :
    fillArgv honourArgv0 rvalue capacity words path n =
      some (path, n ++ words.map (·.unescaped)) := by
  induction words generalizing n with
  | nil => simpa [fillArgv] using room
  | cons w rest ih =>
    have argument : (honourArgv0 && decide (w.start = rvalue)) = false := by
      cases honours : honourArgv0 with
      | false => rfl
      | true => simpa using others honours w (by simp)
    rw [length_cons] at room
    rw [fillArgv, argument, if_neg Bool.false_ne_true, if_pos (by omega),
      ih (fun honours v mem => others honours v (by simp [mem])) (by simp; omega)]
    simp

variable (rest : List UInt8)

theorem nextWord_slash : nextWord (slash :: rest) = bareWord (slash :: rest) := by
  have plain : slash ∉ whitespace := by decide
  have single : slash ≠ singleQuote := by decide
  have double : slash ≠ doubleQuote := by decide
  simp [nextWord, plain, takeWord, single, double]

theorem unescaped_slash : ∃ path, (bareWord (slash :: rest)).1.unescaped.bytes = slash :: path := by
  have plain : slash ≠ backslashByte := by decide
  have inside : slash ∉ whitespace := by decide
  have length : wordLength whitespace.contains false (slash :: rest) =
      wordLength whitespace.contains false rest + 1 := by
    simp [wordLength, plain, inside]
  refine ⟨(cunescapeLength rest (wordLength whitespace.contains false rest)).takeWhile (· != 0), ?_⟩
  have kept : (slash != 0) = true := by decide
  simp only [bareWord, length, QuotedWord.unescaped, cunescapeLength_plain plain, CString.ofBuffer]
  exact takeWhile_cons_of_pos kept

theorem slash_not_separator (length : Nat) : isSeparator ⟨slash :: rest, length⟩ = false := by
  have apart : slash ≠ semicolon := by decide
  obtain ⟨most, same⟩ : ∃ most, max length 1 = most + 1 := ⟨max length 1 - 1, by omega⟩
  simp [isSeparator, same, apart]

theorem commandWords_within (s : List UInt8) :
    (∀ w ∈ (commandWords (wordsQuoted s)).1, w.start <:+ s) ∧
      (commandWords (wordsQuoted s)).2 <:+ s := by
  induction counted : s.length using Nat.strong_induction_on generalizing s with
  | _ size ih =>
    by_cases ended : s = []
    · simp [ended, commandWords]
    · obtain ⟨⟨start, -, -⟩, state⟩ := nextWord_in s
      obtain ⟨words, last⟩ := ih _ (counted ▸ nextWord_shorter ended) (nextWord s).2 rfl
      rw [wordsQuoted_step ended, commandWords]
      split
      next => exact ⟨by simp, state⟩
      next =>
        refine ⟨fun w mem => ?_, last.trans state⟩
        rcases mem_cons.mp mem with rfl | later
        · exact start
        · exact (words w later).trans state

theorem takeCommand_slash (ignore honourArgv0 : Bool) (rest : List UInt8) :
    takeCommand ignore honourArgv0 (slash :: rest) =
      let first := (bareWord (slash :: rest)).1.unescaped
      let found := commandWords (wordsQuoted (bareWord (slash :: rest)).2)
      let args := found.1.map (·.unescaped)
      if honourArgv0 && args.isEmpty then
        some none
      else
        some (some (⟨.ofBuffer (pathKillSlashes first.bytes),
          if honourArgv0 then args else first :: args, ignore⟩, found.2)) := by
  have nonempty : slash :: rest ≠ [] := by simp
  have shorter := nextWord_shorter nonempty
  rw [nextWord_slash] at shorter
  have words : commandWords (wordsQuoted (slash :: rest)) =
      ((bareWord (slash :: rest)).1 :: (commandWords (wordsQuoted (bareWord (slash :: rest)).2)).1,
        (commandWords (wordsQuoted (bareWord (slash :: rest)).2)).2) := by
    rw [wordsQuoted_step nonempty, nextWord_slash, commandWords]
    simp only [bareWord, slash_not_separator, Bool.false_eq_true, if_false]
  have others : ∀ w ∈ (commandWords (wordsQuoted (bareWord (slash :: rest)).2)).1,
      w.start ≠ slash :: rest := by
    intro w mem same
    have within := ((commandWords_within _).1 w mem).length_le
    rw [same] at within
    omega
  obtain ⟨path, absolute⟩ := unescaped_slash rest
  have isAbsolute : pathIsAbsolute (bareWord (slash :: rest)).1.unescaped.bytes = true := by
    rw [absolute]
    rfl
  have start : (bareWord (slash :: rest)).1.start = slash :: rest := rfl
  rw [takeCommand, if_neg (by simp), words]
  dsimp only
  cases honourArgv0 with
  | false =>
    rw [fillArgv_arguments (by simp) (by simp)]
    simp [isAbsolute]
  | true =>
    rw [fillArgv.eq_2]
    simp only [start, decide_true, Bool.and_self, if_true, isSome_none, Bool.false_eq_true,
      if_false]
    rw [fillArgv_arguments (fun _ => others) (by simp)]
    cases (commandWords (wordsQuoted (bareWord (slash :: rest)).2)).1 with
    | nil => simp
    | cons w words => simp [isAbsolute]

theorem skipFlag_length (flag : UInt8) (rvalue : List UInt8) :
    (skipFlag flag rvalue).2.length ≤ rvalue.length := by
  unfold skipFlag
  split
  next => simp
  next => exact Nat.le_refl _

theorem takeCommand_shorter {ignore honourArgv0 : Bool} {rvalue : List UInt8} :
    ∃ taken, takeCommand ignore honourArgv0 rvalue = some taken ∧
      ∀ nce state, taken = some (nce, state) -> state.length < rvalue.length := by
  by_cases start : rvalue.head? = some slash
  · obtain ⟨rest, rfl⟩ : ∃ rest, rvalue = slash :: rest := by
      cases rvalue with
      | nil => cases start
      | cons c rest => exact ⟨rest, by rw [some.inj start]⟩
    have shorter := nextWord_shorter (show slash :: rest ≠ [] by simp)
    rw [nextWord_slash] at shorter
    have within := (commandWords_within (bareWord (slash :: rest)).2).2.length_le
    rw [takeCommand_slash]
    dsimp only
    split
    next => exact ⟨none, rfl, by simp⟩
    next =>
      refine ⟨_, rfl, fun nce state same => ?_⟩
      cases same
      omega
  · exact ⟨none, by rw [takeCommand, if_pos start], by simp⟩

theorem execLoop_total {fuel : Nat} {rvalue : List UInt8} (enough : rvalue.length < fuel)
    (e : List ExecCommand) : ∃ parsed, execLoop fuel rvalue e = some parsed := by
  induction fuel generalizing rvalue e with
  | zero => cases enough
  | succ fuel ih =>
    have skipped := (dropWhile_suffix whitespace.contains (l := rvalue)).length_le
    rw [execLoop]
    dsimp only
    split
    next => exact ⟨e, rfl⟩
    next =>
      have flag := skipFlag_length dash (rvalue.dropWhile whitespace.contains)
      have flags := skipFlag_length atSign (skipFlag dash (rvalue.dropWhile whitespace.contains)).2
      obtain ⟨taken, found, shorter⟩ := @takeCommand_shorter
        (skipFlag dash (rvalue.dropWhile whitespace.contains)).1
        (skipFlag atSign (skipFlag dash (rvalue.dropWhile whitespace.contains)).2).1
        (skipFlag atSign (skipFlag dash (rvalue.dropWhile whitespace.contains)).2).2
      rw [found]
      rcases taken with _ | ⟨nce, state⟩
      · exact ⟨e, rfl⟩
      · have less := shorter nce state rfl
        exact ih (by omega) _

structure Command where
  path : CString
  args : List CString
  ignore : Bool
  honourArgv0 : Bool

structure Command.PlainPath (c : Command) : Prop where
  absolute : c.path.bytes.head? = some slash
  plain : ∀ byte ∈ c.path.bytes, byte ≠ backslashByte ∧ byte ∉ whitespace

def argsText (args : List CString) : List UInt8 :=
  args.flatMap fun arg => ' '.toUInt8 :: quoted arg

def Command.text (c : Command) : List UInt8 :=
  (if c.ignore then [dash] else []) ++ ((if c.honourArgv0 then [atSign] else []) ++
    (c.path.bytes ++ argsText c.args))

def commandsText : List Command -> List UInt8
  | [] => []
  | [c] => c.text
  | c :: next :: rest =>
    c.text ++ ' '.toUInt8 :: semicolon :: ' '.toUInt8 :: commandsText (next :: rest)

def commandLine (commands : List Command) : CString :=
  .ofBuffer (commandsText commands)

def Command.meant (c : Command) : ExecCommand where
  path := .ofBuffer (pathKillSlashes c.path.bytes)
  argv := if c.honourArgv0 then c.args else c.path :: c.args
  ignore := c.ignore

theorem separator_quoted (arg : CString) (rest : List UInt8) :
    isSeparator ⟨(cescape arg).bytes ++ doubleQuote :: rest, (cescape arg).bytes.length⟩ = true ↔
      arg.bytes = [semicolon] := by
  have apart : doubleQuote ≠ semicolon := by decide
  have back := (cunescape_escaped arg arg).1
  rcases code : (cescape arg).bytes with _ | ⟨c, more⟩
  · have absent : arg.bytes = [] := by
      rw [← back, cunescape, code]
      rfl
    simp [isSeparator, apart, absent]
  · have most : max (c :: more).length 1 = more.length + 1 := by simp
    simp only [isSeparator, most, cons_append, take_succ_cons, take_left,
      take_nil, decide_eq_true_eq]
    constructor
    · intro same
      rw [← back, cunescape, code, same]
      rfl
    · intro same
      rw [← code, cescape_bytes, same]
      rfl

theorem nextWord_separator :
    nextWord (' '.toUInt8 :: semicolon :: ' '.toUInt8 :: rest) =
      (⟨semicolon :: ' '.toUInt8 :: rest, 1⟩, ' '.toUInt8 :: rest) := by
  have blank : ' '.toUInt8 ∈ whitespace := by decide
  have plain : semicolon ∉ whitespace := by decide
  have single : semicolon ≠ singleQuote := by decide
  have double : semicolon ≠ doubleQuote := by decide
  have escape : semicolon ≠ backslashByte := by decide
  have other : ' '.toUInt8 ≠ backslashByte := by decide
  have length : wordLength whitespace.contains false (semicolon :: ' '.toUInt8 :: rest) = 1 := by
    simp [wordLength, escape, plain, other, blank]
  simp [nextWord, blank, plain, takeWord, single, double, bareWord, length]

inductive Behind : List UInt8 -> List UInt8 -> Prop where
  | last : Behind [] []
  | next (rest : List UInt8) :
      Behind (' '.toUInt8 :: semicolon :: ' '.toUInt8 :: rest) (' '.toUInt8 :: rest)

theorem commandWords_behind {tail state : List UInt8} (behind : Behind tail state) :
    commandWords (wordsQuoted tail) = ([], state) := by
  cases behind with
  | last => rfl
  | next rest =>
    rw [wordsQuoted_step (by simp), nextWord_separator]
    simp [commandWords, isSeparator]

theorem commandWords_args {args : List CString} (each : ∀ arg ∈ args, arg.bytes ≠ [semicolon])
    {tail state : List UInt8} (behind : Behind tail state) :
    ((commandWords (wordsQuoted (argsText args ++ tail))).1.map (·.unescaped),
        (commandWords (wordsQuoted (argsText args ++ tail))).2) = (args, state) := by
  induction args with
  | nil =>
    rw [argsText, flatMap_nil, nil_append, commandWords_behind behind]
    rfl
  | cons arg args ih =>
    obtain ⟨first, others⟩ := forall_mem_cons.mp each
    obtain ⟨words, last⟩ := Prod.mk.inj (ih others)
    have shape : argsText (arg :: args) ++ tail =
        [' '.toUInt8] ++ (quoted arg ++ (argsText args ++ tail)) := by
      simp [argsText]
    have next := nextWord_quoted (by decide : ∀ c ∈ [' '.toUInt8], c ∈ whitespace) arg
      (argsText args ++ tail)
    have word : isSeparator ⟨(cescape arg).bytes ++ doubleQuote :: (argsText args ++ tail),
        (cescape arg).bytes.length⟩ = false := by
      rw [Bool.eq_false_iff, ne_eq, separator_quoted]
      exact first
    rw [shape, wordsQuoted_step (by simp), next]
    simp only [commandWords, word, Bool.false_eq_true, if_false, map_cons, unescaped_quoted,
      words, last]

theorem bareWord_path {path rest : List UInt8}
    (plain : ∀ byte ∈ path, byte ≠ backslashByte ∧ byte ∉ whitespace)
    (ends : ∀ c ∈ rest.head?, c ∈ whitespace) :
    bareWord (path ++ rest) = (⟨path ++ rest, path.length⟩, rest) := by
  have blank : backslashByte ∉ whitespace := by decide
  have stopped : wordLength whitespace.contains false rest = 0 := by
    cases rest with
    | nil => rfl
    | cons c rest =>
      have isBlank : c ∈ whitespace := ends c rfl
      have other : c ≠ backslashByte := fun same => blank (same ▸ isBlank)
      rw [wordLength, if_neg other, if_pos (by simpa using isBlank)]
  have length : wordLength whitespace.contains false (path ++ rest) = path.length := by
    rw [wordLength_plain (fun c mem => ⟨(plain c mem).1, by simpa using (plain c mem).2⟩),
      stopped, Nat.zero_add]
  simp [bareWord, length]

theorem unescaped_path {path : CString} (plain : ∀ byte ∈ path.bytes, byte ≠ backslashByte)
    (rest : List UInt8) :
    QuotedWord.unescaped ⟨path.bytes ++ rest, path.bytes.length⟩ = path := by
  have each : ∀ byte ∈ path.bytes, Decodes [byte] byte := fun byte mem => .plain (plain byte mem)
  have decoded := Decodes.flatMap each rest 0
  rw [flatMap_singleton', cunescapeLength_zero, append_nil, Nat.add_zero] at decoded
  rw [QuotedWord.unescaped, decoded, CString.ofBuffer_self]

theorem takeCommand_text {c : Command} (plain : c.PlainPath)
    (args : c.honourArgv0 = true -> c.args ≠ []) (each : ∀ arg ∈ c.args, arg.bytes ≠ [semicolon])
    {tail state : List UInt8} (behind : Behind tail state) :
    takeCommand c.ignore c.honourArgv0 (c.path.bytes ++ (argsText c.args ++ tail)) =
      some (some (c.meant, state)) := by
  have ends : ∀ byte ∈ (argsText c.args ++ tail).head?, byte ∈ whitespace := by
    have blank : ' '.toUInt8 ∈ whitespace := by decide
    cases c.args with
    | nil => cases behind <;> simp [argsText, blank]
    | cons arg args => simp [argsText, blank]
  obtain ⟨words, last⟩ := Prod.mk.inj (commandWords_args each behind)
  obtain ⟨rest, start⟩ : ∃ rest, c.path.bytes = slash :: rest := by
    have absolute := plain.absolute
    cases found : c.path.bytes with
    | nil => simp [found] at absolute
    | cons first rest =>
      rw [found] at absolute
      exact ⟨rest, by rw [some.inj absolute]⟩
  have shape : c.path.bytes ++ (argsText c.args ++ tail) =
      slash :: (rest ++ (argsText c.args ++ tail)) := by
    rw [start, cons_append]
  have unescaped := unescaped_path (fun byte mem => (plain.plain byte mem).1)
    (argsText c.args ++ tail)
  rw [shape, takeCommand_slash, ← shape, bareWord_path plain.plain ends]
  simp only [unescaped, words, last]
  cases honours : c.honourArgv0 with
  | false => simp [Command.meant, honours]
  | true => simp [Command.meant, honours, args honours]

theorem skipFlag_text {flag : UInt8} (given : Bool) {rest : List UInt8} (other : rest.head? ≠ some flag) :
    skipFlag flag ((if given then [flag] else []) ++ rest) = (given, rest) := by
  cases given <;> simp [skipFlag, other]

theorem path_head {c : Command} (plain : c.PlainPath) (rest : List UInt8) :
    (c.path.bytes ++ rest).head? = some slash := by
  have absolute := plain.absolute
  cases found : c.path.bytes with
  | nil => simp [found] at absolute
  | cons first more =>
    rw [found] at absolute
    exact absolute

theorem flags_text {c : Command} (plain : c.PlainPath) (tail : List UInt8) :
    skipFlag dash (c.text ++ tail) = (c.ignore, (if c.honourArgv0 then [atSign] else []) ++
        (c.path.bytes ++ (argsText c.args ++ tail))) ∧
      skipFlag atSign ((if c.honourArgv0 then [atSign] else []) ++
        (c.path.bytes ++ (argsText c.args ++ tail))) =
          (c.honourArgv0, c.path.bytes ++ (argsText c.args ++ tail)) := by
  have absolute := path_head plain (argsText c.args ++ tail)
  have shape : c.text ++ tail = (if c.ignore then [dash] else []) ++
      ((if c.honourArgv0 then [atSign] else []) ++ (c.path.bytes ++ (argsText c.args ++ tail))) := by
    simp [Command.text]
  have noAt : slash ≠ atSign := by decide
  have noDash : slash ≠ dash := by decide
  have atDash : atSign ≠ dash := by decide
  constructor
  · rw [shape]
    refine skipFlag_text c.ignore ?_
    cases c.honourArgv0 <;> simp [absolute, noDash, atDash]
  · exact skipFlag_text c.honourArgv0 (by simp [absolute, noAt])

theorem text_start {c : Command} (plain : c.PlainPath) (tail : List UInt8) :
    (c.text ++ tail).dropWhile whitespace.contains = c.text ++ tail ∧ c.text ++ tail ≠ [] := by
  have absolute := path_head plain (argsText c.args ++ tail)
  have each : ∀ byte ∈ [dash, atSign, slash], byte ∉ whitespace := by decide
  obtain ⟨first, mem, head⟩ : ∃ first ∈ [dash, atSign, slash],
      (c.text ++ tail).head? = some first := by
    cases ignores : c.ignore with
    | true => exact ⟨dash, by simp, by simp [Command.text, ignores]⟩
    | false =>
      cases honours : c.honourArgv0 with
      | true => exact ⟨atSign, by simp, by simp [Command.text, ignores, honours]⟩
      | false => exact ⟨slash, by simp, by simpa [Command.text, ignores, honours] using absolute⟩
  obtain ⟨rest, shape⟩ : ∃ rest, c.text ++ tail = first :: rest :=
    ⟨_, eq_cons_of_mem_head? head⟩
  rw [shape]
  exact ⟨by simp [each first mem], by simp⟩

/-- The commands that config_parse_exec can be told: a command with another argv[0] has to say which,
and a lone semicolon ends a command. -/
structure Command.Sayable (c : Command) : Prop where
  path : c.PlainPath
  argv0 : c.honourArgv0 = true -> c.args ≠ []
  args : ∀ arg ∈ c.args, arg.bytes ≠ [semicolon]

theorem execLoop_command {c : Command} (sayable : c.Sayable) {tail state : List UInt8}
    (behind : Behind tail state) {blanks : List UInt8} (skipped : ∀ byte ∈ blanks, byte ∈ whitespace)
    (fuel : Nat) (e : List ExecCommand) :
    execLoop (fuel + 1) (blanks ++ (c.text ++ tail)) e = execLoop fuel state (e ++ [c.meant]) := by
  obtain ⟨start, nonempty⟩ := text_start sayable.path tail
  obtain ⟨ignored, honoured⟩ := flags_text sayable.path tail
  have skip : (blanks ++ (c.text ++ tail)).dropWhile whitespace.contains = c.text ++ tail := by
    rw [dropWhile_append_of_pos fun byte mem => by simpa using skipped byte mem, start]
  simp only [execLoop, skip, nonempty, if_false, ignored, honoured,
    takeCommand_text sayable.path sayable.argv0 sayable.args behind]

theorem execLoop_commands {commands : List Command} (sayable : ∀ c ∈ commands, c.Sayable)
    (blanks : List UInt8) (skipped : ∀ byte ∈ blanks, byte ∈ whitespace) {fuel : Nat}
    (enough : blanks.length + (commandsText commands).length < fuel) (e : List ExecCommand) :
    execLoop fuel (blanks ++ commandsText commands) e = some (e ++ commands.map (·.meant)) := by
  induction commands generalizing blanks fuel e with
  | nil =>
    obtain ⟨fuel, rfl⟩ := Nat.exists_eq_succ_of_ne_zero (Nat.ne_zero_of_lt enough)
    have blank : (blanks ++ commandsText []).dropWhile whitespace.contains = [] := by
      rw [dropWhile_append_of_pos fun byte mem => by simpa using skipped byte mem]
      rfl
    simp [execLoop, blank]
  | cons c rest ih =>
    obtain ⟨fuel, rfl⟩ := Nat.exists_eq_succ_of_ne_zero (Nat.ne_zero_of_lt enough)
    obtain ⟨first, others⟩ := forall_mem_cons.mp sayable
    have full := length_pos_iff.mpr (text_start first.path []).2
    rw [append_nil] at full
    cases rest with
    | nil =>
      have one := execLoop_command first .last skipped fuel e
      rw [append_nil] at one
      rw [commandsText, one]
      rw [commandsText] at enough
      have room : ([] : List UInt8).length + (commandsText []).length < fuel := by
        simp only [commandsText, length_nil]
        omega
      simpa [commandsText] using ih others [] (by simp) room (e ++ [c.meant])
    | cons next rest =>
      have one := execLoop_command first (.next (commandsText (next :: rest))) skipped fuel e
      simp only [commandsText, length_append, length_cons] at enough
      have room : [' '.toUInt8].length + (commandsText (next :: rest)).length < fuel := by
        rw [length_singleton]
        omega
      have later := ih others [' '.toUInt8] (by decide) room (e ++ [c.meant])
      rw [commandsText, one]
      simpa using later

theorem commandsText_unterminated (commands : List Command) : 0 ∉ commandsText commands := by
  have blank : (0 : UInt8) ≠ ' '.toUInt8 := by decide
  have dashes : (0 : UInt8) ≠ dash := by decide
  have ats : (0 : UInt8) ≠ atSign := by decide
  have ends : (0 : UInt8) ≠ semicolon := by decide
  have args : ∀ args, 0 ∉ argsText args := by
    intro args mem
    obtain ⟨arg, -, written⟩ := mem_flatMap.mp mem
    rcases mem_cons.mp written with same | inside
    · exact blank same
    · exact quoted_unterminated arg inside
  have text : ∀ c : Command, 0 ∉ c.text := by
    intro c
    cases ignores : c.ignore <;> cases honours : c.honourArgv0 <;>
      simp [Command.text, ignores, honours, dashes, ats, c.path.terminated, args]
  induction commands with
  | nil => simp [commandsText]
  | cons c rest ih =>
    cases rest with
    | nil => exact text c
    | cons next rest => simp [commandsText, text, blank, ends, ih]

/-- Whatever the string, config_parse_exec stays within its arrays; and the commands that can be said
come out as they are meant, behind the ones there were. -/
theorem configParseExec_commandLine :
    (∀ rvalue e, ∃ parsed, configParseExec rvalue e = some parsed) ∧
      ∀ (commands : List Command) (e : List ExecCommand), (∀ c ∈ commands, c.Sayable) ->
        configParseExec (commandLine commands) e = some (e ++ commands.map (·.meant)) := by
  constructor
  · intro rvalue e
    exact execLoop_total (Nat.lt_succ_self _) e
  · intro commands e sayable
    have bytes : (commandLine commands).bytes = commandsText commands :=
      CString.ofBuffer_bytes (commandsText_unterminated commands)
    rw [configParseExec, bytes]
    exact execLoop_commands sayable [] (by simp) (by simp) e

def echo : Command := ⟨.ofString "/bin/echo", [.ofString "a b", .ofString ""], true, true⟩

theorem echo_sayable : echo.Sayable := ⟨⟨by decide, by decide⟩, by decide, by decide⟩

theorem echo_parsed : configParseExec (commandLine [echo, echo]) [] = some [echo.meant, echo.meant] :=
  configParseExec_commandLine.2 [echo, echo] [] (by simp [echo_sayable])

def unnamed : Command := ⟨.ofString "/bin/true", [], false, true⟩

def doubled : Command := ⟨.ofString "/usr//bin/true", [], false, false⟩

def parted : Command := ⟨.ofString "/bin/echo", [.ofString ";"], false, false⟩

/-- Without an argument to be its argv[0], a command is refused. Of the other two, the one gets a shorter
path, and the other ends in front of its argument. -/
theorem unsaid_commands :
    configParseExec (commandLine [unnamed]) [] = some [] ∧
      configParseExec (commandLine [doubled]) [] =
        some [⟨.ofString "/usr/bin/true", [doubled.path], false⟩] ∧
      configParseExec (commandLine [parted]) [] = some [⟨parted.path, [parted.path], false⟩] ∧
      ¬ ∀ commands : List Command, commands ≠ [] -> (∀ c ∈ commands, c.PlainPath) ->
        configParseExec (commandLine commands) [] =
          some (commands.map fun c => { c.meant with path := c.path }) := by
  have refused : configParseExec (commandLine [unnamed]) [] = some [] := by decide
  refine ⟨refused, by decide, by decide, fun always => ?_⟩
  have plain : ∀ c ∈ [unnamed], c.PlainPath := by
    intro c mem
    obtain rfl := mem_singleton.mp mem
    exact ⟨by decide, by decide⟩
  rw [always [unnamed] (by simp) plain] at refused
  cases refused

end Systemd.CommandLine
