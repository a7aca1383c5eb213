import Systemd.Basic.Quoted

set_option autoImplicit false

namespace Systemd.CommandLine

open List

def dollar : UInt8 := '$'.toUInt8

def openingBrace : UInt8 := 123

def closingBrace : UInt8 := 125

-- The first k bytes of the name count; here these are all that there are.
def strvEnvGetWithLength (env : List CString) (name : List UInt8) : Option CString :=
  (env.find? fun i =>
    i.bytes.take name.length = name && i.bytes[name.length]? = some '='.toUInt8).map fun i =>
      .ofBuffer (i.bytes.drop (name.length + 1))

inductive EnvState where
  | word
  | curly
  | variable

def replaceEnvLoop (env : List CString) :
    EnvState -> List UInt8 -> List UInt8 -> List UInt8 -> List UInt8
  | _, word, r, [] => r ++ word
  | .word, word, r, e :: rest =>
    replaceEnvLoop env (if e = dollar then .curly else .word) (word ++ [e]) r rest
  | .curly, word, r, e :: rest =>
    if e = openingBrace then
      replaceEnvLoop env .variable (word.drop (word.length - 1) ++ [e])
        (r ++ word.take (word.length - 1)) rest
    else if e = dollar then
      replaceEnvLoop env .word [] (r ++ word) rest
    else
      replaceEnvLoop env .word (word ++ [e]) r rest
  | .variable, word, r, e :: rest =>
    if e = closingBrace then
      let t := ((strvEnvGetWithLength env (word.drop 2)).map (·.bytes)).getD []
      replaceEnvLoop env .word [] (r ++ t) rest
    else
      replaceEnvLoop env .variable (word ++ [e]) r rest

def replaceEnv (format : CString) (env : List CString) : CString :=
  .ofBuffer (replaceEnvLoop env .word [] [] format.bytes)

-- r holds what has been written, k of l + 1 pointers. none stands for a write behind them.
def replaceEnvWords (env : List CString) : List CString -> List CString -> Nat -> Option (List CString)
  | [], r, l => if r.length < l + 1 then some r else none
  | i :: rest, r, l =>
    if i.bytes.head? = some dollar ∧ i.bytes.tail.head? ≠ some openingBrace then
      let m := ((strvEnvGetWithLength env i.bytes.tail).map strvSplitQuoted).getD []
      let l := l + m.length - 1
      if r.length + m.length ≤ l + 1 then
        replaceEnvWords env rest (r ++ m) l
      else
        none
    else if r.length < l + 1 then
      replaceEnvWords env rest (r ++ [replaceEnv i env]) l
    else
      none

def replaceEnvArgv (argv env : List CString) : Option (List CString) :=
  replaceEnvWords env argv [] argv.length

def identifierByte (c : UInt8) : Bool :=
  ('a'.toUInt8 ≤ c && c ≤ 'z'.toUInt8) || ('A'.toUInt8 ≤ c && c ≤ 'Z'.toUInt8) ||
    ('0'.toUInt8 ≤ c && c ≤ '9'.toUInt8) || c = '_'.toUInt8

def IsVariable (w : CString) : Prop :=
  w.bytes.head? = some dollar ∧ w.bytes.tail ≠ [] ∧ ∀ c ∈ w.bytes.tail, identifierByte c = true

instance (w : CString) : Decidable (IsVariable w) :=
  inferInstanceAs (Decidable (_ ∧ _ ∧ _))

def value (env : List CString) (name : List UInt8) : List UInt8 :=
  ((strvEnvGetWithLength env name).map (·.bytes)).getD []

def substitute (env : List CString) : List UInt8 -> List UInt8
  | [] => []
  | [c] => [c]
  | c :: d :: rest =>
    if c = dollar ∧ d = dollar then
      dollar :: substitute env rest
    else if c = dollar ∧ d = openingBrace then
      if closingBrace ∈ rest then
        value env (rest.takeWhile (· ≠ closingBrace)) ++
          substitute env (rest.dropWhile (· ≠ closingBrace)).tail
      else
        c :: d :: rest
    else
      c :: substitute env (d :: rest)
termination_by text => text.length
decreasing_by
  · simp only [length_cons]
    omega
  · have shorter := (dropWhile_suffix (· ≠ closingBrace) (l := rest)).length_le
    simp only [length_tail, length_cons]
    omega
  · simp

def wordMeans (env : List CString) (w : CString) : List CString :=
  if IsVariable w then
    ((strvEnvGetWithLength env w.bytes.tail).map strvSplitQuoted).getD []
  else
    [.ofBuffer (substitute env w.bytes)]

def Mistaken (w : CString) : Prop :=
  w.bytes.head? = some dollar ∧ w.bytes.tail.head? ≠ some openingBrace ∧ ¬ IsVariable w

variable (env : List CString)

theorem substitute_plain {c : UInt8} (plain : c ≠ dollar) (rest : List UInt8) :
    substitute env (c :: rest) = c :: substitute env rest := by
  cases rest with
  | nil => simp [substitute]
  | cons d rest => simp [substitute, plain]

theorem replaceEnvLoop_variable (name r rest : List UInt8) :
    replaceEnvLoop env .variable (dollar :: openingBrace :: name) r rest =
      if closingBrace ∈ rest then
        replaceEnvLoop env .word [] (r ++ value env (name ++ rest.takeWhile (· ≠ closingBrace)))
          (rest.dropWhile (· ≠ closingBrace)).tail
      else
        r ++ (dollar :: openingBrace :: (name ++ rest)) := by
  induction rest generalizing name with
  | nil => simp [replaceEnvLoop]
  | cons e rest ih =>
    by_cases closed : e = closingBrace
    · simp [replaceEnvLoop, closed, value]
    · have later := ih (name ++ [e])
      have other : closingBrace ≠ e := fun same => closed same.symm
      simp only [replaceEnvLoop, closed, if_false, cons_append, later, mem_cons, other,
        false_or]
      simp [closed]

theorem replaceEnvLoop_word (word r rest : List UInt8) :
    replaceEnvLoop env .word word r rest = r ++ word ++ substitute env rest := by
  induction counted : rest.length using Nat.strong_induction_on generalizing word r rest with
  | _ size ih =>
    have shorter : ∀ (text : List UInt8), text.length < rest.length -> ∀ word r,
        replaceEnvLoop env .word word r text = r ++ word ++ substitute env text :=
      fun text less word r => ih text.length (counted ▸ less) word r text rfl
    match rest with
    | [] => simp [replaceEnvLoop, substitute]
    | [c] => by_cases isDollar : c = dollar <;> simp [replaceEnvLoop, substitute, isDollar]
    | c :: d :: rest =>
      by_cases isDollar : c = dollar
      · subst isDollar
        have apart : dollar ≠ openingBrace := by decide
        by_cases opened : d = openingBrace
        · subst opened
          have within := (dropWhile_suffix (· ≠ closingBrace) (l := rest)).length_le
          have scanned := replaceEnvLoop_variable env [] (r ++ word) rest
          have last : (word ++ [dollar]).drop ((word ++ [dollar]).length - 1) = [dollar] := by simp
          have front : (word ++ [dollar]).take ((word ++ [dollar]).length - 1) = word := by simp
          have said : substitute env (dollar :: openingBrace :: rest) =
              if closingBrace ∈ rest then
                value env (rest.takeWhile (· ≠ closingBrace)) ++
                  substitute env (rest.dropWhile (· ≠ closingBrace)).tail
              else
                dollar :: openingBrace :: rest := by
            rw [substitute, if_neg fun both => apart both.2.symm, if_pos ⟨rfl, rfl⟩]
          simp only [replaceEnvLoop, if_true, last, front, cons_append, nil_append, scanned, said]
          split
          next =>
            rw [shorter _ (by simp only [length_tail, length_cons]; omega)]
            simp
          next => rfl
        · by_cases double : d = dollar
          · subst double
            simp only [replaceEnvLoop, if_true, apart, if_false]
            rw [shorter rest (by simp only [length_cons]; omega), substitute, if_pos ⟨rfl, rfl⟩]
            simp
          · simp only [replaceEnvLoop, if_true, opened, double, if_false]
            rw [shorter rest (by simp only [length_cons]; omega), substitute,
              if_neg (by simp [double]), if_neg (by simp [opened]), substitute_plain env double]
            simp
      · rw [replaceEnvLoop, if_neg isDollar, shorter _ (by simp), substitute_plain env isDollar]
        simp

theorem replaceEnv_eq (format : CString) (env : List CString) :
    replaceEnv format env = .ofBuffer (substitute env format.bytes) := by
  rw [replaceEnv, replaceEnvLoop_word, append_nil, nil_append]

def wordTaken (env : List CString) (w : CString) : List CString :=
  if w.bytes.head? = some dollar ∧ w.bytes.tail.head? ≠ some openingBrace then
    ((strvEnvGetWithLength env w.bytes.tail).map strvSplitQuoted).getD []
  else
    [replaceEnv w env]

theorem replaceEnvWords_eq (argv r : List CString) {l : Nat} (room : l = r.length + argv.length) :
    replaceEnvWords env argv r l = some (r ++ argv.flatMap (wordTaken env)) := by
  induction argv generalizing r l with
  | nil => simp [replaceEnvWords, room]
  | cons w rest ih =>
    rw [length_cons] at room
    rw [replaceEnvWords, flatMap_cons, wordTaken]
    split
    next =>
      dsimp only
      rw [if_pos (by omega), ih _ (by rw [length_append]; omega), append_assoc]
    next =>
      rw [if_pos (by omega), ih _ (by rw [length_append, length_singleton]; omega),
        append_assoc]

theorem replaceEnvArgv_eq (argv env : List CString) :
    replaceEnvArgv argv env = some (argv.flatMap (wordTaken env)) := by
  rw [replaceEnvArgv, replaceEnvWords_eq env argv [] (by simp), nil_append]

variable {w : CString} {env argv : List CString}

theorem isVariable_taken (isVariable : IsVariable w) : w.bytes.tail.head? ≠ some openingBrace := by
  obtain ⟨-, nonempty, each⟩ := isVariable
  have other : identifierByte openingBrace ≠ true := by decide
  cases found : w.bytes.tail with
  | nil => exact absurd found nonempty
  | cons c name =>
    rw [found] at each
    intro opened
    rw [head?_cons] at opened
    exact other (Option.some.inj opened ▸ each c (by simp))

theorem wordTaken_eq (env : List CString) (right : ¬ Mistaken w) :
    wordTaken env w = wordMeans env w := by
  by_cases isVariable : IsVariable w
  · rw [wordTaken, wordMeans, if_pos ⟨isVariable.1, isVariable_taken isVariable⟩, if_pos isVariable]
  · rw [wordTaken, wordMeans, if_neg fun taken => right ⟨taken.1, taken.2, isVariable⟩,
      if_neg isVariable, replaceEnv_eq]

theorem wordTaken_mistaken (mistaken : Mistaken w)
    (unset : strvEnvGetWithLength env w.bytes.tail = none) :
    wordTaken env w = [] ∧ (wordMeans env w).length = 1 := by
  obtain ⟨start, other, none⟩ := mistaken
  rw [wordTaken, wordMeans, if_pos ⟨start, other⟩, if_neg none, unset]
  exact ⟨rfl, rfl⟩

theorem flatMap_shorter
    (unset : ∀ w ∈ argv, Mistaken w -> strvEnvGetWithLength env w.bytes.tail = none) :
    (argv.flatMap (wordTaken env)).length ≤ (argv.flatMap (wordMeans env)).length ∧
      ((∃ w ∈ argv, Mistaken w) ->
        (argv.flatMap (wordTaken env)).length < (argv.flatMap (wordMeans env)).length) := by
  induction argv with
  | nil => simp
  | cons w rest ih =>
    obtain ⟨atMost, less⟩ := ih fun v mem => unset v (by simp [mem])
    simp only [flatMap_cons, length_append, exists_mem_cons_iff]
    by_cases mistaken : Mistaken w
    · obtain ⟨lost, one⟩ := wordTaken_mistaken mistaken (unset w (by simp) mistaken)
      rw [lost, one, length_nil]
      exact ⟨by omega, fun _ => by omega⟩
    · rw [wordTaken_eq env mistaken]
      refine ⟨by omega, fun found => ?_⟩
      have later := less (found.resolve_left mistaken)
      omega

def Replaced (argv env : List CString) : Prop :=
  replaceEnvArgv argv env = some (argv.flatMap (wordMeans env))

theorem replaced_of_right (right : ∀ w ∈ argv, ¬ Mistaken w) (env : List CString) :
    Replaced argv env := by
  rw [Replaced, replaceEnvArgv_eq]
  congr 1
  exact flatMap_congr fun w mem => wordTaken_eq env (right w mem)

theorem right_of_replaced (replaced : Replaced argv env)
    (unset : ∀ w ∈ argv, Mistaken w -> strvEnvGetWithLength env w.bytes.tail = none) :
    ∀ w ∈ argv, ¬ Mistaken w := by
  intro w mem mistaken
  have less := (flatMap_shorter unset).2 ⟨w, mem, mistaken⟩
  rw [Replaced, replaceEnvArgv_eq] at replaced
  rw [Option.some.inj replaced] at less
  exact Nat.lt_irrefl _ less

/-- The words of a vector are replaced as they should be, whatever the environment, exactly if none is
mistaken for a variable; and in one environment if no mistaken word happens to name a variable there.
The vector has always room. -/
theorem replaced_iff (argv : List CString) :
    (∀ env, ∃ r, replaceEnvArgv argv env = some r) ∧
      ((∀ env, Replaced argv env) ↔ ∀ w ∈ argv, ¬ Mistaken w) ∧
        ∀ env, (∀ w ∈ argv, Mistaken w -> strvEnvGetWithLength env w.bytes.tail = none) ->
          (Replaced argv env ↔ ∀ w ∈ argv, ¬ Mistaken w) := by
  refine ⟨fun env => ⟨_, replaceEnvArgv_eq argv env⟩, ⟨?_, replaced_of_right⟩, fun env unset => ?_⟩
  · intro always
    exact right_of_replaced (always []) fun w _ _ => rfl
  · exact ⟨fun replaced => right_of_replaced replaced unset, fun right => replaced_of_right right env⟩

def echoArgv : List CString :=
  [.ofString "/bin/echo", .ofString "$FOO", .ofString "a$$$FOO"]

theorem echoArgv_right : ∀ w ∈ echoArgv, ¬ Mistaken w := by
  intro w mem mistaken
  have each : ∀ w ∈ echoArgv, w.bytes.head? = some dollar -> IsVariable w := by decide
  exact mistaken.2.2 (each w mem mistaken.1)

theorem echo_replaced : Replaced echoArgv [.ofString "FOO=b c"] :=
  ((replaced_iff echoArgv).2.2 [.ofString "FOO=b c"]
    fun w mem mistaken => absurd mistaken (echoArgv_right w mem)).mpr echoArgv_right

example : replaceEnvArgv echoArgv [.ofString "FOO=b c"] =
    some [.ofString "/bin/echo", .ofString "b", .ofString "c", .ofString "a$$FOO"] := by
  decide

/-- The argument $$ should become a dollar sign, and is dropped. -/
theorem double_dollar_lost :
    replaceEnvArgv [.ofString "/bin/echo", .ofString "$$"] [] = some [.ofString "/bin/echo"] ∧
      ¬ ∀ argv env, Replaced argv env := by
  have lost : replaceEnvArgv [.ofString "/bin/echo", .ofString "$$"] [] =
      some [.ofString "/bin/echo"] := by
    decide
  refine ⟨lost, fun always => ?_⟩
  have mistaken : Mistaken (.ofString "$$") := by
    refine ⟨by decide, by decide, by decide⟩
  exact right_of_replaced (always [.ofString "/bin/echo", .ofString "$$"] []) (fun w _ _ => rfl)
    (.ofString "$$") (by simp) mistaken

end Systemd.CommandLine
