import Systemd.Basic.EnvFile

set_option autoImplicit false

namespace Systemd.Config

def lineMax : Nat := 2048

def backslash : UInt8 := '\\'.toUInt8

def space : UInt8 := ' '.toUInt8

-- The buffer is a C string, so it ends at a NUL as well.
def truncateNl (line : List UInt8) : List UInt8 :=
  line.takeWhile fun byte => byte ≠ 0 && !isNewline byte

def escapedAfter (text : List UInt8) : Bool :=
  text.foldl (fun escaped byte => !escaped && byte = backslash) false

-- *(e-1) = ' '
def continued (text : List UInt8) : List UInt8 :=
  text.dropLast ++ [space]

section

variable {S : Type} (parseLine : Nat -> List UInt8 -> S -> Except Int S)

-- A continuation that is left at the end of the file is freed.
def configLoop : Nat -> List UInt8 -> Option (List UInt8) -> Nat -> S -> Except Int S
  | 0, _, _, _, s => .ok s
  | fuel + 1, stream, continuation, line, s =>
    match fgets lineMax stream with
    | none => .ok s
    | some (l, rest) =>
      let p := continuation.getD [] ++ truncateNl l
      if escapedAfter p then
        configLoop fuel rest (some (continued p)) line s
      else
        (parseLine (line + 1) p s).bind (configLoop fuel rest none (line + 1))

def configParse (contents : List UInt8) (s : S) : Except Int S :=
  configLoop parseLine (contents.length + 1) contents none 0 s

def passLines : Nat -> List (List UInt8) -> S -> Except Int S
  | _, [], s => .ok s
  | line, text :: rest, s => (parseLine (line + 1) text s).bind (passLines (line + 1) rest)

end

def physicalLines (contents : List UInt8) : List (List UInt8) :=
  let lines := contents.splitOn newline
  if lines.getLast? = some [] then lines.dropLast else lines

def joinLines : List UInt8 -> List (List UInt8) -> List (List UInt8)
  | front, [] => if front = [] then [] else [front]
  | front, line :: rest =>
    if escapedAfter line then joinLines (front ++ continued line) rest
    else (front ++ line) :: joinLines [] rest

def logicalLines (contents : List UInt8) : List (List UInt8) :=
  joinLines [] (physicalLines contents)

def pieces : Nat -> List UInt8 -> List (List UInt8)
  | 0, _ => []
  | fuel + 1, stream =>
    match fgets lineMax stream with
    | none => []
    | some (l, rest) => truncateNl l :: pieces fuel rest

def joinPieces : List UInt8 -> List (List UInt8) -> List (List UInt8)
  | _, [] => []
  | front, piece :: rest =>
    if escapedAfter (front ++ piece) then joinPieces (continued (front ++ piece)) rest
    else (front ++ piece) :: joinPieces [] rest

theorem configLoop_eq {S : Type} (parseLine : Nat -> List UInt8 -> S -> Except Int S) (fuel : Nat)
    (stream : List UInt8) (continuation : Option (List UInt8)) (line : Nat) (s : S) :
    configLoop parseLine fuel stream continuation line s =
      passLines parseLine line (joinPieces (continuation.getD []) (pieces fuel stream)) s := by
  induction fuel generalizing stream continuation line s with
  | zero => rfl
  | succ fuel ih =>
    rw [configLoop, pieces]
    cases read : fgets lineMax stream with
    | none => rfl
    | some outcome =>
      obtain ⟨l, rest⟩ := outcome
      simp only [joinPieces]
      split_ifs with escaped
      · rw [ih]
        rfl
      · rw [passLines]
        congr 1
        funext s
        exact ih rest none (line + 1) s

def passedLines (contents : List UInt8) : List (List UInt8) :=
  joinPieces [] (pieces (contents.length + 1) contents)

theorem configParse_eq {S : Type} (parseLine : Nat -> List UInt8 -> S -> Except Int S)
    (contents : List UInt8) (s : S) :
    configParse parseLine contents s = passLines parseLine 0 (passedLines contents) s :=
  configLoop_eq parseLine _ contents none 0 s

def Honoured (contents : List UInt8) : Prop :=
  ∀ (S : Type) (parseLine : Nat -> List UInt8 -> S -> Except Int S) (s : S),
    configParse parseLine contents s = passLines parseLine 0 (logicalLines contents) s

theorem passLines_collect (line : Nat) (lines seen : List (List UInt8)) :
    passLines (fun _ text seen => .ok (seen ++ [text])) line lines seen = .ok (seen ++ lines) := by
  induction lines generalizing line seen with
  | nil => simp [passLines]
  | cons text rest ih =>
    rw [passLines]
    show passLines _ _ rest (seen ++ [text]) = _
    rw [ih, List.append_assoc, List.singleton_append]

theorem honoured_iff_passed (contents : List UInt8) :
    Honoured contents ↔ passedLines contents = logicalLines contents := by
  constructor
  · intro honoured
    have collected := honoured (List (List UInt8)) (fun _ text seen => .ok (seen ++ [text])) []
    rw [configParse_eq, passLines_collect, passLines_collect] at collected
    simpa using collected
  · intro same S parseLine s
    rw [configParse_eq, same]

end Systemd.Config
