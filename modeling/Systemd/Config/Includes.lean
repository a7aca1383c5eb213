import Systemd.Config.Lines
import Systemd.Loading.Loader

set_option autoImplicit false

namespace Systemd.Config

open Program

def emfile : Int := -24

def ebadmsg : Int := -74

structure ConfigFile where
  contents : List UInt8
  readError : Option Int

/-- The function for a setting. It gets the name of the file, the line, the section, the setting and its
value. -/
abbrev Callback (S : Type) :=
  CString -> Nat -> Option (List UInt8) -> List UInt8 -> List UInt8 -> S -> Except Int Unit × S

inductive Lookup (S : Type) where
  | fails (e : Int)
  | unknown
  | found (func : Option (Callback S))

structure Host (S : Type) where
  limit : Nat
  file : CString -> Except Int ConfigFile
  sections : Option (List (List UInt8))
  lookup : Option (List UInt8) -> List UInt8 -> Lookup S

structure Parser (S : Type) where
  openFiles : Nat
  settings : S

abbrev Parse (S A : Type) := Program (Parser S) Int A

def includeText : List UInt8 := ".include ".toList.map Char.toUInt8

section

variable {S : Type} (host : Host S)

def fopen (filename : CString) : Parse S ConfigFile := fun s =>
  if host.limit ≤ s.openFiles then
    some (.error emfile, s)
  else
    match host.file filename with
    | .error e => some (.error e, s)
    | .ok file => some (.ok file, { s with openFiles := s.openFiles + 1 })

def callFunc (func : S -> Except Int Unit × S) : Parse S Unit := fun s =>
  some ((func s.settings).1, { s with settings := (func s.settings).2 })

def nextAssignment (filename : CString) (line : Nat) (sect : Option (List UInt8))
    (lvalue rvalue : List UInt8) : Parse S Unit :=
  match host.lookup sect lvalue with
  | .fails e => fail e
  | .unknown => pure ()
  | .found none => pure ()
  | .found (some func) => callFunc (func filename line sect lvalue rvalue)

def parseLine (includeFile : CString -> Parse S Unit) (filename : CString) (line : Nat)
    (sect : Option (List UInt8)) (l : List UInt8) : Parse S (Option (List UInt8)) :=
  let l := strip l
  match l.head? with
  | none => pure sect
  | some first =>
    if first ∈ comments then
      pure sect
    else if includeText.isPrefixOf l then do
      includeFile (Loading.fileInSameDir filename (.ofBuffer (strip (l.drop includeText.length))))
      pure sect
    else if first = '['.toUInt8 then
      if l.getLast? ≠ some ']'.toUInt8 then
        fail ebadmsg
      else
        let n := (l.drop 1).take (l.length - 2)
        if host.sections.any (!·.contains n) then pure none else pure (some n)
    else if host.sections.isSome ∧ sect = none then
      pure sect
    else
      match strchr l equalsSign with
      | none => fail ebadmsg
      | some e => do
        nextAssignment host filename line sect (strip (l.take e)) (strip (l.drop (e + 1)))
        pure sect

-- The fuel counts what is left of the stream.
def linesLoop (includeFile : CString -> Parse S Unit) (filename : CString) (readError : Option Int) :
    Nat -> List UInt8 -> Option (List UInt8) -> Nat -> Option (List UInt8) -> Parse S Unit
  | 0, _, _, _, _ => abort
  | fuel + 1, stream, continuation, line, sect =>
    match fgets lineMax stream with
    | none => readError.elim (pure ()) fail
    | some (l, rest) =>
      let p := continuation.getD [] ++ truncateNl l
      if escapedAfter p then
        linesLoop includeFile filename readError fuel rest (some (continued p)) line sect
      else do
        let sect ← parseLine host includeFile filename (line + 1) sect p
        linesLoop includeFile filename readError fuel rest none (line + 1) sect

def readLines (includeFile : CString -> Parse S Unit) (filename : CString) (f : ConfigFile) : Parse S Unit :=
  linesLoop host includeFile filename f.readError (f.contents.length + 1) f.contents none 0 none

def fclose (s : Parser S) : Parser S := { s with openFiles := s.openFiles - 1 }

def configParseFile : Nat -> CString -> Option ConfigFile -> Parse S Unit
  | 0, _, _ => abort
  | fuel + 1, filename, some f =>
    readLines host (fun fn => configParseFile fuel fn none) filename f
  | fuel + 1, filename, none => do
    let f ← fopen host filename
    let r ← attempt (readLines host (fun fn => configParseFile fuel fn none) filename f)
    change fclose
    ofResult r

end

section

variable {S : Type} {host : Host S} {P : Parser S -> Prop} {enough : Nat}
  {includeFile : Nat -> CString -> Parse S Unit}

section

variable (kept : ∀ (s : Parser S) settings, P s -> P { s with settings := settings })
include kept

theorem nextAssignment_settles (filename : CString) (line : Nat) (sect : Option (List UInt8))
    (lvalue rvalue : List UInt8) :
    Settles P enough fun _ => nextAssignment host filename line sect lvalue rvalue := by
  unfold Config.nextAssignment
  split
  next => exact .fail _
  next => exact .pure _
  next => exact .pure _
  next func _ => exact fun s holds => ⟨_, _, kept s _ holds, fun _ _ => rfl⟩

theorem parseLine_settles (included : ∀ fn, Settles P enough fun fuel => includeFile fuel fn)
    (filename : CString) (line : Nat) (sect : Option (List UInt8)) (l : List UInt8) :
    Settles P enough fun fuel => parseLine host (includeFile fuel) filename line sect l := by
  unfold Config.parseLine
  dsimp only
  split
  next => exact .pure _
  next first _ =>
    split
    next => exact .pure _
    next =>
      split
      next => exact .bind (included _) fun _ => .pure _
      next =>
        split
        next =>
          split
          next => exact .fail _
          next => split <;> exact .pure _
        next =>
          split
          next => exact .pure _
          next =>
            split
            next => exact .fail _
            next e _ => exact .bind (nextAssignment_settles kept filename line sect _ _) fun _ => .pure _

theorem linesLoop_settles (included : ∀ fn, Settles P enough fun fuel => includeFile fuel fn)
    (filename : CString) (readError : Option Int) {left : Nat} {stream : List UInt8}
    (short : stream.length < left) (continuation : Option (List UInt8)) (line : Nat)
    (sect : Option (List UInt8)) :
    Settles P enough fun fuel =>
      linesLoop host (includeFile fuel) filename readError left stream continuation line sect := by
  induction left generalizing stream continuation line sect with
  | zero => omega
  | succ left ih =>
    unfold Config.linesLoop
    split
    next =>
      cases readError with
      | none => exact .pure _
      | some e => exact .fail _
    next l rest read =>
      have shorter := fgets_shorter (by decide) read
      dsimp only
      split
      next => exact ih (by omega) _ _ _
      next => exact .bind (parseLine_settles kept included filename _ _ _) fun sect => ih (by omega) _ _ sect

end

theorem configParseFile_settles (host : Host S) (room n : Nat) (enough : host.limit ≤ n + room)
    (filename : CString) :
    Settles (fun s : Parser S => s.openFiles = n) (room + 1) fun fuel =>
      configParseFile host fuel filename none := by
  induction room generalizing n filename with
  | zero =>
    refine fun s full => ⟨.error emfile, s, full, fun fuel more => ?_⟩
    obtain ⟨less, rfl⟩ := Nat.exists_eq_add_of_le' (show 1 ≤ fuel by omega)
    refine bind_eq_some.mpr (.inl ⟨emfile, ?_, rfl⟩)
    rw [fopen, if_pos (by omega)]
  | succ room ih =>
    refine .succ (.bracket (Q := fun s => s.openFiles = n + 1) ?_ ?_ ?_) fun _ => rfl
    · intro s now
      unfold fopen
      split
      next => exact .inl ⟨emfile, s, now, rfl⟩
      next =>
        split
        next e _ => exact .inl ⟨e, s, now, rfl⟩
        next f _ => exact .inr ⟨f, _, congrArg (· + 1) now, rfl⟩
    · intro f
      refine linesLoop_settles (fun s settings now => now) (fun fn => ?_) _ _ (Nat.lt_succ_self _) _ _ _
      exact ih (n + 1) (by omega) fn
    · intro s now
      change s.openFiles - 1 = n
      omega

/-- Whatever the files include, config_parse() ends, and it closes what it has opened. -/
theorem configParseFile_ends (host : Host S) (filename : CString) (f : Option ConfigFile)
    (s : Parser S) :
    ∃ r s', s'.openFiles = s.openFiles ∧
      ∀ fuel, host.limit + 2 ≤ fuel -> configParseFile host fuel filename f s = some (r, s') := by
  have nested := fun fn => configParseFile_settles host host.limit s.openFiles (by omega) fn
  cases f with
  | none =>
    obtain ⟨r, s', kept, run⟩ := nested filename s rfl
    exact ⟨r, s', kept, fun fuel more => run fuel (by omega)⟩
  | some f =>
    have given : Settles (fun s' : Parser S => s'.openFiles = s.openFiles) (host.limit + 2) fun fuel =>
        configParseFile host fuel filename (some f) := by
      refine .succ (p := fun fuel => readLines host (fun fn => configParseFile host fuel fn none)
        filename f) ?_ fun fuel => rfl
      exact linesLoop_settles (fun s settings now => now) nested _ _ (Nat.lt_succ_self _) _ _ _
    exact given s rfl

end

section

variable {S : Type} {host : Host S}

def includedFile (filename : CString) (l : List UInt8) : Option CString :=
  if (∀ first ∈ (strip l).head?, first ∉ comments) ∧ includeText.isPrefixOf (strip l) = true then
    some (Loading.fileInSameDir filename (.ofBuffer (strip ((strip l).drop includeText.length))))
  else
    none

def Includes (host : Host S) (filename fn : CString) : Prop :=
  ∃ f, host.file filename = .ok f ∧ ∃ l ∈ passedLines f.contents, includedFile filename l = some fn

theorem parseLine_includes {includeFile : CString -> Parse S Unit} {filename fn : CString} {line : Nat}
    {sect sect' : Option (List UInt8)} {l : List UInt8} {s s' : Parser S}
    (asks : includedFile filename l = some fn)
    (run : parseLine host includeFile filename line sect l s = some (.ok sect', s')) :
    ∃ t, includeFile fn s = some (.ok (), t) := by
  unfold includedFile at asks
  split at asks
  next both =>
    obtain ⟨plain, starts⟩ := both
    obtain rfl := Option.some.inj asks
    unfold parseLine at run
    cases here : (strip l).head? with
    | none =>
      rw [List.head?_eq_none_iff.mp here] at starts
      cases starts
    | some first =>
      simp only [here, if_neg (plain first here), starts, if_true] at run
      rcases bind_eq_some.mp run with ⟨e, -, wrong⟩ | ⟨⟨⟩, middle, ran, -⟩
      · cases wrong
      · exact ⟨middle, ran⟩
  next => cases asks

theorem linesLoop_lines {includeFile : CString -> Parse S Unit} {filename : CString}
    {readError : Option Int} {left : Nat} {stream : List UInt8} {continuation : Option (List UInt8)}
    {line : Nat} {sect : Option (List UInt8)} {s s' : Parser S}
    (run : linesLoop host includeFile filename readError left stream continuation line sect s =
      some (.ok (), s')) :
    ∀ l ∈ joinPieces (continuation.getD []) (pieces left stream), ∃ line sect sect' t t',
      parseLine host includeFile filename line sect l t = some (.ok sect', t') := by
  induction left generalizing stream continuation line sect s with
  | zero => cases run
  | succ left ih =>
    cases read : fgets lineMax stream with
    | none => simp [pieces, read, joinPieces]
    | some outcome =>
      obtain ⟨l, rest⟩ := outcome
      simp only [linesLoop, read] at run
      simp only [pieces, read, joinPieces]
      split at run
      next escaped =>
        rw [if_pos escaped]
        exact ih run
      next plain =>
        rw [if_neg plain]
        rcases bind_eq_some.mp run with ⟨e, -, wrong⟩ | ⟨sect', middle, parsed, later⟩
        · cases wrong
        · intro l' listed
          rcases List.mem_cons.mp listed with rfl | behind
          · exact ⟨line + 1, sect, sect', s, middle, parsed⟩
          · exact ih later l' behind

/-- Whether config_parse opens the file itself or is given it open, what it returns from includes no file
without end. -/
theorem configParseFile_wellFounded {fuel : Nat} {filename : CString} {f : Option ConfigFile} {s s' : Parser S}
    (run : configParseFile host fuel filename f s = some (.ok (), s')) :
    (f = none -> Acc (fun fn filename => Includes host filename fn) filename) ∧
      ∀ file ∈ f, ∀ l ∈ passedLines file.contents, ∀ fn ∈ includedFile filename l,
        Acc (fun fn filename => Includes host filename fn) fn := by
  induction fuel generalizing filename f s s' with
  | zero => cases run
  | succ fuel ih =>
    have below {file : ConfigFile} {t t' : Parser S}
        (lines : readLines host (fun fn => configParseFile host fuel fn none) filename file t = some (.ok (), t')) :
        ∀ l ∈ passedLines file.contents, ∀ fn ∈ includedFile filename l,
          Acc (fun fn filename => Includes host filename fn) fn := by
      intro l listed fn asks
      obtain ⟨line, sect, sect', u, u', parsed⟩ := linesLoop_lines lines l listed
      obtain ⟨u'', included⟩ := parseLine_includes asks parsed
      exact (ih included).1 rfl
    cases f with
    | some file =>
      refine ⟨nofun, fun file' same => ?_⟩
      cases same
      exact below run
    | none =>
      refine ⟨fun _ => ?_, nofun⟩
      rcases bind_eq_some.mp run with ⟨e, -, wrong⟩ | ⟨f, middle, opened, rest⟩
      · cases wrong
      · obtain ⟨r, last, lines, later⟩ := attempt_bind.mp rest
        have whole : r = .ok () := by
          rw [change_bind] at later
          cases r with
          | ok => rfl
          | error e => cases later
        rw [whole] at lines
        refine .intro filename fun fn includes => ?_
        obtain ⟨f', file, l, listed, asks⟩ := includes
        have same : f = f' := by
          unfold fopen at opened
          rw [file] at opened
          split at opened
          next => cases opened
          next =>
            cases opened
            rfl
        exact below lines l (same ▸ listed) fn asks

end

def circular : Host Unit where
  limit := 3
  file _ := .ok ⟨".include a.conf\n".toList.map Char.toUInt8, none⟩
  sections := none
  lookup _ _ := .unknown

example : configParseFile circular 5 (.ofString "a.conf") none ⟨0, ()⟩ = some (.error emfile, ⟨0, ()⟩) := by
  rfl

def included : Host Unit :=
  { circular with
    file := fun fn => .ok ⟨if fn = .ofString "a" then ".include b".toList.map Char.toUInt8 else [], none⟩ }

theorem included_ends : Acc (fun fn filename => Includes included filename fn) (.ofString "a") :=
  (@configParseFile_wellFounded Unit included 3 (.ofString "a") none ⟨0, ()⟩ ⟨0, ()⟩ rfl).1 rfl

end Systemd.Config
