import Mathlib.Logic.Relation
import Systemd.Config.ConfFiles
import Systemd.Install.Files

set_option autoImplicit false

namespace Systemd.Install

inductive Errno where
  | enoent
  | enotdir
  -- What else the system may say.
  | other (code : Nat)
  deriving DecidableEq

inductive Call where
  | opens (path : List UInt8)
  | duplicates
  | reads (path : List UInt8)
  | readlink (path : List UInt8)
  | unlink (path : List UInt8)

/-- In what order the names in a directory are read, and how the calls fail, for each pass. What is there
is found. -/
structure System where
  readdir : Nat -> List UInt8 -> List Name -> List Name × Option Errno
  fails : Nat -> Call -> Option Errno
  listed : ∀ pass path names, (readdir pass path names).2 = none -> (readdir pass path names).1.Perm names
  present : ∀ pass call, fails pass call ≠ some .enoent

structure State where
  tree : Tree
  marks : List (List UInt8)
  unlinked : List (List UInt8)

structure Walk where
  state : State
  deleted : Bool

def pathMakeAbsolute (name : Name) (path : List UInt8) : List UInt8 := path ++ slash ++ name

def fileInSameDir (path filename : List UInt8) : List UInt8 :=
  if pathIsAbsolute filename then
    filename
  else
    match strrchr path '/'.toUInt8 with
    | none => filename
    | some e => path.take (e + 1) ++ filename

def readlinkAndCanonicalize (t : Tree) (p target : List UInt8) : List UInt8 :=
  let made := fileInSameDir p target
  pathKillSlashes ((canonicalizeFileName t made).getD made)

def Marked (s : State) (p target : List UInt8) : Prop :=
  readlinkAndCanonicalize s.tree p target ∈ s.marks ∨
    ConfFiles.fileNameFromPath (readlinkAndCanonicalize s.tree p target) ∈ s.marks

instance (s : State) (p target : List UInt8) : Decidable (Marked s p target) :=
  inferInstanceAs (Decidable (_ ∨ _))

def dirnameBytes (path : List UInt8) : List UInt8 :=
  path.rdropWhile (· ≠ '/'.toUInt8) |>.rdropWhile (· = '/'.toUInt8)

-- The fuel is the length of the path. A directory that is not empty stops the loop.
def rmdirParentsLoop (stop : List UInt8) : Nat -> Tree -> List UInt8 -> Tree
  | 0, t, _ => t
  | fuel + 1, t, path =>
    let parent := dirnameBytes path
    if parent = [] then
      t
    else if pathStartswith stop parent then
      t
    else
      match t.lookup (components parent) with
      | none => rmdirParentsLoop stop fuel t parent
      | some _ =>
        if (t.rmdir (components parent)).lookup (components parent) = none then
          rmdirParentsLoop stop fuel (t.rmdir (components parent)) parent
        else
          t

def rmdirParents (t : Tree) (path stop : List UInt8) : Tree :=
  rmdirParentsLoop stop (path.length + 1) t (path.rdropWhile (· = '/'.toUInt8))

def markSymlinkForRemoval (marks : List (List UInt8)) (p : List UInt8) : List (List UInt8) :=
  if pathKillSlashes p ∈ marks then marks else marks ++ [pathKillSlashes p]

def State.forget (s : State) (configPath p : List UInt8) (t : Tree) : State where
  tree := rmdirParents t p configPath
  marks := markSymlinkForRemoval s.marks (pathKillSlashes p)
  unlinked := s.unlinked ++ [pathKillSlashes p]

def Walk.forget (w : Walk) (configPath p : List UInt8) (t : Tree) : Walk where
  state := w.state.forget configPath p t
  deleted := w.deleted || !w.state.marks.contains (pathKillSlashes p)

section

variable (sys : System) (pass : Nat) (configPath : List UInt8)

def visitLink (p target : List UInt8) (r : Option Errno) (w : Walk) : Option Errno × Walk :=
  match sys.fails pass (.readlink p) with
  | some e => (if e = .enoent then r else r.or (some e), w)
  | none =>
    if Marked w.state p target then
      match sys.fails pass (.unlink p) with
      | some e =>
        if e = .enoent then (r, w.forget configPath p w.state.tree) else (r.or (some e), w)
      | none => (r, w.forget configPath p (w.state.tree.unlink (components p)))
    else
      (r, w)

def visitNames (descend : List UInt8 -> Walk -> Option (Option Errno × Walk)) (path : List UInt8) :
    List Name -> Option Errno -> Walk -> Option (Option Errno × Walk)
  | [], r, w => some (r, w)
  | name :: rest, r, w =>
    if ConfFiles.ignoreFile name then
      visitNames descend path rest r w
    else
      let p := pathMakeAbsolute name path
      match w.state.tree.lookup (components path ++ [name]) with
      | some .dir =>
        match sys.fails pass (.opens p) with
        | some e => visitNames descend path rest (if e = .enoent then r else r.or (some e)) w
        | none => (descend p w).bind fun (q, w') => visitNames descend path rest (r.or q) w'
      | some (.link target) =>
        let (r, w) := visitLink sys pass configPath p target r w
        visitNames descend path rest r w
      | _ => visitNames descend path rest r w

-- The fuel bounds the depth of the directories.
def removeMarkedSymlinksFd : Nat -> List UInt8 -> Walk -> Option (Option Errno × Walk)
  | 0, _, _ => none
  | depth + 1, path, w =>
    let (names, failure) := sys.readdir pass path (w.state.tree.listing (components path))
    (visitNames sys pass configPath (removeMarkedSymlinksFd depth) path names none w).map
      fun (r, w') => (failure.or r, w')

end

def removePasses (sys : System) (configPath : List UInt8) (depth : Nat) :
    Nat -> Nat -> Option Errno -> State -> Option (Option Errno × State)
  | 0, _, _, _ => none
  | fuel + 1, pass, r, s =>
    match sys.fails pass .duplicates with
    | some e => some (some e, s)
    | none =>
      (removeMarkedSymlinksFd sys pass configPath depth configPath ⟨s, false⟩).bind fun (q, w) =>
        if w.deleted then
          removePasses sys configPath depth fuel (pass + 1) (r.or q) w.state
        else
          some (r.or q, w.state)

-- The directory is opened without following a symlink.
def removeMarkedSymlinks (sys : System) (configPath : List UInt8) (fuel : Nat) (s : State) :
    Option (Option Errno × State) :=
  if s.marks = [] then
    some (none, s)
  else
    match sys.fails 0 (.opens configPath), s.tree.lookup (components configPath) with
    | some e, _ => some (some e, s)
    | none, some .dir => removePasses sys configPath fuel fuel 0 none s
    | none, some _ => some (some .enotdir, s)
    | none, none => some (some .enoent, s)

end Systemd.Install
