import Systemd.Basic.PathNames
import Systemd.Units.Path

set_option autoImplicit false

namespace Systemd.Tmpfiles

inductive ItemType where
  | createFile
  | truncateFile
  | createDirectory
  | truncateDirectory
  | createFifo
  | ignorePath
  | removePath
  | recursiveRemovePath
  deriving DecidableEq

def itemType : Char -> Option ItemType
  | 'f' => some .createFile
  | 'F' => some .truncateFile
  | 'd' => some .createDirectory
  | 'D' => some .truncateDirectory
  | 'p' => some .createFifo
  | 'x' => some .ignorePath
  | 'r' => some .removePath
  | 'R' => some .recursiveRemovePath
  | _ => none

def needsGlob (t : ItemType) : Bool :=
  t = .ignorePath || t = .removePath || t = .recursiveRemovePath

structure Item where
  type : ItemType
  path : CString
  -- none stands for an item without age_set.
  age : Option Nat
  deriving DecidableEq

structure Config where
  items : List Item
  globs : List Item

inductive Errno where
  | eio
  | ebadmsg
  | enoent
  | enotdir
  | enotempty
  | other (number : Nat)
  deriving DecidableEq

structure Fields where
  type : Char
  path : CString
  credentials : Option Errno
  -- some none stands for an age that parse_usec() rejects.
  age : Option (Option Nat)

def killSlashes (path : CString) : CString :=
  .ofBuffer (pathKillSlashes path.bytes)

def Config.put (config : Config) (i : Item) : Config :=
  if needsGlob i.type then
    if config.globs.any fun existing => existing.path = i.path then
      config
    else
      { config with globs := i :: config.globs }
  else if config.items.any fun existing => existing.path = i.path then
    config
  else
    { config with items := i :: config.items }

-- none in place of the fields stands for a line with less than two of them.
def parseLine (argPrefix : Option CString) (config : Config) (buffer : Option Fields) :
    Except Errno Config :=
  match buffer with
  | none => .error .eio
  | some fields =>
    match itemType fields.type with
    | none => .error .ebadmsg
    | some type =>
      if pathIsAbsolute fields.path.bytes = false then
        .error .ebadmsg
      else
        let path := killSlashes fields.path
        if argPrefix.any fun start => !pathStartswith path.bytes start.bytes then
          .ok config
        else
          match fields.credentials, fields.age with
          | some error, _ => .error error
          | none, some none => .error .ebadmsg
          | none, some (some age) => .ok (config.put { type, path, age := some age })
          | none, none => .ok (config.put { type, path, age := none })

def Stated (i : Item) : Prop :=
  ∃ path : CString, pathIsAbsolute path.bytes = true ∧ i.path = killSlashes path

structure Config.Filed (config : Config) : Prop where
  items : ∀ i ∈ config.items, needsGlob i.type = false ∧ Stated i
  globs : ∀ j ∈ config.globs, needsGlob j.type = true ∧ Stated j
  itemsOnce : (config.items.map Item.path).Nodup
  globsOnce : (config.globs.map Item.path).Nodup

theorem put_filed {config : Config} (filed : config.Filed) {i : Item} (stated : Stated i) :
    (config.put i).Filed := by
  cases glob : needsGlob i.type with
  | true =>
    by_cases known : config.globs.any fun existing => existing.path = i.path
    next => simpa [Config.put, glob, known] using filed
    next =>
      simp only [Config.put, glob, known, if_true, if_false, Bool.false_eq_true]
      refine ⟨filed.items, ?_, filed.itemsOnce, ?_⟩
      next => simpa [glob, stated] using filed.globs
      next => simpa [filed.globsOnce] using known
  | false =>
    by_cases known : config.items.any fun existing => existing.path = i.path
    next => simpa [Config.put, glob, known] using filed
    next =>
      simp only [Config.put, glob, known, if_false, Bool.false_eq_true]
      refine ⟨?_, filed.globs, ?_, filed.globsOnce⟩
      next => simpa [glob, stated] using filed.items
      next => simpa [filed.itemsOnce] using known

-- The first error of a file is what is returned for it.
def readLine (argPrefix : Option CString) (read : Config × Option Errno) (buffer : Option Fields) :
    Config × Option Errno :=
  match parseLine argPrefix read.1 buffer with
  | .ok config => (config, read.2)
  | .error k => (read.1, read.2.or (some k))

-- The lines that are neither empty nor comments.
def readConfigFile (argPrefix : Option CString) (config : Config) (lines : List (Option Fields)) :
    Config × Option Errno :=
  lines.foldl (readLine argPrefix) (config, none)

-- main() goes on to the next file after an error.
def readConfigFiles (argPrefix : Option CString) (files : List (List (Option Fields))) : Config :=
  files.foldl (fun config lines => (readConfigFile argPrefix config lines).1) ⟨[], []⟩

-- What a line puts into empty tables.
def lineItem (argPrefix : Option CString) (buffer : Option Fields) : Option Item :=
  match parseLine argPrefix ⟨[], []⟩ buffer with
  | .ok config => (config.globs ++ config.items).head?
  | .error _ => none

def Config.table (config : Config) (glob : Bool) : List Item :=
  if glob then config.globs else config.items

variable (argPrefix : Option CString) (config : Config)

theorem put_table (i : Item) (glob : Bool) :
    (config.put i).table glob =
      if needsGlob i.type ≠ glob ∨ (config.table glob).any (·.path = i.path) then config.table glob
      else i :: config.table glob := by
  cases kind : needsGlob i.type <;> cases glob <;>
    simp only [Config.put, Config.table, kind, Bool.false_eq_true, if_true, if_false, ne_eq, not_true, false_or] <;>
    split <;> simp_all

theorem put_find (i : Item) (glob : Bool) (path : CString) :
    ((config.put i).table glob).find? (·.path = path) =
      ((config.table glob).find? (·.path = path)).or
        ([i].find? fun i => needsGlob i.type = glob && i.path = path) := by
  rw [put_table]
  by_cases same : i.path = path
  next =>
    subst same
    by_cases known : (config.table glob).any (·.path = i.path) = true
    next => rw [if_pos (.inr known), Option.or_of_isSome (by simpa [List.find?_isSome] using known)]
    next =>
      have absent : (config.table glob).find? (·.path = i.path) = none := by
        simpa [List.find?_eq_none] using known
      by_cases kind : needsGlob i.type = glob <;> simp [known, kind, absent]
  next => split <;> simp [same]

theorem parseLine_item (buffer : Option Fields) :
    (∃ k, parseLine argPrefix config buffer = .error k ∧ lineItem argPrefix buffer = none) ∨
      parseLine argPrefix config buffer = .ok ((lineItem argPrefix buffer).elim config config.put) ∧
        ∀ i ∈ lineItem argPrefix buffer, Stated i := by
  have only (i : Item) :
      ((Config.put ⟨[], []⟩ i).globs ++ (Config.put ⟨[], []⟩ i).items).head? = some i := by
    cases kind : needsGlob i.type <;> simp [Config.put, kind]
  obtain _ | fields := buffer
  next => simp [lineItem, parseLine]
  next =>
    cases type : itemType fields.type with
    | none => simp [lineItem, parseLine, type]
    | some type' =>
      unfold lineItem
      simp only [parseLine, type]
      split_ifs with relative
      next => simp
      next => simp
      next =>
        have stated (age : Option Nat) : Stated ⟨type', killSlashes fields.path, age⟩ :=
          ⟨fields.path, by simpa using relative, rfl⟩
        cases fields.credentials <;> rcases fields.age with _ | _ | age <;> simp [only, stated]

theorem readConfigFile_items (lines : List (Option Fields)) (read : Config × Option Errno) :
    (lines.foldl (readLine argPrefix) read).1 = (lines.filterMap (lineItem argPrefix)).foldl Config.put read.1 := by
  induction lines generalizing read with
  | nil => rfl
  | cons buffer rest ih =>
    rw [List.foldl_cons, ih, List.filterMap_cons]
    rcases parseLine_item argPrefix read.1 buffer with ⟨k, failed, none⟩ | ⟨parsed, _⟩
    next => simp [readLine, failed, none]
    next => cases item : lineItem argPrefix buffer <;> simp [readLine, parsed, item]

/-- For each path the first line of all files counts, and a line that is wrong costs no other one. -/
theorem first_line_wins (files : List (List (Option Fields))) :
    (readConfigFiles argPrefix files).Filed ∧ ∀ glob path,
      ((readConfigFiles argPrefix files).table glob).find? (·.path = path) =
        (files.flatten.filterMap (lineItem argPrefix)).find? fun i => needsGlob i.type = glob && i.path = path := by
  have whole : readConfigFiles argPrefix files =
      (files.flatten.filterMap (lineItem argPrefix)).foldl Config.put ⟨[], []⟩ := by
    rw [readConfigFiles, List.filterMap_flatten, List.foldl_flatten, List.foldl_map]
    exact congrArg (List.foldl · _ files) (funext₂ fun config lines => readConfigFile_items argPrefix lines _)
  rw [whole]
  constructor
  next =>
    refine List.foldlRecOn _ _ ⟨by simp, by simp, List.nodup_nil, List.nodup_nil⟩ fun config filed i mem => ?_
    obtain ⟨buffer, _, stated⟩ := List.mem_filterMap.mp mem
    rcases parseLine_item argPrefix config buffer with ⟨k, _, none⟩ | ⟨_, each⟩
    next => cases none.symm.trans stated
    next => exact put_filed filed (each i stated)
  next =>
    intro glob path
    have filed : ∀ (items : List Item) (config : Config),
        ((items.foldl Config.put config).table glob).find? (·.path = path) =
          ((config.table glob).find? (·.path = path)).or
            (items.find? fun i => needsGlob i.type = glob && i.path = path) := by
      intro items
      induction items with
      | nil => simp
      | cons i rest ih =>
        intro config
        rw [List.foldl_cons, ih, put_find, Option.or_assoc, ← List.find?_append, List.singleton_append]
    rw [filed]
    cases glob <;> rfl

end Systemd.Tmpfiles

namespace Systemd.Tmpfiles

inductive FileType where
  | regular
  | directory
  | symlink
  | fifo
  | socket
  | characterDevice
  | blockDevice
  deriving DecidableEq

structure Stat where
  dev : Nat
  ino : Nat
  uid : Nat
  type : FileType
  ownerMayWrite : Bool
  sticky : Bool
  mtim : Nat
  atim : Nat
  ctim : Nat
  deriving DecidableEq

structure FileName where
  name : CString
  nonempty : name.bytes ≠ []
  noSlash : '/'.toUInt8 ∉ name.bytes
  notSelf : name ≠ .ofString "."
  notParent : name ≠ .ofString ".."
  deriving DecidableEq

structure Entry where
  name : FileName
  stat : Stat
  statError : Option Errno
  openError : Option Errno
  unlinkError : Option Errno
  deriving DecidableEq

/-- The content of a directory, in the order of readdir(). Each entry comes with its own content. -/
inductive Listing where
  | nil
  | entry (e : Entry) (sub rest : Listing)
  deriving DecidableEq

namespace Listing

def names : Listing -> List FileName
  | .nil => []
  | .entry e _ rest => e.name :: rest.names

def WellFormed : Listing -> Prop
  | .nil => True
  | .entry e sub rest =>
    e.name ∉ rest.names ∧ (e.stat.type ≠ .directory -> sub = .nil) ∧ sub.WellFormed ∧ rest.WellFormed

def find : List FileName -> Listing -> Option Entry
  | [], _ => none
  | _ :: _, .nil => none
  | name :: below, .entry e sub rest =>
    if e.name = name then
      if below = [] then some e else find below sub
    else
      find (name :: below) rest

end Listing

structure Setting where
  fnmatch : CString -> CString -> Bool
  config : Config
  unixSockets : Option (List CString)

namespace Setting

def configured (S : Setting) (path : CString) : Bool :=
  S.config.items.any fun i => i.path = path

def findGlob (S : Setting) (path : CString) : Option Item :=
  S.config.globs.find? fun j => S.fnmatch j.path path

def unixSocketAlive (S : Setting) (path : CString) : Bool :=
  match S.unixSockets with
  | some sockets => sockets.contains path
  | none => true

end Setting

def subPath (p : CString) (name : FileName) : CString :=
  (p.append (.ofString "/")).append name.name

-- An entry that has gone in the meantime is no error.
def reported (error : Errno) : Option Errno :=
  if error = .enoent then none else some error

def unlinkFile (e : Entry) (sub : Listing) : Option Listing × Option Errno :=
  match e.unlinkError with
  | some error => (some sub, reported error)
  | none => (none, none)

def removeDirectory (e : Entry) (sub : Listing) (q : Option Errno) :
    Option Listing × Option Errno :=
  match e.unlinkError with
  | some error => (some sub, if error = .enotempty then q else (reported error).or q)
  | none => if sub = .nil then (none, q) else (some sub, q)

def directoryAge (s : Stat) : Nat :=
  max s.mtim s.atim

def fileAge (s : Stat) : Nat :=
  max (max s.mtim s.atim) s.ctim

def spared (S : Setting) (rootdev : Nat) (path : CString) (s : Stat) : Bool :=
  s.dev ≠ rootdev || (s.uid = 0 && !s.ownerMayWrite) || S.configured path || (S.findGlob path).isSome

def lostAndFound (e : Entry) : Bool :=
  e.name.name = .ofString "lost+found" && e.stat.uid = 0

def quotaOrJournal (e : Entry) : Bool :=
  e.stat.type = .regular &&
    ((e.name.name = .ofString ".journal" && e.stat.uid = 0) ||
      e.name.name = .ofString "aquota.user" || e.name.name = .ofString "aquota.group")

def sparedFile (S : Setting) (cutoff : Nat) (mountpoint : Bool) (path : CString) (e : Entry) : Bool :=
  e.stat.sticky || (mountpoint && quotaOrJournal e) ||
    (e.stat.type = .socket && S.unixSocketAlive path) ||
    e.stat.type = .characterDevice || e.stat.type = .blockDevice ||
    cutoff ≤ fileAge e.stat

def cleanEntry (S : Setting) (cutoff rootdev : Nat) (p : CString) (mountpoint : Bool) (maxdepth : Nat)
    (e : Entry) (sub : Listing) (inside : Listing × Option Errno) : Option Listing × Option Errno :=
  let path := subPath p e.name
  match e.statError with
  | some error => (some sub, reported error)
  | none =>
    if spared S rootdev path e.stat then
      (some sub, none)
    else if e.stat.type = .directory then
      if mountpoint && lostAndFound e then
        (some sub, none)
      else if maxdepth = 0 then
        -- Reached max depth.
        if cutoff ≤ directoryAge e.stat then (some sub, none) else removeDirectory e sub none
      else
        match e.openError with
        | some error => (some sub, reported error)
        | none =>
          if cutoff ≤ directoryAge e.stat then inside.map some id
          else removeDirectory e inside.1 inside.2
    else if sparedFile S cutoff mountpoint path e then
      (some sub, none)
    else
      unlinkFile e sub

def dirCleanup (S : Setting) (cutoff rootdev : Nat) :
    CString -> Bool -> Nat -> Listing -> Listing × Option Errno
  | _, _, _, .nil => (.nil, none)
  | p, mountpoint, maxdepth, .entry e sub rest =>
    let inside := dirCleanup S cutoff rootdev (subPath p e.name) false (maxdepth - 1) sub
    let (left, r) := cleanEntry S cutoff rootdev p mountpoint maxdepth e sub inside
    let (others, later) := dirCleanup S cutoff rootdev p mountpoint maxdepth rest
    match left with
    | some sub => (.entry e sub others, later.or r)
    | none => (others, later.or r)

structure Directory where
  openError : Option Errno
  stat : Except Errno Stat
  parent : Except Errno Stat
  content : Listing

def maxDepth : Nat := 256

def isMountpoint (s ps : Stat) : Bool :=
  s.dev ≠ ps.dev || (s.dev = ps.dev && s.ino = ps.ino)

def cleanDirectory (S : Setting) (cutoff : Nat) (path : CString) (d : Directory) :
    Listing × Option Errno :=
  match d.openError, d.stat, d.parent with
  | some error, _, _ => (d.content, reported error)
  | none, .error error, _ => (d.content, some error)
  | none, .ok s, parent =>
    if s.type ≠ .directory then
      (d.content, some .enotdir)
    else
      match parent with
      | .error error => (d.content, some error)
      | .ok ps => dirCleanup S cutoff s.dev path (isMountpoint s ps) maxDepth d.content

def cleanItem (S : Setting) (n : Nat) (i : Item) (d : Directory) : Listing × Option Errno :=
  if i.type ≠ .createDirectory ∧ i.type ≠ .truncateDirectory ∧ i.type ≠ .ignorePath then
    (d.content, none)
  else
    match i.age with
    | none => (d.content, none)
    | some age =>
      if age = 0 ∨ n < age then
        (d.content, none)
      else
        cleanDirectory S (n - age) i.path d

def root : CString :=
  .ofString "/"

def entryPath (p : CString) : List FileName -> CString
  | [] => p
  | name :: below =>
    entryPath (if p = root then p.append name.name else subPath p name) below

def Above (names : List FileName) (content : Listing) (front : List FileName) (e : Entry) : Prop :=
  front ≠ [] ∧ front <+: names ∧ content.find front = some e

def Protected (S : Setting) (rootdev : Nat) (path : CString) (e : Entry) : Prop :=
  (∃ i ∈ S.config.items, i.path = path) ∨ (∃ j ∈ S.config.globs, S.fnmatch j.path path) ∨
    e.stat.dev ≠ rootdev ∨ (e.stat.uid = 0 ∧ e.stat.ownerMayWrite = false)

def InUse (S : Setting) (cutoff : Nat) (path : CString) (e : Entry) : Prop :=
  (cutoff ≤ e.stat.mtim ∨ cutoff ≤ e.stat.atim ∨ cutoff ≤ e.stat.ctim) ∨ e.stat.sticky = true ∨
    e.stat.type = .characterDevice ∨ e.stat.type = .blockDevice ∨
    (e.stat.type = .socket ∧ ∀ sockets, S.unixSockets = some sockets -> path ∈ sockets)

def Removed (before after : Listing) (names : List FileName) : Prop :=
  (before.find names).isSome ∧ after.find names = none

def Spares (S : Setting) (cutoff rootdev : Nat) (p : CString) (before after : Listing) : Prop :=
  ∀ names e, before.find names = some e -> Removed before after names ->
    (∀ front above, Above names before front above -> ¬Protected S rootdev (entryPath p front) above) ∧
      (e.stat.type ≠ .directory -> ¬InUse S cutoff (entryPath p names) e)

def Removes (S : Setting) (cutoff rootdev : Nat) (p : CString) (depth : Nat)
    (excused : List FileName -> Prop) (before after : Listing) : Prop :=
  ∀ names e, before.find names = some e -> names.length ≤ depth + 1 -> e.stat.type ≠ .directory ->
    (∀ front above, Above names before front above -> ¬Protected S rootdev (entryPath p front) above) ->
    ¬InUse S cutoff (entryPath p names) e -> ¬excused names -> Removed before after names

def setAside (e : Entry) : Bool :=
  (e.stat.type = .directory && lostAndFound e) || quotaOrJournal e

/-- A file that stays although no rule protects it: it is set aside at the root of a file system, or a
call on it or on a directory above it fails. -/
def Excused (mountpoint : Bool) (content : Listing) (names : List FileName) : Prop :=
  (mountpoint = true ∧
    ∃ front above, Above names content front above ∧ front.length = 1 ∧ setAside above = true) ∨
  ∃ front above, Above names content front above ∧
    (above.statError.isSome ∨ if front = names then above.unlinkError.isSome else above.openError.isSome)

structure Cleans (n : Nat) (i : Item) (d : Directory) (s ps : Stat) : Prop where
  type : i.type = .createDirectory ∨ i.type = .truncateDirectory ∨ i.type = .ignorePath
  aged : ∀ age, i.age = some age -> 0 < age ∧ age ≤ n
  opened : d.openError = none
  directory : s.type = .directory
  parent : d.parent = .ok ps

end Systemd.Tmpfiles
