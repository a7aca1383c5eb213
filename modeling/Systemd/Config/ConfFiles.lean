import Mathlib.Data.List.Dedup
import Mathlib.Data.List.Induction
import Mathlib.Data.List.Sort
import Systemd.Basic.PathNames

set_option autoImplicit false

namespace Systemd.ConfFiles

open List Option

inductive FileType where
  | regular
  | link
  | unknown
  | other
  deriving DecidableEq

inductive Errno where
  | enoent
  | einval
  | other
  deriving DecidableEq

structure Dirent where
  name : List UInt8
  type : FileType
  deriving DecidableEq

structure Directory where
  entries : List Dirent
  readError : Option Errno := none

structure FileSystem where
  currentDirName : List UInt8
  canonicalizeFileName : List UInt8 -> Option (List UInt8)
  opendir : List UInt8 -> Except Errno Directory

def ascii (text : String) : List UInt8 :=
  text.toList.map Char.toUInt8

def endswith (s ending : List UInt8) : Bool :=
  if ending.length = 0 then
    true
  else if s.length < ending.length then
    false
  else
    s.drop (s.length - ending.length) == ending

def ignoreFile (filename : List UInt8) : Bool :=
  filename.head? == some '.'.toUInt8 ||
    filename == ascii "lost+found" ||
    filename == ascii "aquota.user" ||
    filename == ascii "aquota.group" ||
    endswith filename (ascii "~") ||
    endswith filename (ascii ".rpmnew") ||
    endswith filename (ascii ".rpmsave") ||
    endswith filename (ascii ".rpmorig") ||
    endswith filename (ascii ".dpkg-old") ||
    endswith filename (ascii ".dpkg-new") ||
    endswith filename (ascii ".swp")

def fileNameFromPath (p : List UInt8) : List UInt8 :=
  (p.reverse.takeWhile fun byte => byte != '/'.toUInt8).reverse

def fileIsConf (d : Dirent) (suffix : List UInt8) : Bool :=
  if ignoreFile d.name then
    false
  else if d.type ≠ .regular ∧ d.type ≠ .link ∧ d.type ≠ .unknown then
    false
  else
    endswith d.name suffix

abbrev Files := List (List UInt8 × List UInt8)

def hashmapPut (h : Files) (key value : List UInt8) : Files :=
  if h.any fun entry => entry.1 == key then h else h ++ [(key, value)]

def addEntry (fs : FileSystem) (suffix path : List UInt8) (h : Files) (de : Dirent) : Files :=
  if fileIsConf de suffix then
    match fs.canonicalizeFileName (path ++ slash ++ de.name) with
    | none => h
    | some f => hashmapPut h (fileNameFromPath f) f
  else
    h

def filesAdd (fs : FileSystem) (suffix : List UInt8) (h : Files) (path : List UInt8) : Except Errno Files :=
  match fs.opendir path with
  | .error .enoent => .ok h
  | .error errno => .error errno
  | .ok dir =>
    let h := dir.entries.foldl (addEntry fs suffix path) h
    match dir.readError with
    | none => .ok h
    | some errno => .error errno

def pathMakeAbsoluteCwd (fs : FileSystem) (p : List UInt8) : List UInt8 :=
  if pathIsAbsolute p then p else fs.currentDirName ++ slash ++ p

def canonicalDir (fs : FileSystem) (dir : List UInt8) : Option (List UInt8) :=
  fs.canonicalizeFileName (pathMakeAbsoluteCwd fs dir)

def strvPathCanonicalize (fs : FileSystem) (l : List (List UInt8)) : List (List UInt8) :=
  l.filterMap (canonicalDir fs)

-- It does not matter that the source removes the duplicates of a string before those of the later ones.
def strvUniq : List (List UInt8) -> List (List UInt8)
  | [] => []
  | s :: rest => s :: (strvUniq rest).filter fun other => other != s

def baseCmp (a b : List UInt8) : Prop :=
  fileNameFromPath a ≤ fileNameFromPath b

instance : DecidableRel baseCmp := fun a b =>
  inferInstanceAs (Decidable (fileNameFromPath a ≤ fileNameFromPath b))

def confFilesList (fs : FileSystem) (suffix : List UInt8) (dirs : List (List UInt8)) :
    Except Errno (List (List UInt8)) :=
  match (strvUniq (strvPathCanonicalize fs dirs)).foldlM (filesAdd fs suffix) [] with
  | .error _ => .error .einval
  | .ok fh => .ok ((fh.map fun entry => entry.2).insertionSort baseCmp)

def holds (fs : FileSystem) (dir name : List UInt8) : Bool :=
  match (canonicalDir fs dir).map fs.opendir with
  | some (.ok listing) => listing.entries.any fun de => de.name == name
  | _ => false

def Occurs (fs : FileSystem) (suffix : List UInt8) (dirs : List (List UInt8)) (name : List UInt8) : Prop :=
  endswith name suffix = true ∧ ∃ dir ∈ dirs, holds fs dir name = true

def pathOf (fs : FileSystem) (dirs : List (List UInt8)) (name : List UInt8) : Option (List UInt8) :=
  (dirs.find? fun dir => holds fs dir name).bind fun dir =>
    (canonicalDir fs dir).bind fun path => fs.canonicalizeFileName (path ++ slash ++ name)

def Overrides (fs : FileSystem) (suffix : List UInt8) (dirs files : List (List UInt8)) : Prop :=
  ∃ names : List (List UInt8), names.Pairwise (· < ·) ∧ (∀ name, name ∈ names ↔ Occurs fs suffix dirs name) ∧
    names.map (pathOf fs dirs) = files.map some

def confPaths (fs : FileSystem) (suffix path : List UInt8) : List (List UInt8) :=
  match fs.opendir path with
  | .error _ => []
  | .ok listing => listing.entries.filterMap fun de =>
    if fileIsConf de suffix then fs.canonicalizeFileName (path ++ slash ++ de.name) else none

def scanned (fs : FileSystem) (suffix : List UInt8) (dirs : List (List UInt8)) : List (List UInt8) :=
  (strvUniq (strvPathCanonicalize fs dirs)).flatMap (confPaths fs suffix)

def Readable (fs : FileSystem) (path : List UInt8) : Prop :=
  match fs.opendir path with
  | .error errno => errno = .enoent
  | .ok listing => listing.readError = none

/-- No link makes a file be taken under a name other than that of its entry, as far as it matters. -/
structure Undistorted (fs : FileSystem) (suffix : List UInt8) (dirs : List (List UInt8)) : Prop where
  readable : ∀ path ∈ strvPathCanonicalize fs dirs, Readable fs path
  resolves : ∀ name, Occurs fs suffix dirs name -> ∃ f, pathOf fs dirs name = some f
  ordered : ∀ name name' f f', Occurs fs suffix dirs name -> Occurs fs suffix dirs name' -> name < name' ->
    pathOf fs dirs name = some f -> pathOf fs dirs name' = some f' -> fileNameFromPath f < fileNameFromPath f'
  named : ∀ f ∈ scanned fs suffix dirs, ∃ name f', Occurs fs suffix dirs name ∧
    pathOf fs dirs name = some f' ∧ fileNameFromPath f' = fileNameFromPath f
  first : ∀ name f, Occurs fs suffix dirs name -> pathOf fs dirs name = some f ->
    (scanned fs suffix dirs).find? (fun other => fileNameFromPath other == fileNameFromPath f) = some f

def collect (paths : List (List UInt8)) : Files :=
  paths.foldl (fun h f => hashmapPut h (fileNameFromPath f) f) []

structure Collected (paths : List (List UInt8)) (h : Files) : Prop where
  keyed : ∀ entry ∈ h, entry.1 = fileNameFromPath entry.2
  distinct : (h.map fun entry => entry.1).Nodup
  firsts : ∀ f, f ∈ (h.map fun entry => entry.2) ↔
    paths.find? (fun other => fileNameFromPath other == fileNameFromPath f) = some f

variable {paths : List (List UInt8)}

theorem Collected.known {h : Files} (collected : Collected paths h) {f g : List UInt8}
    (found : paths.find? (fun other => fileNameFromPath other == fileNameFromPath f) = some g) :
    ∃ entry ∈ h, entry.1 = fileNameFromPath f ∧ entry.2 = g := by
  have same : fileNameFromPath g = fileNameFromPath f := by simpa using find?_some found
  have mem : g ∈ h.map fun entry => entry.2 := (collected.firsts g).mpr (by rwa [same])
  obtain ⟨entry, inside, value⟩ := mem_map.mp mem
  exact ⟨entry, inside, by rw [collected.keyed entry inside, value, same], value⟩

theorem Collected.put {h : Files} (collected : Collected paths h) (f : List UInt8) :
    Collected (paths ++ [f]) (hashmapPut h (fileNameFromPath f) f) := by
  rw [hashmapPut]
  split
  next known =>
    obtain ⟨entry, inside, key⟩ := any_eq_true.mp known
    have key : entry.1 = fileNameFromPath f := by simpa using key
    have first := (collected.firsts entry.2).mp (mem_map_of_mem inside)
    rw [← collected.keyed entry inside, key] at first
    refine ⟨collected.keyed, collected.distinct, fun g => ?_⟩
    rw [collected.firsts, find?_append]
    by_cases same : fileNameFromPath f = fileNameFromPath g
    next => rw [← same, first, some_or]
    next => simp [same]
  next unknown =>
    have absent (g : List UInt8) (same : fileNameFromPath f = fileNameFromPath g) :
        paths.find? (fun other => fileNameFromPath other == fileNameFromPath g) = none := by
      cases found : paths.find? fun other => fileNameFromPath other == fileNameFromPath g with
      | none => rfl
      | some first =>
        obtain ⟨entry, inside, key, -⟩ := collected.known found
        exact absurd (any_eq_true.mpr ⟨entry, inside, by simp [key, same]⟩) unknown
    constructor
    next =>
      intro entry mem
      rcases mem_append.mp mem with old | new
      next => exact collected.keyed entry old
      next => rw [mem_singleton.mp new]
    next =>
      rw [map_append, nodup_append]
      refine ⟨collected.distinct, nodup_singleton _, fun key old other new => ?_⟩
      obtain ⟨entry, inside, rfl⟩ := mem_map.mp old
      rw [map_singleton, mem_singleton] at new
      rintro same
      exact unknown (any_eq_true.mpr ⟨entry, inside, by simp [same, new]⟩)
    next =>
      intro g
      rw [map_append, mem_append, collected.firsts, find?_append, map_singleton,
        mem_singleton]
      by_cases same : fileNameFromPath f = fileNameFromPath g
      next => simp [absent g same, same, eq_comm]
      next =>
        have ne : g ≠ f := fun equal => same (equal ▸ rfl)
        simp [same, ne]

theorem collected (paths : List (List UInt8)) : Collected paths (collect paths) := by
  induction paths using List.reverseRecOn with
  | nil => exact ⟨by simp [collect], by simp [collect], by simp [collect]⟩
  | append_singleton paths f ih =>
    have last : collect (paths ++ [f]) = hashmapPut (collect paths) (fileNameFromPath f) f := by
      simp [collect]
    exact last ▸ ih.put f

variable (fs : FileSystem) (suffix : List UInt8) (dirs : List (List UInt8))

theorem addEntries_eq (path : List UInt8) (entries : List Dirent) (h : Files) :
    entries.foldl (addEntry fs suffix path) h =
      (entries.filterMap fun de =>
        if fileIsConf de suffix then fs.canonicalizeFileName (path ++ slash ++ de.name) else none).foldl
        (fun h f => hashmapPut h (fileNameFromPath f) f) h := by
  induction entries generalizing h with
  | nil => rfl
  | cons de rest ih =>
    rw [foldl_cons, ih, filterMap_cons, addEntry]
    split
    next => cases fs.canonicalizeFileName (path ++ slash ++ de.name) <;> rfl
    next => rfl

theorem filesAdd_eq (path : List UInt8) (h : Files) :
    Readable fs path ∧ filesAdd fs suffix h path =
        .ok ((confPaths fs suffix path).foldl (fun h f => hashmapPut h (fileNameFromPath f) f) h) ∨
      ¬Readable fs path ∧ ∃ errno, filesAdd fs suffix h path = .error errno := by
  unfold filesAdd Readable confPaths
  cases fs.opendir path with
  | error errno => cases errno <;> simp
  | ok listing =>
    simp only [addEntries_eq]
    cases listing.readError <;> simp

theorem filesAddAll_eq (paths : List (List UInt8)) (h : Files) :
    (∀ path ∈ paths, Readable fs path) ∧ paths.foldlM (filesAdd fs suffix) h =
        .ok ((paths.flatMap (confPaths fs suffix)).foldl (fun h f => hashmapPut h (fileNameFromPath f) f) h) ∨
      (¬∀ path ∈ paths, Readable fs path) ∧ ∃ errno, paths.foldlM (filesAdd fs suffix) h = .error errno := by
  induction paths generalizing h with
  | nil => exact .inl ⟨by simp, rfl⟩
  | cons path rest ih =>
    rcases filesAdd_eq fs suffix path h with ⟨readable, added⟩ | ⟨unreadable, errno, failed⟩
    next =>
      rw [foldlM_cons, added, flatMap_cons, foldl_append]
      simpa [bind, Except.bind, readable] using ih _
    next =>
      rw [foldlM_cons, failed]
      exact .inr ⟨fun all => unreadable (all path mem_cons_self), errno, rfl⟩

instance : Std.Total baseCmp :=
  ⟨fun a b => List.le_total (fileNameFromPath a) (fileNameFromPath b)⟩

instance : IsTrans (List UInt8) baseCmp :=
  ⟨fun _ _ _ first second => List.le_trans first second⟩

theorem below_of_le {a b : List UInt8} (below : a ≤ b) (ne : a ≠ b) : a < b := by
  by_contra notBelow
  exact ne (List.le_antisymm below (List.not_lt.mp notBelow))

theorem mem_strvUniq (l : List (List UInt8)) (s : List UInt8) : s ∈ strvUniq l ↔ s ∈ l := by
  induction l with
  | nil => rfl
  | cons first rest ih =>
    by_cases same : s = first <;> simp [strvUniq, same, ih]

theorem confFilesList_eq :
    (∀ path ∈ strvPathCanonicalize fs dirs, Readable fs path) ∧
        (∃ files, confFilesList fs suffix dirs = .ok files ∧
          files.Pairwise (fun f g => fileNameFromPath f < fileNameFromPath g) ∧
          ∀ f, f ∈ files ↔ (scanned fs suffix dirs).find?
            (fun other => fileNameFromPath other == fileNameFromPath f) = some f) ∨
      (¬∀ path ∈ strvPathCanonicalize fs dirs, Readable fs path) ∧
        ∃ errno, confFilesList fs suffix dirs = .error errno := by
  have outcome := filesAddAll_eq fs suffix (strvUniq (strvPathCanonicalize fs dirs)) []
  simp only [mem_strvUniq] at outcome
  rw [confFilesList]
  rcases outcome with ⟨readable, added⟩ | ⟨unreadable, errno, failed⟩
  next =>
    have first : Collected (scanned fs suffix dirs) (collect (scanned fs suffix dirs)) := collected _
    rw [added]
    refine .inl ⟨readable, _, rfl, ?_, fun f => ?_⟩
    next =>
      have sorted := pairwise_insertionSort baseCmp
        ((collect (scanned fs suffix dirs)).map fun entry => entry.2)
      have names : ((collect (scanned fs suffix dirs)).map fun entry => entry.2).Pairwise
          fun f g => fileNameFromPath f ≠ fileNameFromPath g := by
        rw [pairwise_map]
        refine (pairwise_map.mp first.distinct).imp_of_mem fun {a b} inA inB ne => ?_
        rwa [← first.keyed a inA, ← first.keyed b inB]
      have distinct := (perm_insertionSort baseCmp _).symm.pairwise names fun ne => ne.symm
      exact (sorted.and distinct).imp fun ⟨below, ne⟩ => below_of_le below ne
    next =>
      rw [(perm_insertionSort _ _).mem_iff]
      exact first.firsts f
  next =>
    rw [failed]
    exact .inr ⟨unreadable, .einval, rfl⟩

theorem names_exist :
    ∃ names : List (List UInt8), names.Pairwise (· < ·) ∧ ∀ name, name ∈ names ↔ Occurs fs suffix dirs name := by
  let listed (dir : List UInt8) : List (List UInt8) :=
    match (canonicalDir fs dir).map fs.opendir with
    | some (.ok listing) => listing.entries.map fun de => de.name
    | _ => []
  have mem_listed (dir name : List UInt8) : name ∈ listed dir ↔ holds fs dir name = true := by
    simp only [listed, holds]
    split <;> simp
  let all := ((dirs.flatMap listed).filter fun name => endswith name suffix).dedup
  have sorted := pairwise_insertionSort (· ≤ ·) all
  have distinct := (perm_insertionSort (· ≤ ·) all).symm.pairwise (nodup_dedup _) fun ne => ne.symm
  refine ⟨all.insertionSort (· ≤ ·), (sorted.and distinct).imp fun both => below_of_le both.1 both.2, fun name => ?_⟩
  rw [(perm_insertionSort _ _).mem_iff]
  simp [all, mem_listed, Occurs, and_comm]

instance : Std.Antisymm fun f g : List UInt8 => fileNameFromPath f < fileNameFromPath g :=
  ⟨fun _ _ first second => absurd (List.lt_trans first second) (List.lt_irrefl _)⟩

instance : Std.Irrefl fun f g : List UInt8 => fileNameFromPath f < fileNameFromPath g :=
  ⟨fun _ => List.lt_irrefl _⟩

section

variable {fs : FileSystem} {suffix : List UInt8} {dirs files : List (List UInt8)}

theorem Overrides.undistorted (readable : ∀ path ∈ strvPathCanonicalize fs dirs, Readable fs path)
    (sorted : files.Pairwise fun f g => fileNameFromPath f < fileNameFromPath g) (firsts : ∀ f, f ∈
      files ↔ (scanned fs suffix dirs).find? (fun other => fileNameFromPath other == fileNameFromPath f)
      = some f) (overrides : Overrides fs suffix dirs files) : Undistorted fs suffix dirs := by
  obtain ⟨names, ascending, all, paths⟩ := overrides
  have inFiles {name f : List UInt8} (occurs : Occurs fs suffix dirs name) (path : pathOf fs dirs name = some f) :
      f ∈ files := by
    have mem : some f ∈ files.map some := by
      rw [← paths, ← path]
      exact mem_map_of_mem ((all name).mpr occurs)
    simpa using mem
  constructor
  next => exact readable
  next =>
    intro name occurs
    have mem : pathOf fs dirs name ∈ files.map some := by
      rw [← paths]
      exact mem_map_of_mem ((all name).mpr occurs)
    obtain ⟨f, -, path⟩ := mem_map.mp mem
    exact ⟨f, path.symm⟩
  next =>
    intro name name' f f' occurs occurs' below path path'
    have pairs : names.Pairwise fun n n' => ∀ g g', pathOf fs dirs n = some g -> pathOf fs dirs n' = some g' ->
        fileNameFromPath g < fileNameFromPath g' := by
      have mapped : (files.map some).Pairwise fun a b => ∀ g g', a = some g -> b = some g' ->
          fileNameFromPath g < fileNameFromPath g' := by
        refine pairwise_map.mpr (sorted.imp fun {a b} before g g' same same' => ?_)
        rwa [← some.inj same, ← some.inj same']
      rw [← paths] at mapped
      exact pairwise_map.mp mapped
    obtain ⟨i, inI, rfl⟩ := mem_iff_getElem.mp ((all name).mpr occurs)
    obtain ⟨j, inJ, rfl⟩ := mem_iff_getElem.mp ((all name').mpr occurs')
    rcases Nat.lt_trichotomy i j with before | rfl | behind
    next => exact pairwise_iff_getElem.mp pairs i j inI inJ before f f' path path'
    next => exact absurd below (List.lt_irrefl _)
    next =>
      have above := pairwise_iff_getElem.mp ascending j i inJ inI behind
      exact absurd (List.lt_trans below above) (List.lt_irrefl _)
  next =>
    intro f mem
    cases found : (scanned fs suffix dirs).find? fun other => fileNameFromPath other == fileNameFromPath f with
    | none => simpa using find?_eq_none.mp found f mem
    | some g =>
      have same : fileNameFromPath g = fileNameFromPath f := by simpa using find?_some found
      have inside : some g ∈ names.map (pathOf fs dirs) := by
        rw [paths]
        exact mem_map_of_mem ((firsts g).mpr (by rwa [same]))
      obtain ⟨name, listed, path⟩ := mem_map.mp inside
      exact ⟨name, g, (all name).mp listed, path, same⟩
  next => exact fun name f occurs path => (firsts f).mp (inFiles occurs path)

theorem Undistorted.overrides (undistorted : Undistorted fs suffix dirs)
    (sorted : files.Pairwise fun f g => fileNameFromPath f < fileNameFromPath g) (firsts : ∀ f, f ∈
      files ↔ (scanned fs suffix dirs).find? (fun other => fileNameFromPath other == fileNameFromPath f)
      = some f) : Overrides fs suffix dirs files := by
  obtain ⟨names, ascending, all⟩ := names_exist fs suffix dirs
  let path (name : List UInt8) : List UInt8 := (pathOf fs dirs name).getD []
  have path_eq (name : List UInt8) (listed : name ∈ names) : pathOf fs dirs name = some (path name) := by
    obtain ⟨f, found⟩ := undistorted.resolves name ((all name).mp listed)
    simp [path, found]
  have ordered : (names.map path).Pairwise fun f g => fileNameFromPath f < fileNameFromPath g := by
    rw [pairwise_map]
    refine ascending.imp_of_mem fun {name name'} listed listed' below => ?_
    exact undistorted.ordered name name' _ _ ((all name).mp listed) ((all name').mp listed') below
      (path_eq name listed) (path_eq name' listed')
  have same : names.map path = files := by
    refine ordered.eq_of_mem_iff sorted fun f => ?_
    rw [firsts]
    constructor
    next =>
      intro mem
      obtain ⟨name, listed, rfl⟩ := mem_map.mp mem
      exact undistorted.first name _ ((all name).mp listed) (path_eq name listed)
    next =>
      intro found
      obtain ⟨name, f', occurs, path', key⟩ := undistorted.named f (mem_of_find?_eq_some found)
      have first := undistorted.first name f' occurs path'
      rw [key, found] at first
      obtain rfl := some.inj first
      exact mem_map.mpr ⟨name, (all name).mpr occurs, by simp [path, path']⟩
  refine ⟨names, ascending, all, ?_⟩
  rw [← same, List.map_map]
  exact List.map_congr_left path_eq

end

/-- Every name that occurs has the right path, if and only if no link distorts the names. -/
theorem conf_files_override :
    (∃ files, confFilesList fs suffix dirs = .ok files ∧ Overrides fs suffix dirs files) ↔
      Undistorted fs suffix dirs := by
  rcases confFilesList_eq fs suffix dirs with ⟨readable, files, listed, sorted, firsts⟩ | ⟨unreadable, errno, failed⟩
  next =>
    rw [listed]
    constructor
    next =>
      rintro ⟨files', same, overrides⟩
      obtain rfl : files = files' := Except.ok.inj same
      exact overrides.undistorted readable sorted firsts
    next => exact fun undistorted => ⟨files, rfl, undistorted.overrides sorted firsts⟩
  next =>
    rw [failed]
    constructor
    next => rintro ⟨_, ⟨⟩, _⟩
    next => exact fun undistorted => absurd undistorted.readable unreadable

def masking : FileSystem where
  currentDirName := slash
  canonicalizeFileName path := if path = ascii "/etc/x.d/a.conf" then some (ascii "/dev/null") else some path
  opendir path :=
    if path = ascii "/etc/x.d" then
      .ok { entries := [{ name := ascii "a.conf", type := .link }] }
    else if path = ascii "/lib/x.d" then
      .ok { entries := [{ name := ascii "a.conf", type := .regular }] }
    else
      .error .enoent

def maskingDirs : List (List UInt8) :=
  [ascii "/etc/x.d", ascii "/lib/x.d"]

/-- The link is listed under the name of what it points to, and the masked file beside it. -/
theorem link_to_null_masks_nothing :
    ¬∃ files, confFilesList masking (ascii ".conf") maskingDirs = .ok files ∧
      Overrides masking (ascii ".conf") maskingDirs files := by
  rintro ⟨files, listed, names, -, all, paths⟩
  have given : (confFilesList masking (ascii ".conf") maskingDirs).toOption =
      some [ascii "/lib/x.d/a.conf", ascii "/dev/null"] := by decide
  rw [listed] at given
  have mem : some (ascii "/lib/x.d/a.conf") ∈ names.map (pathOf masking maskingDirs) := by
    rw [paths, some.inj given]
    exact mem_cons_self
  obtain ⟨name, inNames, path⟩ := mem_map.mp mem
  obtain ⟨-, dir, inDirs, has⟩ := (all name).mp inNames
  have only : name = ascii "a.conf" := by
    have etc : canonicalDir masking (ascii "/etc/x.d") = some (ascii "/etc/x.d") := by decide
    have lib : canonicalDir masking (ascii "/lib/x.d") = some (ascii "/lib/x.d") := by decide
    have apart : ascii "/lib/x.d" ≠ ascii "/etc/x.d" := by decide
    have either : dir = ascii "/etc/x.d" ∨ dir = ascii "/lib/x.d" := by simpa [maskingDirs] using inDirs
    rcases either with rfl | rfl
    next =>
      have opened : masking.opendir (ascii "/etc/x.d") = .ok { entries := [⟨ascii "a.conf", .link⟩] } := by
        simp only [masking, if_true]
      rw [holds, etc, map_some, opened] at has
      have same : (ascii "a.conf" == name) = true := by simpa only [any_cons, any_nil, Bool.or_false] using has
      exact (eq_of_beq same).symm
    next =>
      have opened : masking.opendir (ascii "/lib/x.d") = .ok { entries := [⟨ascii "a.conf", .regular⟩] } := by
        simp only [masking, if_neg apart, if_true]
      rw [holds, lib, map_some, opened] at has
      have same : (ascii "a.conf" == name) = true := by simpa only [any_cons, any_nil, Bool.or_false] using has
      exact (eq_of_beq same).symm
  have masked : pathOf masking maskingDirs (ascii "a.conf") = some (ascii "/dev/null") := by decide
  rw [only, masked] at path
  revert path
  decide

end Systemd.ConfFiles
