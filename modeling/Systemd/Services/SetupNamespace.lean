import Systemd.Basic.PathNames
import Systemd.Shared.PrefixSort

set_option autoImplicit false

namespace Systemd.SetupNamespace

open List Option

inductive PathMode where
  | inaccessible
  | readonly
  | privateDirectory
  | readwrite
  deriving DecidableEq

-- The constants are ordered by priority.
def PathMode.priority : PathMode -> Nat
  | .inaccessible => 0
  | .readonly => 1
  | .privateDirectory => 2
  | .readwrite => 3

structure Path where
  path : CString
  mode : PathMode
  deriving DecidableEq

-- none stands for -EINVAL.
def appendPaths (mode : PathMode) : List CString -> List Path -> Option (List Path)
  | [], paths => some paths
  | path :: rest, paths =>
    if pathIsAbsolute path.bytes then
      appendPaths mode rest (paths ++ [{ path, mode }])
    else
      none

def tmpPath : Path where
  path := CString.ofString "/tmp"
  mode := .privateDirectory

def rootPath : Path where
  path := CString.ofString "/"
  mode := .readwrite

def namespacePaths (writable readable inaccessible : List CString) (privateTmp : Bool) :
    Option (List Path) := do
  let paths ← appendPaths .readwrite writable []
  let paths ← appendPaths .readonly readable paths
  let paths ← appendPaths .inaccessible inaccessible paths
  let paths := if privateTmp then paths ++ [tmpPath] else paths
  some (paths ++ [rootPath])

def pathCompare (p q : Path) : Int :=
  if pathEqual p.path.bytes q.path.bytes then
    if p.mode.priority < q.mode.priority then
      -1
    else if p.mode.priority > q.mode.priority then
      1
    else
      0
  else if pathStartswith p.path.bytes q.path.bytes then
    1
  else if pathStartswith q.path.bytes p.path.bytes then
    -1
  else
    0

structure Kept where
  paths : List Path
  previous : Option Path
  needInaccessible : Bool
  needPrivate : Bool

def Kept.push (kept : Kept) (f : Path) : Kept where
  paths := kept.paths ++ [f]
  previous := some f
  needInaccessible := kept.needInaccessible || f.mode = .inaccessible
  needPrivate := kept.needPrivate || f.mode = .privateDirectory

-- One round of the loop: the part of the array in front of t is what has been kept.
def keepUnlessEqual (kept : Kept) (f : Path) : Kept :=
  match kept.previous with
  | some previous => if pathEqual f.path.bytes previous.path.bytes then kept else kept.push f
  | none => kept.push f

def dropDuplicates (paths : List Path) : Kept :=
  paths.foldl keepUnlessEqual
    { paths := [], previous := none, needInaccessible := false, needPrivate := false }

/-- What every comparison sort leaves: the same paths, with no neighbours that compare the other way. -/
structure SortedBy (compare : Path -> Path -> Int) (paths sorted : List Path) : Prop where
  perm : sorted.Perm paths
  ordered : sorted.IsChain fun first second => compare first second ≤ 0

structure TotalPreorder (compare : Path -> Path -> Int) (paths : List Path) : Prop where
  mirrored : ∀ first ∈ paths, ∀ second ∈ paths, compare second first = -compare first second
  transitive : ∀ first ∈ paths, ∀ second ∈ paths, ∀ third ∈ paths,
    compare first second ≤ 0 -> compare second third ≤ 0 -> compare first third ≤ 0

structure MountOrder (paths kept : List Path) : Prop where
  once : ∀ path ∈ paths, kept.countP (fun other => pathEqual other.path.bytes path.path.bytes) = 1
  given : ∀ other ∈ kept, other ∈ paths
  restrictive : ∀ other ∈ kept, ∀ path ∈ paths, pathEqual path.path.bytes other.path.bytes ->
    other.mode.priority ≤ path.mode.priority
  parentsFirst : kept.Pairwise fun first second =>
    ¬(pathStartswith first.path.bytes second.path.bytes ∧ ¬pathEqual first.path.bytes second.path.bytes)

def Nested (first second : Path) : Prop :=
  pathStartswith second.path.bytes first.path.bytes ∨ pathStartswith first.path.bytes second.path.bytes

def Torn (paths : List Path) : Prop :=
  ∃ p q r rest, paths.Perm (p :: q :: r :: rest) ∧ Nested p r ∧ ¬Nested p q ∧ ¬Nested r q

section

abbrev key (path : Path) : List (List UInt8) :=
  components path.path.bytes

abbrev rank (path : Path) : Nat :=
  path.mode.priority

def Absolute (paths : List Path) : Prop :=
  ∀ path ∈ paths, pathIsAbsolute path.path.bytes = true

variable {paths sorted : List Path} {first second : Path}

theorem appendPaths_absolute {mode : PathMode} {more : List CString} {appended : List Path}
    (absolute : Absolute paths) (built : appendPaths mode more paths = some appended) :
    Absolute appended := by
  induction more generalizing paths with
  | nil =>
    obtain rfl : paths = appended := by simpa [appendPaths] using built
    exact absolute
  | cons path rest ih =>
    rw [appendPaths] at built
    by_cases here : pathIsAbsolute path.bytes = true
    · rw [if_pos here] at built
      refine ih ?_ built
      intro other mem
      rcases mem_append.mp mem with mem | mem
      · exact absolute other mem
      · rw [mem_singleton.mp mem]
        exact here
    · rw [if_neg here] at built
      cases built

theorem namespacePaths_absolute {writable readable inaccessible : List CString} {privateTmp : Bool}
    (built : namespacePaths writable readable inaccessible privateTmp = some paths) :
    Absolute paths := by
  simp only [namespacePaths, bind_eq_bind, bind_eq_some_iff, some.injEq] at built
  obtain ⟨front, first, middle, second, back, third, rfl⟩ := built
  have empty : Absolute [] := by simp [Absolute]
  have absolute := appendPaths_absolute (appendPaths_absolute (appendPaths_absolute empty first) second) third
  have tmp : pathIsAbsolute tmpPath.path.bytes = true := by decide
  have root : pathIsAbsolute rootPath.path.bytes = true := by decide
  intro path mem
  rcases mem_append.mp mem with mem | mem
  · cases privateTmp with
    | false => exact absolute path mem
    | true =>
      rcases mem_append.mp mem with mem | mem
      · exact absolute path mem
      · rw [mem_singleton.mp mem]
        exact tmp
  · rw [mem_singleton.mp mem]
    exact root

variable {paths : List Path} (absolute : Absolute paths)

include absolute

section

variable (memberFirst : first ∈ paths)
include memberFirst

section

variable (memberSecond : second ∈ paths)
include memberSecond

theorem equal_iff : pathEqual first.path.bytes second.path.bytes = true ↔ key first = key second :=
  pathEqual_iff ((absolute first memberFirst).trans (absolute second memberSecond).symm)

theorem startswith_iff :
    pathStartswith first.path.bytes second.path.bytes = true ↔ key second <+: key first :=
  pathStartswith_iff ((absolute first memberFirst).trans (absolute second memberSecond).symm)

theorem nested_iff : Nested first second ↔ PrefixSort.Related key first second := by
  rw [Nested, PrefixSort.Related, startswith_iff absolute memberSecond memberFirst,
    startswith_iff absolute memberFirst memberSecond]

theorem compare_positive : pathCompare first second ≤ 0 ↔ ¬PrefixSort.Before key rank second first := by
  have equal := equal_iff absolute memberFirst memberSecond
  have under := startswith_iff absolute memberFirst memberSecond
  have higher := startswith_iff absolute memberSecond memberFirst
  rw [pathCompare, PrefixSort.Before]
  by_cases same : key first = key second
  · rw [if_pos (equal.mpr same)]
    split_ifs <;> simp [same, rank] <;> omega
  · rw [if_neg (mt equal.mp same)]
    split_ifs with below above
    · simp [under.mp below, Ne.symm same]
    · simp [mt under.mpr below, Ne.symm same]
    · simp [mt under.mpr below, Ne.symm same]

theorem compare_mirrored : pathCompare second first = -pathCompare first second := by
  have equal := equal_iff absolute memberFirst memberSecond
  have mirrored := equal_iff absolute memberSecond memberFirst
  have under := startswith_iff absolute memberFirst memberSecond
  have higher := startswith_iff absolute memberSecond memberFirst
  rw [pathCompare, pathCompare]
  by_cases same : key first = key second
  · rw [if_pos (equal.mpr same), if_pos (mirrored.mpr same.symm)]
    split_ifs <;> omega
  · rw [if_neg (mt equal.mp same), if_neg (fun also => same (mirrored.mp also).symm)]
    split_ifs with above below
    · exact absurd ((higher.mp above).eq_of_length_le (under.mp below).length_le) same
    all_goals rfl

end

end

theorem torn_iff : Torn paths ↔ PrefixSort.Clash key paths := by
  constructor
  · rintro ⟨p, q, r, rest, perm, related, apartP, apartR⟩
    have mem (path : Path) (among : path ∈ p :: q :: r :: rest) : path ∈ paths := perm.mem_iff.mpr among
    rw [nested_iff absolute (mem p (by simp)) (mem r (by simp))] at related
    rw [nested_iff absolute (mem p (by simp)) (mem q (by simp))] at apartP
    rw [nested_iff absolute (mem r (by simp)) (mem q (by simp))] at apartR
    have front : [p, q, r].Subperm (p :: q :: r :: rest) := (prefix_append [p, q, r] rest).sublist.subperm
    exact PrefixSort.clash_of_subperm (front.trans perm.symm.subperm) related apartP apartR
  · rintro ⟨p, q, r, rest, perm, longer, apartP, apartR⟩
    have mem (path : Path) (among : path ∈ p :: q :: r :: rest) : path ∈ paths := perm.mem_iff.mpr among
    refine ⟨p, q, r, rest, perm, ?_, ?_, ?_⟩
    · exact (nested_iff absolute (mem p (by simp)) (mem r (by simp))).mpr (.inl longer)
    · rwa [nested_iff absolute (mem p (by simp)) (mem q (by simp))]
    · rwa [nested_iff absolute (mem r (by simp)) (mem q (by simp))]

theorem sortedBy_iff :
    SortedBy pathCompare paths sorted ↔ sorted.Perm paths ∧ PrefixSort.Ordered key rank sorted := by
  have compared (perm : sorted.Perm paths) :
      (sorted.IsChain fun first second => pathCompare first second ≤ 0) ↔ PrefixSort.Ordered key rank sorted := by
    apply List.IsChain.iff_of_mem_imp
    intro first second memberFirst memberSecond
    exact compare_positive absolute (perm.subset memberFirst) (perm.subset memberSecond)
  constructor
  · rintro ⟨perm, ordered⟩
    exact ⟨perm, (compared perm).mp ordered⟩
  · rintro ⟨perm, ordered⟩
    exact ⟨perm, (compared perm).mpr ordered⟩

theorem foldl_keep (front : List Path) {kept : Kept} {rest : List Path} {previous : Path}
    (last : kept.previous = some previous) (written : kept.paths = front ++ [previous]) (within : previous :: rest ⊆ paths) :
    (rest.foldl keepUnlessEqual kept).paths = front ++ PrefixSort.dropAfter key previous rest := by
  induction rest generalizing kept front previous with
  | nil => exact written
  | cons f rest ih =>
    have memberLast : previous ∈ paths := within (by simp)
    have memberNext : f ∈ paths := within (by simp)
    have equal := equal_iff absolute memberNext memberLast
    rw [foldl_cons]
    by_cases same : key previous = key f
    · have stays : keepUnlessEqual kept f = kept := by
        rw [keepUnlessEqual, last]
        exact if_pos (equal.mpr same.symm)
      rw [stays, PrefixSort.dropAfter_same same]
      exact ih front last written fun path mem => within (by grind)
    · have pushed : keepUnlessEqual kept f = kept.push f := by
        rw [keepUnlessEqual, last]
        exact if_neg fun also => same (equal.mp also).symm
      rw [pushed, PrefixSort.dropAfter_other same,
        ih (front ++ [previous]) rfl (by rw [Kept.push, written]) fun path mem =>
          within (mem_cons_of_mem _ mem)]
      simp

theorem dropDuplicates_paths (within : sorted ⊆ paths) :
    (dropDuplicates sorted).paths = PrefixSort.dropRepeats key sorted := by
  cases sorted with
  | nil => rfl
  | cons first rest => exact foldl_keep absolute [] rfl rfl within

theorem mountOrder_iff {kept : List Path} :
    MountOrder paths kept ↔ PrefixSort.Arranged key rank paths kept := by
  have counts (within : kept ⊆ paths) {path : Path} (mem : path ∈ paths) :
      kept.countP (fun other => pathEqual other.path.bytes path.path.bytes) = (kept.map key).count (key path) := by
    rw [List.count, countP_map]
    apply countP_congr
    intro other listed
    simpa using equal_iff absolute (within listed) mem
  constructor
  · intro order
    have found {path : Path} (mem : path ∈ paths) : (kept.map key).count (key path) = 1 :=
      (counts order.given mem).symm.trans (order.once path mem)
    constructor
    · apply nodup_iff_count_le_one.mpr
      intro names
      by_cases among : names ∈ kept.map key
      · obtain ⟨other, listed, rfl⟩ := mem_map.mp among
        exact (found (order.given other listed)).le
      · simp [count_eq_zero_of_not_mem among]
    · intro path mem
      have pos : 0 < (kept.map key).count (key path) := by rw [found mem]; exact Nat.one_pos
      exact mem_map.mp (count_pos_iff.mp pos)
    · exact order.given
    · intro other listed path mem same
      exact order.restrictive other listed path mem ((equal_iff absolute mem (order.given other listed)).mpr same)
    · apply order.parentsFirst.imp_of_mem
      intro first second listedFirst listedSecond late extension
      have memberFirst := order.given first listedFirst
      have memberSecond := order.given second listedSecond
      refine late ⟨(startswith_iff absolute memberFirst memberSecond).mpr extension.1, ?_⟩
      exact fun same => extension.2 ((equal_iff absolute memberFirst memberSecond).mp same).symm
  · intro arranged
    constructor
    · intro path mem
      rw [counts arranged.taken mem]
      obtain ⟨other, listed, same⟩ := arranged.covered path mem
      exact count_eq_one_of_mem arranged.distinct (same ▸ mem_map_of_mem listed)
    · exact arranged.taken
    · intro other listed path mem same
      exact arranged.lowest other listed path mem ((equal_iff absolute mem (arranged.taken other listed)).mp same)
    · apply arranged.parents.imp_of_mem
      rintro first second listedFirst listedSecond late ⟨extension, ne⟩
      have memberFirst := arranged.taken first listedFirst
      have memberSecond := arranged.taken second listedSecond
      refine late ⟨(startswith_iff absolute memberFirst memberSecond).mp extension, fun same => ne ?_⟩
      exact (equal_iff absolute memberFirst memberSecond).mpr same.symm

theorem totalPreorder_of_clear (clear : ¬Torn paths) : TotalPreorder pathCompare paths where
  mirrored first memberFirst second memberSecond := compare_mirrored absolute memberFirst memberSecond
  transitive first memberFirst second memberSecond third memberThird := by
    rw [compare_positive absolute memberFirst memberSecond, compare_positive absolute memberSecond memberThird,
      compare_positive absolute memberFirst memberThird]
    exact PrefixSort.not_before_trans (mt (torn_iff absolute).mpr clear) memberFirst memberSecond memberThird

end

/-- A sort puts the paths in an order in which they can be mounted exactly when no path is unrelated to two
that are nested or equal. -/
theorem sorted_for_mounting {writable readable inaccessible : List CString} {privateTmp : Bool}
    {paths : List Path} (built : namespacePaths writable readable inaccessible privateTmp = some paths) :
    (TotalPreorder pathCompare paths ∧
      ∀ sorted, SortedBy pathCompare paths sorted -> MountOrder paths (dropDuplicates sorted).paths) ↔
      ¬Torn paths := by
  have absolute := namespacePaths_absolute built
  have arranged : (∀ sorted, SortedBy pathCompare paths sorted -> MountOrder paths (dropDuplicates sorted).paths) ↔
      ¬Torn paths := by
    rw [torn_iff absolute, ← PrefixSort.arranged_iff key rank paths]
    apply forall_congr'
    intro sorted
    rw [sortedBy_iff absolute, and_imp]
    apply imp_congr_right
    intro perm
    rw [dropDuplicates_paths absolute perm.subset, mountOrder_iff absolute]
  exact ⟨fun both => arranged.mp both.2, fun clear => ⟨totalPreorder_of_clear absolute clear, arranged.mpr clear⟩⟩

theorem sorted_for_mounting_home :
    (TotalPreorder pathCompare [⟨CString.ofString "/home", .readonly⟩, rootPath] ∧
      ∀ sorted, SortedBy pathCompare [⟨CString.ofString "/home", .readonly⟩, rootPath] sorted ->
        MountOrder [⟨CString.ofString "/home", .readonly⟩, rootPath] (dropDuplicates sorted).paths) ↔
      ¬Torn [⟨CString.ofString "/home", .readonly⟩, rootPath] :=
  sorted_for_mounting (show namespacePaths [] [CString.ofString "/home"] [] false = some _ from rfl)

def writablePart : Path := ⟨CString.ofString "/a/x", .readwrite⟩

def otherPath : Path := ⟨CString.ofString "/b", .readwrite⟩

def thirdPath : Path := ⟨CString.ofString "/c", .readwrite⟩

def readonlyWhole : Path := ⟨CString.ofString "/a", .readonly⟩

theorem mounted_over :
    ∃ paths sorted,
      namespacePaths [writablePart.path, otherPath.path, thirdPath.path] [readonlyWhole.path] [] false = some paths ∧
        SortedBy pathCompare paths sorted ∧ ¬TotalPreorder pathCompare paths ∧
          ¬MountOrder paths (dropDuplicates sorted).paths := by
  refine ⟨[writablePart, otherPath, thirdPath, readonlyWhole, rootPath],
    [rootPath, writablePart, otherPath, thirdPath, readonlyWhole], rfl, ⟨?_, by decide⟩, ?_, ?_⟩
  · exact @perm_append_comm _ [rootPath] [writablePart, otherPath, thirdPath, readonlyWhole]
  · intro preorder
    have unrelated := preorder.transitive writablePart (by simp) otherPath (by simp) readonlyWhole (by simp)
    exact absurd (unrelated (by decide) (by decide)) (by decide)
  · intro order
    have kept : (dropDuplicates [rootPath, writablePart, otherPath, thirdPath, readonlyWhole]).paths =
        [rootPath, writablePart, otherPath, thirdPath, readonlyWhole] := by decide
    have parents := order.parentsFirst
    rw [kept] at parents
    revert parents
    decide

end Systemd.SetupNamespace
