import Systemd.Basic.PathNames
import Systemd.Units.Path

set_option autoImplicit false

namespace Systemd.Install

open List Option

abbrev Name := List UInt8

abbrev Path := List Name

inductive Node where
  | file (contents : List UInt8)
  | dir
  | link (target : List UInt8)
  deriving DecidableEq

structure IsName (name : Name) : Prop where
  nonempty : name ≠ []
  noSlash : '/'.toUInt8 ∉ name
  notDot : name ≠ dot
  notDotDot : name ≠ dotDot

instance (name : Name) : Decidable (IsName name) :=
  decidable_of_iff (name ≠ [] ∧ '/'.toUInt8 ∉ name ∧ name ≠ dot ∧ name ≠ dotDot)
    ⟨fun ⟨a, b, c, d⟩ => ⟨a, b, c, d⟩, fun ⟨a, b, c, d⟩ => ⟨a, b, c, d⟩⟩

def lookupIn (entries : List (Path × Node)) (p : Path) : Option Node :=
  if p = [] then some .dir else (entries.find? fun e => e.1 = p).map (·.2)

structure Tree where
  entries : List (Path × Node)
  names : ∀ e ∈ entries, e.1 ≠ [] ∧ ∀ name ∈ e.1, IsName name
  parents : ∀ e ∈ entries, lookupIn entries e.1.dropLast = some .dir

namespace Tree

def lookup (t : Tree) (p : Path) : Option Node := lookupIn t.entries p

def listing (t : Tree) (dir : Path) : List Name :=
  (t.entries.filter fun e => e.1.dropLast = dir).filterMap (·.1.getLast?)

section

variable {t : Tree} {p q : Path} {name : Name} {node : Node}

theorem lookupIn_mem {entries : List (Path × Node)} (nonempty : p ≠ [])
    (here : lookupIn entries p = some node) : (p, node) ∈ entries := by
  rw [lookupIn, if_neg nonempty, map_eq_some_iff] at here
  obtain ⟨⟨q, node'⟩, found, rfl⟩ := here
  obtain rfl : q = p := by simpa using find?_some found
  exact mem_of_find?_eq_some found

theorem lookup_isSome_of_mem {e : Path × Node} (mem : e ∈ t.entries) :
    (t.lookup e.1).isSome = true := by
  rw [lookup, lookupIn, if_neg (t.names e mem).1, isSome_map, find?_isSome]
  exact ⟨e, mem, by simp⟩

theorem parent_dir (here : (t.lookup (p ++ [name])).isSome = true) : t.lookup p = some .dir := by
  obtain ⟨node, here⟩ := isSome_iff_exists.mp here
  have parent := t.parents _ (lookupIn_mem (by simp) here)
  rwa [dropLast_concat] at parent

theorem name_of_lookup (here : (t.lookup (p ++ [name])).isSome = true) : IsName name := by
  obtain ⟨node, here⟩ := isSome_iff_exists.mp here
  exact (t.names _ (lookupIn_mem (by simp) here)).2 name (by simp)

theorem dir_of_below (below : q ≠ []) (here : (t.lookup (p ++ q)).isSome = true) :
    t.lookup p = some .dir := by
  induction q using List.reverseRecOn with
  | nil => exact absurd rfl below
  | append_singleton q name ih =>
    rw [← append_assoc] at here
    have parent := parent_dir here
    by_cases empty : q = []
    · simpa [empty] using parent
    · exact ih empty (by rw [parent]; rfl)

theorem mem_listing : name ∈ t.listing p ↔ (t.lookup (p ++ [name])).isSome = true := by
  rw [listing, mem_filterMap]
  constructor
  · rintro ⟨e, mem, last⟩
    obtain ⟨mem, parent⟩ := mem_filter.mp mem
    have whole : e.1 = p ++ [name] := by
      rw [← of_decide_eq_true parent]
      exact (dropLast_append_getLast? name last).symm
    rw [← whole]
    exact lookup_isSome_of_mem mem
  · intro here
    obtain ⟨node, here⟩ := isSome_iff_exists.mp here
    refine ⟨_, mem_filter.mpr ⟨lookupIn_mem (by simp) here, ?_⟩, ?_⟩ <;> simp

end

section

variable {t : Tree} {p q : Path} {node : Node}

theorem lookupIn_filter (entries : List (Path × Node)) (nonempty : p ≠ []) (q : Path) :
    lookupIn (entries.filter fun e => e.1 ≠ p) q = if q = p then none else lookupIn entries q := by
  unfold lookupIn
  by_cases root : q = []
  · subst root
    rw [if_pos rfl, if_neg fun same => nonempty same.symm, if_pos rfl]
  · rw [if_neg root, if_neg root, find?_filter]
    split
    next same =>
      subst same
      rw [map_eq_none_iff, find?_eq_none]
      intro e _
      by_cases here : e.1 = q <;> simp [here]
    next other =>
      congr 2
      funext e
      by_cases here : e.1 = q
      · have apart : e.1 ≠ p := fun same => other (here.symm.trans same)
        simp [here, other]
      · simp [here]

def without (t : Tree) (p : Path) (nonempty : p ≠ []) (childless : ∀ e ∈ t.entries, e.1.dropLast ≠ p) :
    Tree where
  entries := t.entries.filter fun e => e.1 ≠ p
  names e mem := t.names e (mem_filter.mp mem).1
  parents e mem := by
    obtain ⟨mem, -⟩ := mem_filter.mp mem
    rw [lookupIn_filter _ nonempty, if_neg (childless e mem)]
    exact t.parents e mem

theorem childless_of_lookup (t : Tree) (other : t.lookup p ≠ some .dir) :
    ∀ e ∈ t.entries, e.1.dropLast ≠ p := by
  rintro e mem rfl
  exact other (t.parents e mem)

theorem nonempty_of_lookup (t : Tree) (other : t.lookup p ≠ some .dir) : p ≠ [] := by
  rintro rfl
  exact other rfl

-- A directory is not unlinked.
def unlink (t : Tree) (p : Path) : Tree :=
  if other : t.lookup p ≠ some .dir then
    t.without p (t.nonempty_of_lookup other) (t.childless_of_lookup other)
  else
    t

-- A directory with entries is left as it is.
def rmdir (t : Tree) (p : Path) : Tree :=
  if empty : p ≠ [] ∧ t.lookup p = some .dir ∧ ∀ e ∈ t.entries, e.1.dropLast ≠ p then
    t.without p empty.1 empty.2.2
  else
    t

theorem lookup_without {nonempty : p ≠ []} {childless : ∀ e ∈ t.entries, e.1.dropLast ≠ p} (q : Path) :
    (t.without p nonempty childless).lookup q = if q = p then none else t.lookup q :=
  lookupIn_filter _ nonempty q

theorem lookup_unlink (other : t.lookup p ≠ some .dir) (q : Path) :
    (t.unlink p).lookup q = if q = p then none else t.lookup q := by
  rw [unlink, dif_pos other]
  exact lookup_without q

theorem lookup_rmdir (t : Tree) (p : Path) (plain : node ≠ .dir) (q : Path) :
    (t.rmdir p).lookup q = some node ↔ t.lookup q = some node := by
  unfold rmdir
  split
  next empty =>
    rw [lookup_without]
    split
    next same =>
      subst same
      rw [empty.2.1]
      simp [plain.symm]
    next => exact Iff.rfl
  next => exact Iff.rfl

theorem unlink_fewer (here : (t.lookup p).isSome = true) (other : t.lookup p ≠ some .dir) :
    (t.unlink p).entries.length < t.entries.length := by
  rw [unlink, dif_pos other]
  obtain ⟨node, here⟩ := isSome_iff_exists.mp here
  refine length_filter_lt_length_iff_exists.mpr ⟨_, lookupIn_mem (t.nonempty_of_lookup other) here, ?_⟩
  simp

theorem rmdir_entries (t : Tree) (p : Path) : (t.rmdir p).entries ⊆ t.entries ∧
    (t.rmdir p).entries.length ≤ t.entries.length := by
  unfold rmdir
  split
  next => exact ⟨filter_subset_self _, length_filter_le _ _⟩
  next => exact ⟨fun _ mem => mem, Nat.le_refl _⟩

theorem unlink_entries (t : Tree) (p : Path) : (t.unlink p).entries ⊆ t.entries := by
  unfold unlink
  split
  next => exact filter_subset_self _
  next => exact fun _ mem => mem

end

end Tree

def realpathNames (t : Tree) (follow : List UInt8 -> Path -> Path -> Option Path) : Path -> Path -> Option Path
  | done, [] => some done
  | done, name :: rest =>
    if name = dot then
      realpathNames t follow done rest
    else if name = dotDot then
      realpathNames t follow done.dropLast rest
    else
      match t.lookup (done ++ [name]) with
      | none => none
      | some (.file _) => if rest = [] then some (done ++ [name]) else none
      | some .dir => realpathNames t follow (done ++ [name]) rest
      | some (.link target) => follow target done rest

-- What ends in a slash is a directory.
def pathParts (path : List UInt8) : Path :=
  components path ++ if path.getLast? = some '/'.toUInt8 then [dot] else []

-- So many symlinks are followed.
def realpathLinks (t : Tree) : Nat -> Path -> Path -> Option Path
  | 0 => realpathNames t fun _ _ _ => none
  | links + 1 => realpathNames t fun target done rest =>
    realpathLinks t links (if pathIsAbsolute target then [] else done) (pathParts target ++ rest)

def render (p : Path) : List UInt8 :=
  if p = [] then slash else p.flatMap fun name => slash ++ name

def canonicalizeFileName (t : Tree) (path : List UInt8) : Option (List UInt8) :=
  (realpathLinks t 40 [] (pathParts path)).map render

end Systemd.Install
