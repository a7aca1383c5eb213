import Systemd.Install.Removal
import Systemd.Units.NormalPaths

set_option autoImplicit false

namespace Systemd.Install

open Relation

section

theorem killSlashesLoop_slash (rest : List UInt8) (flag : Bool) (written : List UInt8)
    (here : '/'.toUInt8 ∈ written) : '/'.toUInt8 ∈ (killSlashesLoop rest flag written).1 := by
  induction rest generalizing flag written with
  | nil => simpa [killSlashesLoop] using here
  | cons byte rest ih =>
    rw [killSlashesLoop]
    split
    next => exact ih true written here
    next =>
      split
      next => exact ih false _ (by simp [here])
      next => exact ih false _ (by simp [here])

theorem pathKillSlashes_slash (front : List UInt8) {name : Name} (isName : IsName name) :
    '/'.toUInt8 ∈ pathKillSlashes (pathMakeAbsolute name front) := by
  have kept : ∀ (front : List UInt8) (flag : Bool) (written : List UInt8),
      '/'.toUInt8 ∈ (killSlashesLoop (front ++ slash ++ name) flag written).1 := by
    intro front
    induction front with
    | nil =>
      intro flag written
      obtain ⟨byte, rest, rfl⟩ := List.exists_cons_of_ne_nil isName.nonempty
      have other : byte ≠ '/'.toUInt8 := fun same => isName.noSlash (by simp [same])
      simp only [slash, List.nil_append, List.singleton_append, killSlashesLoop, if_true, if_neg other]
      exact killSlashesLoop_slash rest false _ (by simp)
    | cons byte front ih =>
      intro flag written
      rw [List.cons_append, List.cons_append, killSlashesLoop]
      split
      next => exact ih true written
      next =>
        split
        next => exact ih false _
        next => exact ih false _
  have inside := kept front false []
  unfold pathKillSlashes pathMakeAbsolute
  dsimp only
  split
  next empty =>
    rw [empty.1] at inside
    cases inside
  next => exact inside

theorem components_pathMakeAbsolute (path : List UInt8) {name : Name} (isName : IsName name) :
    components (pathMakeAbsolute name path) = components path ++ [name] := by
  have parts := components_append path name
  rw [components_single isName.nonempty isName.noSlash] at parts
  simpa [pathMakeAbsolute, slash] using parts

end

section

variable {t : Tree} {node : Node}

theorem rmdirParentsLoop_keeps (stop : List UInt8) (plain : node ≠ .dir) (fuel : Nat) (t : Tree)
    (path : List UInt8) (q : Path) :
    (rmdirParentsLoop stop fuel t path).lookup q = some node ↔ t.lookup q = some node := by
  induction fuel generalizing t path with
  | zero => exact Iff.rfl
  | succ fuel ih =>
    unfold rmdirParentsLoop
    dsimp only
    split
    next => exact Iff.rfl
    next =>
      split
      next => exact Iff.rfl
      next =>
        split
        next => exact ih t _
        next =>
          split
          next => exact (ih _ _).trans (Tree.lookup_rmdir t _ plain q)
          next => exact Iff.rfl

theorem rmdirParentsLoop_entries (stop : List UInt8) (fuel : Nat) (t : Tree) (path : List UInt8) :
    (rmdirParentsLoop stop fuel t path).entries ⊆ t.entries ∧
      (rmdirParentsLoop stop fuel t path).entries.length ≤ t.entries.length := by
  have same : t.entries ⊆ t.entries ∧ t.entries.length ≤ t.entries.length :=
    ⟨fun _ mem => mem, Nat.le_refl _⟩
  induction fuel generalizing t path with
  | zero => exact same
  | succ fuel ih =>
    unfold rmdirParentsLoop
    dsimp only
    split
    next => exact same
    next =>
      split
      next => exact same
      next =>
        split
        next => exact ih t _ same
        next =>
          split
          next =>
            obtain ⟨subset, fewer⟩ := ih (t.rmdir (components (dirnameBytes path))) (dirnameBytes path)
              ⟨fun _ mem => mem, Nat.le_refl _⟩
            obtain ⟨subset', fewer'⟩ := t.rmdir_entries (components (dirnameBytes path))
            exact ⟨fun _ mem => subset' (subset mem), fewer.trans fewer'⟩
          next => exact same

end

def Removes (configPath : List UInt8) (s s' : State) : Prop :=
  ∃ path name target, IsName name ∧
    s.tree.lookup (components (pathMakeAbsolute name path)) = some (.link target) ∧
    Marked s (pathMakeAbsolute name path) target ∧
    s' = s.forget configPath (pathMakeAbsolute name path)
      (s.tree.unlink (components (pathMakeAbsolute name path)))

def RemovesIn (kind : List UInt8 -> Prop) (configPath : List UInt8) (s s' : State) : Prop :=
  ∃ path name target, kind path ∧ ConfFiles.ignoreFile name = false ∧ IsName name ∧
    s.tree.lookup (components (pathMakeAbsolute name path)) = some (.link target) ∧
    Marked s (pathMakeAbsolute name path) target ∧
    s' = s.forget configPath (pathMakeAbsolute name path)
      (s.tree.unlink (components (pathMakeAbsolute name path)))

def Unmarked (s : State) : Prop :=
  ∀ mark ∈ s.marks, '/'.toUInt8 ∈ mark -> ∀ target, s.tree.lookup (components mark) ≠ some (.link target)

def UnmarkedAs (form : List UInt8 -> Prop) (s : State) : Prop :=
  ∀ mark ∈ s.marks, form mark -> ∀ target, s.tree.lookup (components mark) ≠ some (.link target)

/-- What stands in a directory of this kind has a path of this form, and is of this kind if it is a
directory. -/
structure Covers (kind form : List UInt8 -> Prop) : Prop where
  inside : ∀ {path name}, kind path -> ConfFiles.ignoreFile name = false -> IsName name ->
    kind (pathMakeAbsolute name path)
  form : ∀ {path name}, kind path -> IsName name -> form (pathKillSlashes (pathMakeAbsolute name path))

structure Willing (sys : System) : Prop where
  calls : ∀ pass call, sys.fails pass call = none
  reads : ∀ pass path names, (sys.readdir pass path names).2 = none

def below (path : List UInt8) (names : List Name) : List UInt8 :=
  names.foldl (fun path name => pathMakeAbsolute name path) path

def Clean (s : State) (path : List UInt8) : Prop :=
  ∀ (names : List Name) target, names ≠ [] -> (∀ name ∈ names, ConfFiles.ignoreFile name = false) ->
    s.tree.lookup (components path ++ names) = some (.link target) -> ¬ Marked s (below path names) target

def CleanAt (s : State) (path : List UInt8) (name : Name) : Prop :=
  ∀ (names : List Name) target, (∀ n ∈ name :: names, ConfFiles.ignoreFile n = false) ->
    s.tree.lookup (components path ++ name :: names) = some (.link target) ->
      ¬ Marked s (below path (name :: names)) target

section

variable {configPath : List UInt8} {s s' s0 : State} {kind form : List UInt8 -> Prop}

theorem RemovesIn.removes (removes : RemovesIn kind configPath s s') : Removes configPath s s' := by
  obtain ⟨path, name, target, -, -, isName, here, marked, rfl⟩ := removes
  exact ⟨path, name, target, isName, here, marked, rfl⟩

section

variable (removes : Removes configPath s s')
include removes

theorem Removes.tree :
    (∀ q target, s'.tree.lookup q = some (.link target) -> s.tree.lookup q = some (.link target)) ∧
      s'.tree.entries ⊆ s.tree.entries ∧ s'.tree.entries.length < s.tree.entries.length := by
  obtain ⟨path, name, target, isName, here, -, rfl⟩ := removes
  have other : s.tree.lookup (components (pathMakeAbsolute name path)) ≠ some .dir := by
    rw [here]
    simp
  obtain ⟨subset, fewer⟩ := rmdirParentsLoop_entries configPath
    ((pathMakeAbsolute name path).length + 1) (s.tree.unlink (components (pathMakeAbsolute name path)))
    ((pathMakeAbsolute name path).rdropWhile (· = '/'.toUInt8))
  refine ⟨fun q target' there => ?_, fun _ mem => Tree.unlink_entries _ _ (subset mem), ?_⟩
  · have plain : Node.link target' ≠ .dir := by simp
    have kept := (rmdirParentsLoop_keeps configPath plain _ _ _ q).mp there
    rw [Tree.lookup_unlink other] at kept
    split at kept
    next => cases kept
    next => exact kept
  · exact fewer.trans_lt (Tree.unlink_fewer (by rw [here]; rfl) other)

theorem Removes.marks :
    ∃ p, s'.unlinked = s.unlinked ++ [p] ∧ ∀ mark, mark ∈ s'.marks ↔ mark ∈ s.marks ∨ mark = p := by
  obtain ⟨path, name, target, -, -, -, rfl⟩ := removes
  refine ⟨_, rfl, fun mark => ?_⟩
  simp only [State.forget, markSymlinkForRemoval, pathKillSlashes_twice]
  split
  next already =>
    constructor
    · exact .inl
    · rintro (before | rfl)
      · exact before
      · exact already
  next => simp

theorem Removes.unmarked (unmarked : UnmarkedAs form s) : UnmarkedAs form s' := by
  obtain ⟨links, -⟩ := removes.tree
  obtain ⟨path, name, target, isName, here, -, rfl⟩ := removes
  have other : s.tree.lookup (components (pathMakeAbsolute name path)) ≠ some .dir := by
    rw [here]
    simp
  intro mark mem slashed target' there
  simp only [State.forget, markSymlinkForRemoval, pathKillSlashes_twice] at mem
  have new : mark ∈ s.marks ∨ mark = pathKillSlashes (pathMakeAbsolute name path) := by
    split at mem
    next => exact .inl mem
    next => simpa using mem
  rcases new with before | rfl
  · exact unmarked mark before slashed target' (links _ _ there)
  · rw [components_pathKillSlashes] at there
    have plain : Node.link target' ≠ .dir := by simp
    have kept := (rmdirParentsLoop_keeps configPath plain _ _ _ _).mp there
    rw [Tree.lookup_unlink other, if_pos rfl] at kept
    cases kept

end

section

variable (path : ReflTransGen (Removes configPath) s s')
include path

theorem removes_entries :
    s'.tree.entries ⊆ s.tree.entries ∧ s'.tree.entries.length ≤ s.tree.entries.length := by
  induction path with
  | refl => exact ⟨fun _ mem => mem, Nat.le_refl _⟩
  | tail _ removes ih =>
    obtain ⟨-, subset, fewer⟩ := removes.tree
    exact ⟨fun _ mem => ih.1 (subset mem), fewer.le.trans ih.2⟩

theorem removes_unmarked (unmarked : UnmarkedAs form s) : UnmarkedAs form s' := by
  induction path with
  | refl => exact unmarked
  | tail _ removes ih => exact removes.unmarked ih

theorem removes_marks :
    ∃ removed, s'.unlinked = s.unlinked ++ removed ∧
      ∀ mark, mark ∈ s'.marks ↔ mark ∈ s.marks ∨ mark ∈ removed := by
  induction path with
  | refl => exact ⟨[], by simp, by simp⟩
  | tail _ removes ih =>
    obtain ⟨removed, unlinked, marks⟩ := ih
    obtain ⟨p, one, more⟩ := removes.marks
    refine ⟨removed ++ [p], by rw [one, unlinked, List.append_assoc], fun mark => ?_⟩
    rw [more, marks, List.mem_append, List.mem_singleton, or_assoc]

end

end

/-- What a part of a pass leads to. If it removes something, the flag is set, as long as no mark is the
path of a symlink. -/
structure Visited (kind form : List UInt8 -> Prop) (configPath : List UInt8) (w w' : Walk) : Prop where
  removesIn : ReflTransGen (RemovesIn kind configPath) w.state w'.state
  quiet : UnmarkedAs form w.state -> w'.deleted = false -> w' = w
  fewer : w'.deleted = true -> w.deleted = true ∨
    w'.state.tree.entries.length < w.state.tree.entries.length

section

variable {configPath : List UInt8} {w w' w'' : Walk} {sys : System} {pass : Nat} {path : List UInt8}
  {name : Name} {target : List UInt8} {r r' : Option Errno} {kind form : List UInt8 -> Prop}

theorem Visited.removes (visited : Visited kind form configPath w w') :
    ReflTransGen (Removes configPath) w.state w'.state :=
  ReflTransGen.mono (fun _ _ => RemovesIn.removes) _ _ visited.removesIn

theorem Visited.refl : Visited kind form configPath w w where
  removesIn := .refl
  quiet _ _ := rfl
  fewer := .inl

theorem Visited.trans (first : Visited kind form configPath w w')
    (second : Visited kind form configPath w' w'') : Visited kind form configPath w w'' where
  removesIn := first.removesIn.trans second.removesIn
  quiet unmarked still := by
    have same := second.quiet (removes_unmarked first.removes unmarked) still
    rw [same] at still ⊢
    exact first.quiet unmarked still
  fewer flagged := by
    have less := (removes_entries first.removes).2
    have less' := (removes_entries second.removes).2
    rcases second.fewer flagged with before | fewer
    · rcases first.fewer before with already | fewer
      · exact .inl already
      · exact .inr (by omega)
    · exact .inr (by omega)

theorem visitLink_run (covers : Covers kind form) (seen : kind path)
    (plain : ConfFiles.ignoreFile name = false) (isName : IsName name)
    (here : w.state.tree.lookup (components (pathMakeAbsolute name path)) = some (.link target))
    (run : visitLink sys pass configPath (pathMakeAbsolute name path) target r w = (r', w')) :
    Visited kind form configPath w w' ∧ (UnmarkedAs form w.state -> w'.deleted = false -> r' = none ->
      r = none ∧ ¬ Marked w.state (pathMakeAbsolute name path) target) ∧ (Willing sys -> r' = r) := by
  unfold visitLink at run
  split at run
  next e fails =>
    cases run
    have found : e ≠ .enoent := by
      rintro rfl
      exact sys.present _ _ fails
    refine ⟨.refl, fun _ _ fine => ?_, fun willing => ?_⟩
    · rw [if_neg found, Option.or_eq_none_iff] at fine
      cases fine.2
    · rw [willing.calls] at fails
      cases fails
  next =>
    split at run
    next marked =>
      split at run
      next e fails =>
        have found : e ≠ .enoent := by
          rintro rfl
          exact sys.present _ _ fails
        rw [if_neg found] at run
        cases run
        refine ⟨.refl, fun _ _ fine => ?_, fun willing => ?_⟩
        · rw [Option.or_eq_none_iff] at fine
          cases fine.2
        · rw [willing.calls] at fails
          cases fails
      next =>
        cases run
        have removes : RemovesIn kind configPath w.state (w.forget configPath (pathMakeAbsolute name path)
            (w.state.tree.unlink (components (pathMakeAbsolute name path)))).state :=
          ⟨path, name, target, seen, plain, isName, here, marked, rfl⟩
        have flagged : UnmarkedAs form w.state -> (w.forget configPath (pathMakeAbsolute name path)
            (w.state.tree.unlink (components (pathMakeAbsolute name path)))).deleted = true := by
          intro unmarked
          have absent : pathKillSlashes (pathMakeAbsolute name path) ∉ w.state.marks := by
            intro mem
            refine unmarked _ mem (covers.form seen isName) target ?_
            rw [components_pathKillSlashes]
            exact here
          simp [Walk.forget, absent]
        refine ⟨⟨.single removes, fun unmarked still => ?_, fun _ => .inr removes.removes.tree.2.2⟩,
          fun unmarked still => ?_, fun _ => rfl⟩
        · rw [flagged unmarked] at still
          cases still
        · rw [flagged unmarked] at still
          cases still
    next other =>
      cases run
      exact ⟨.refl, fun _ _ fine => ⟨fine, other⟩, fun _ => rfl⟩

def Short (t : Tree) (length : Nat) : Prop := ∀ e ∈ t.entries, e.1.length ≤ length

def Descends (kind form : List UInt8 -> Prop) (sys : System) (pass : Nat) (configPath : List UInt8) (k : Nat)
    (path : List UInt8) (w : Walk) : Prop :=
  ∃ r w', (∀ depth, k ≤ depth ->
      removeMarkedSymlinksFd sys pass configPath depth path w = some (r, w')) ∧
    Visited kind form configPath w w' ∧
    (UnmarkedAs form w.state -> w'.deleted = false -> r = none -> Clean w.state path) ∧
    (Willing sys -> r = none)

theorem CleanAt.of_dir (isName : IsName name) (clean : Clean w.state (pathMakeAbsolute name path))
    (here : w.state.tree.lookup (components path ++ [name]) = some .dir) : CleanAt w.state path name := by
  intro names target plain there marked
  have parts := components_pathMakeAbsolute path isName
  cases names with
  | nil =>
    rw [here] at there
    cases there
  | cons first names =>
    refine clean (first :: names) target (by simp) (fun n mem => plain n (by simp [mem])) ?_ marked
    rw [parts, List.append_assoc]
    exact there

theorem CleanAt.of_plain (other : w.state.tree.lookup (components path ++ [name]) ≠ some .dir)
    (fine : ∀ target, w.state.tree.lookup (components path ++ [name]) = some (.link target) ->
      ¬ Marked w.state (pathMakeAbsolute name path) target) : CleanAt w.state path name := by
  intro names target plain there
  cases names with
  | nil => exact fine target there
  | cons first names =>
    have split : components path ++ name :: first :: names =
        (components path ++ [name]) ++ (first :: names) := by simp
    rw [split] at there
    exact absurd (Tree.dir_of_below (List.cons_ne_nil _ _) (by rw [there]; rfl)) other

theorem visitName_run (covers : Covers kind form) (seen : kind path) (k : Nat) (name : Name)
    (rest : List Name) (r : Option Errno) (descends : ConfFiles.ignoreFile name = false -> IsName name ->
      w.state.tree.lookup (components path ++ [name]) = some .dir -> Descends kind form sys pass
      configPath k (pathMakeAbsolute name path) w) :
    ∃ r1 w1, (∀ depth, k ≤ depth ->
        visitNames sys pass configPath (removeMarkedSymlinksFd sys pass configPath depth) path (name :: rest)
            r w =
          visitNames sys pass configPath (removeMarkedSymlinksFd sys pass configPath depth) path rest r1 w1) ∧
      Visited kind form configPath w w1 ∧
      (UnmarkedAs form w.state -> w1.deleted = false -> r1 = none -> r = none ∧ CleanAt w.state path name) ∧
      (Willing sys -> r1 = r) := by
  by_cases skipped : ConfFiles.ignoreFile name = true
  · refine ⟨r, w, fun depth _ => by rw [visitNames, if_pos skipped], .refl,
      fun _ _ fine => ⟨fine, ?_⟩, fun _ => rfl⟩
    intro names target plain
    rw [plain name (by simp)] at skipped
    cases skipped
  cases here : w.state.tree.lookup (components path ++ [name]) with
  | none =>
    refine ⟨r, w, fun depth _ => ?_, .refl, fun _ _ fine => ⟨fine, .of_plain ?_ ?_⟩, fun _ => rfl⟩
    · rw [visitNames, if_neg skipped]
      simp only [here]
    · simp [here]
    · simp [here]
  | some node =>
    have isName := Tree.name_of_lookup (by rw [here]; rfl)
    have parts := components_pathMakeAbsolute path isName
    cases node with
    | file contents =>
      refine ⟨r, w, fun depth _ => ?_, .refl, fun _ _ fine => ⟨fine, .of_plain ?_ ?_⟩, fun _ => rfl⟩
      · rw [visitNames, if_neg skipped]
        simp only [here]
      · simp [here]
      · simp [here]
    | link target =>
      cases result : visitLink sys pass configPath (pathMakeAbsolute name path) target r w with
      | mk r1 w1 =>
        obtain ⟨visited, fine, kept⟩ := visitLink_run covers seen (by simpa using skipped) isName
          (by rw [parts]; exact here) result
        refine ⟨r1, w1, fun depth _ => ?_, visited, fun unmarked still none' => ?_, kept⟩
        · rw [visitNames, if_neg skipped]
          simp only [here, result]
        · obtain ⟨before, other⟩ := fine unmarked still none'
          refine ⟨before, .of_plain (by simp [here]) fun target' there => ?_⟩
          rw [here] at there
          cases there
          exact other
    | dir =>
      cases opened : sys.fails pass (.opens (pathMakeAbsolute name path)) with
      | some e =>
        have found : e ≠ .enoent := by
          rintro rfl
          exact sys.present _ _ opened
        refine ⟨r.or (some e), w, fun depth _ => ?_, .refl, fun _ _ none' => ?_, fun willing => ?_⟩
        · rw [visitNames, if_neg skipped]
          simp only [here, opened, if_neg found]
        · rw [Option.or_eq_none_iff] at none'
          cases none'.2
        · rw [willing.calls] at opened
          cases opened
      | none =>
        obtain ⟨q, w1, ran, visited, fine, kept⟩ := descends (by simpa using skipped) isName here
        refine ⟨r.or q, w1, fun depth more => ?_, visited, fun unmarked still none' => ?_, fun willing => ?_⟩
        · rw [visitNames, if_neg skipped]
          simp only [here, opened, ran depth more, Option.bind_some]
        · rw [Option.or_eq_none_iff] at none'
          exact ⟨none'.1, .of_dir isName (fine unmarked still none'.2) here⟩
        · rw [kept willing, Option.or_none]

theorem visitNames_run (covers : Covers kind form) (seen : kind path) (k : Nat) (names : List Name)
    (r : Option Errno) (short : Short w.state.tree ((components path).length + k)) (descends : ∀ (w :
      Walk) (name : Name), Short w.state.tree ((components path).length + k) -> ConfFiles.ignoreFile name
      = false -> IsName name -> w.state.tree.lookup (components path ++ [name]) = some .dir -> Descends
      kind form sys pass configPath k (pathMakeAbsolute name path) w) :
    ∃ r' w', (∀ depth, k ≤ depth ->
        visitNames sys pass configPath (removeMarkedSymlinksFd sys pass configPath depth) path names r w =
          some (r', w')) ∧
      Visited kind form configPath w w' ∧
      (UnmarkedAs form w.state -> w'.deleted = false -> r' = none -> r = none ∧
        ∀ name ∈ names, CleanAt w.state path name) ∧
      (Willing sys -> r' = r) := by
  induction names generalizing w r with
  | nil => exact ⟨r, w, fun _ _ => rfl, .refl, fun _ _ fine => ⟨fine, by simp⟩, fun _ => rfl⟩
  | cons name rest ih =>
    obtain ⟨r1, w1, step, visited1, fine1, kept1⟩ :=
      visitName_run covers seen k name rest r (descends w name short)
    have entries := (removes_entries visited1.removes).1
    obtain ⟨r', w', run, visited, fine, kept⟩ := ih (w := w1) r1 fun e mem => short e (entries mem)
    refine ⟨r', w', fun depth more => (step depth more).trans (run depth more), visited1.trans visited,
      ?_, fun willing => (kept willing).trans (kept1 willing)⟩
    intro unmarked still none'
    have unmarked1 := removes_unmarked visited1.removes unmarked
    obtain rfl := visited.quiet unmarked1 still
    obtain ⟨before, clean⟩ := fine unmarked1 still none'
    obtain rfl := visited1.quiet unmarked still
    obtain ⟨before, first⟩ := fine1 unmarked still before
    exact ⟨before, List.forall_mem_cons.mpr ⟨first, clean⟩⟩

theorem exists_short (t : Tree) : ∃ k, Short t k := by
  unfold Short
  induction t.entries with
  | nil => exact ⟨0, by simp⟩
  | cons e rest ih =>
    obtain ⟨k, within⟩ := ih
    refine ⟨max e.1.length k, List.forall_mem_cons.mpr ⟨le_max_left _ _, fun e' mem => ?_⟩⟩
    exact (within e' mem).trans (le_max_right _ _)

theorem descends_of_names {k : Nat} (visits : ∀ names : List Name, ∃ r' w', (∀ depth, k ≤ depth ->
      visitNames sys pass configPath (removeMarkedSymlinksFd sys pass configPath depth) path names none
      w = some (r', w')) ∧ Visited kind form configPath w w' ∧ (UnmarkedAs form w.state -> w'.deleted =
      false -> r' = none -> (none : Option Errno) = none ∧ ∀ name ∈ names, CleanAt w.state path name) ∧
      (Willing sys -> r' = none)) : Descends kind form sys pass configPath (k + 1) path w := by
  cases listing : sys.readdir pass path (w.state.tree.listing (components path)) with
  | mk names failure =>
    obtain ⟨r', w', run, visited, fine, kept⟩ := visits names
    refine ⟨failure.or r', w', fun depth more => ?_, visited, fun unmarked still none' => ?_,
      fun willing => ?_⟩
    · obtain ⟨less, rfl⟩ := Nat.exists_eq_add_of_le' (show 1 ≤ depth by omega)
      rw [removeMarkedSymlinksFd, listing]
      dsimp only
      rw [run less (by omega), Option.map_some]
    · rw [Option.or_eq_none_iff] at none'
      obtain ⟨-, clean⟩ := fine unmarked still none'.2
      have all := sys.listed pass path (w.state.tree.listing (components path)) (by rw [listing, none'.1])
      rw [listing] at all
      intro names' target nonempty plain there
      obtain ⟨name, rest, rfl⟩ := List.exists_cons_of_ne_nil nonempty
      have listed : name ∈ w.state.tree.listing (components path) := by
        rw [Tree.mem_listing]
        cases rest with
        | nil => rw [there]; rfl
        | cons first rest =>
          have split : components path ++ name :: first :: rest =
              (components path ++ [name]) ++ (first :: rest) := by simp
          rw [split] at there
          rw [Tree.dir_of_below (List.cons_ne_nil _ _) (by rw [there]; rfl)]
          rfl
      exact clean name (all.mem_iff.mpr listed) rest target plain there
    · have read := willing.reads pass path (w.state.tree.listing (components path))
      rw [listing] at read
      rw [kept willing, show failure = none from read]
      rfl

theorem short_entry {t : Tree} {k : Nat} {p : Path} {node : Node} (short : Short t k) (nonempty : p ≠ [])
    (here : t.lookup p = some node) : p.length ≤ k :=
  short _ (Tree.lookupIn_mem nonempty here)

section

variable (covers : Covers kind form)
include covers

theorem removeMarkedSymlinksFd_run (k : Nat) (path : List UInt8) (seen : kind path) (w : Walk)
    (short : Short w.state.tree ((components path).length + k)) :
    Descends kind form sys pass configPath (k + 1) path w := by
  induction k generalizing path w with
  | zero =>
    refine descends_of_names fun names => visitNames_run covers seen 0 names none short ?_
    intro w name short _ _ here
    have long := short_entry short (by simp) here
    rw [List.length_append, List.length_singleton] at long
    omega
  | succ k ih =>
    refine descends_of_names fun names => visitNames_run covers seen (k + 1) names none short ?_
    intro w name short plain isName _
    refine ih (pathMakeAbsolute name path) (covers.inside seen plain isName) w ?_
    rw [components_pathMakeAbsolute path isName, List.length_append, List.length_singleton]
    exact fun e mem => (short e mem).trans (by omega)

theorem removePasses_run (sys : System) (seen : kind configPath) (k : Nat) (s : State)
    (short : Short s.tree ((components configPath).length + k)) (pass : Nat) (r : Option Errno) :
    ∃ r' s', (∀ depth fuel, k < depth -> s.tree.entries.length < fuel ->
        removePasses sys configPath depth fuel pass r s = some (r', s')) ∧
      ReflTransGen (RemovesIn kind configPath) s s' ∧
      (UnmarkedAs form s -> r' = none -> Clean s' configPath) ∧
      (Willing sys -> r' = r) := by
  induction size : s.tree.entries.length using Nat.strong_induction_on generalizing s pass r with
  | h n ih =>
    cases duplicate : sys.fails pass .duplicates with
    | some e =>
      refine ⟨some e, s, fun depth fuel _ more => ?_, .refl, (fun _ wrong => nomatch wrong), fun willing => ?_⟩
      · obtain ⟨less, rfl⟩ := Nat.exists_eq_add_of_le' (show 1 ≤ fuel by omega)
        simp only [removePasses, duplicate]
      · rw [willing.calls] at duplicate
        cases duplicate
    | none =>
      obtain ⟨q, w, run, visited, fine, kept⟩ :=
        @removeMarkedSymlinksFd_run configPath sys pass kind form covers k configPath seen ⟨s, false⟩ short
      cases flagged : w.deleted with
      | true =>
        have fewer := (visited.fewer flagged).resolve_left (by simp)
        have entries := (removes_entries visited.removes).1
        obtain ⟨r', s', ran, removes, clean, kept'⟩ := ih _ (size ▸ fewer) w.state
          (fun e mem => short e (entries mem)) (pass + 1) (r.or q) rfl
        refine ⟨r', s', fun depth fuel deep more => ?_, visited.removesIn.trans removes, fun unmarked => ?_,
          fun willing => ?_⟩
        · obtain ⟨less, rfl⟩ := Nat.exists_eq_add_of_le' (show 1 ≤ fuel by omega)
          simp only [removePasses, duplicate, run depth deep, Option.bind_some, flagged, if_true]
          exact ran depth less deep (by simp only at fewer; omega)
        · exact clean (removes_unmarked visited.removes unmarked)
        · rw [kept' willing, kept willing, Option.or_none]
      | false =>
        refine ⟨r.or q, w.state, fun depth fuel deep more => ?_, visited.removesIn,
          fun unmarked none' => ?_, fun willing => ?_⟩
        · obtain ⟨less, rfl⟩ := Nat.exists_eq_add_of_le' (show 1 ≤ fuel by omega)
          simp only [removePasses, duplicate, run depth deep, Option.bind_some, flagged,
            Bool.false_eq_true, if_false]
        · rw [Option.or_eq_none_iff] at none'
          have same := visited.quiet unmarked flagged
          rw [same]
          exact fine unmarked flagged none'.2
        · rw [kept willing, Option.or_none]

theorem removeMarkedSymlinks_run (sys : System) (seen : kind configPath) (t : Tree)
    (marks : List (List UInt8)) :
    ∃ r s, (∃ enough, ∀ fuel, enough ≤ fuel ->
        removeMarkedSymlinks sys configPath fuel ⟨t, marks, []⟩ = some (r, s)) ∧
      ReflTransGen (RemovesIn kind configPath) ⟨t, marks, []⟩ s ∧
      (UnmarkedAs form ⟨t, marks, []⟩ -> r = none -> Clean s configPath) ∧
      (Willing sys -> t.lookup (components configPath) = some .dir -> r = none) := by
  by_cases empty : marks = []
  · refine ⟨none, _, ⟨0, fun fuel _ => ?_⟩, .refl, fun _ _ names target _ _ _ => ?_, fun _ _ => rfl⟩
    · simp [removeMarkedSymlinks, empty]
    · simp [Marked, empty]
  cases opened : sys.fails 0 (.opens configPath) with
  | some e =>
    refine ⟨some e, _, ⟨0, fun fuel _ => ?_⟩, .refl, (fun _ wrong => nomatch wrong), fun willing => ?_⟩
    · simp [removeMarkedSymlinks, empty, opened]
    · rw [willing.calls] at opened
      cases opened
  | none =>
    cases here : t.lookup (components configPath) with
    | none =>
      refine ⟨some .enoent, _, ⟨0, fun fuel _ => ?_⟩, .refl, (fun _ wrong => nomatch wrong),
        fun _ wrong => nomatch wrong⟩
      simp [removeMarkedSymlinks, empty, opened, here]
    | some node =>
      by_cases directory : node = .dir
      · subst directory
        obtain ⟨k, within⟩ := exists_short t
        have short : Short t ((components configPath).length + k) :=
          fun e mem => (within e mem).trans (by omega)
        obtain ⟨r, s, run, removes, clean, kept⟩ :=
          removePasses_run covers sys seen _ ⟨t, marks, []⟩ short 0 none
        refine ⟨r, s, ⟨k + t.entries.length + 1, fun fuel more => ?_⟩, removes, clean,
          fun willing _ => kept willing⟩
        simp only [removeMarkedSymlinks, if_neg empty, opened, here]
        exact run fuel fuel (by omega) (by simp only; omega)
      · refine ⟨some .enotdir, _, ⟨0, fun fuel _ => ?_⟩, .refl, (fun _ wrong => nomatch wrong),
          fun _ same => absurd (Option.some.inj same) directory⟩
        cases node with
        | dir => exact absurd rfl directory
        | file => simp [removeMarkedSymlinks, empty, opened, here]
        | link => simp [removeMarkedSymlinks, empty, opened, here]

end

end

def ascii (text : String) : List UInt8 := text.toList.map Char.toUInt8

def willing : System where
  readdir _ _ names := (names, none)
  fails _ _ := none
  listed _ _ _ _ := .refl _
  present _ _ := by simp

def chained : Tree where
  entries := [([ascii "c"], .dir), ([ascii "c", ascii "a"], .link (ascii "b")),
    ([ascii "c", ascii "b"], .link (ascii "/x/foo"))]
  names := by decide
  parents := by decide

example : (removeMarkedSymlinks willing (ascii "/c") 4 ⟨chained, [ascii "foo"], []⟩).map
    (fun ended => (ended.1, ended.2.unlinked)) = some (none, [ascii "/c/b", ascii "/c/a"]) := by decide

def hidden : Tree where
  entries := [([ascii "c"], .dir), ([ascii "c", ascii ".a"], .link (ascii "/x/foo"))]
  names := by decide
  parents := by decide

end Systemd.Install
