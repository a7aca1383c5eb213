import Systemd.Tmpfiles.Spared

set_option autoImplicit false

namespace Systemd.Tmpfiles

open List Option

section

variable {S : Setting} {cutoff rootdev : Nat}

structure Loose (S : Setting) (cutoff rootdev : Nat) (p : CString) (mountpoint : Bool)
    (content : Listing) (names : List FileName) (e : Entry) : Prop where
  file : e.stat.type ≠ .directory
  unguarded : ¬Guarded S cutoff rootdev p content names e
  unexcused : ¬Excused mountpoint content names

section

variable {p : CString} {mountpoint : Bool} {e target : Entry} {sub rest : Listing} {name : FileName}
  {below : List FileName}

theorem loose_rest (ne : e.name ≠ name)
    (loose : Loose S cutoff rootdev p mountpoint (.entry e sub rest) (name :: below) target) :
    Loose S cutoff rootdev p mountpoint rest (name :: below) target := by
  refine ⟨loose.file, fun guarded => loose.unguarded ?_, fun excused => loose.unexcused ?_⟩
  next =>
    obtain ⟨front, above, higher, guard⟩ | busy := guarded
    next => exact Or.inl ⟨front, above, (above_rest ne).mpr higher, guard⟩
    next => exact Or.inr busy
  next =>
    obtain ⟨mounted, front, above, higher, special⟩ | ⟨front, above, higher, fails⟩ := excused
    next => exact Or.inl ⟨mounted, front, above, (above_rest ne).mpr higher, special⟩
    next => exact Or.inr ⟨front, above, (above_rest ne).mpr higher, fails⟩

section

variable (elsewhere : p ≠ root)
include elsewhere

theorem loose_below
    (loose : Loose S cutoff rootdev p mountpoint (.entry e sub rest) (e.name :: below) target) :
    Loose S cutoff rootdev (subPath p e.name) false sub below target := by
  refine ⟨loose.file, fun guarded => loose.unguarded ?_, fun excused => loose.unexcused ?_⟩
  next =>
    obtain ⟨front, above, higher, guard⟩ | busy := guarded
    next =>
      rw [← entryPath_cons elsewhere] at guard
      exact Or.inl ⟨e.name :: front, above, above_below higher, guard⟩
    next =>
      rw [← entryPath_cons elsewhere] at busy
      exact Or.inr busy
  next =>
    obtain ⟨mounted, -⟩ | ⟨front, above, higher, fails⟩ := excused
    next => cases mounted
    next => exact Or.inr ⟨e.name :: front, above, above_below higher, by simpa using fails⟩

theorem loose_entry
    (loose : Loose S cutoff rootdev p mountpoint (.entry e sub rest) (e.name :: below) target) :
    spared S rootdev (subPath p e.name) e.stat = false ∧ e.statError = none ∧
      ¬(mountpoint = true ∧ setAside e = true) ∧
      if below = [] then e.unlinkError = none else e.openError = none := by
  have higher : Above (e.name :: below) (.entry e sub rest) [e.name] e := above_head
  refine ⟨?_, ?_, fun special => ?_, ?_⟩
  next =>
    by_contra kept
    refine loose.unguarded (Or.inl ⟨[e.name], e, higher, ?_⟩)
    rw [entryPath_single elsewhere]
    exact spared_iff.mp (by simpa using kept)
  next =>
    by_contra fails
    exact loose.unexcused (Or.inr ⟨[e.name], e, higher, Or.inl (isSome_iff_ne_none.mpr fails)⟩)
  next =>
    exact loose.unexcused (Or.inl ⟨special.1, [e.name], e, higher, rfl, special.2⟩)
  next =>
    by_contra fails
    refine loose.unexcused (Or.inr ⟨[e.name], e, higher, Or.inr ?_⟩)
    by_cases last : below = []
    next => simpa [last, isSome_iff_ne_none] using fails
    next => simpa [last, isSome_iff_ne_none, Ne.symm last] using fails

theorem handled_file (maxdepth : Nat)
    (loose : Loose S cutoff rootdev p mountpoint (.entry e sub rest) [e.name] e) :
    handled S cutoff rootdev p mountpoint maxdepth e sub = none := by
  obtain ⟨general, stated, special, removable⟩ := loose_entry elsewhere loose
  have idle : ¬InUse S cutoff (subPath p e.name) e := by
    intro busy
    rw [← entryPath_single elsewhere] at busy
    exact loose.unguarded (Or.inr ⟨loose.file, busy⟩)
  have unused : sparedFile S cutoff mountpoint (subPath p e.name) e = false := by
    refine unused_file idle fun quota => special ⟨quota.1, ?_⟩
    simp [setAside, quota.2]
  rw [if_pos rfl] at removable
  simp [handled, cleanEntry, stated, general, loose.file, unused, unlinkFile, removable]

theorem handled_directory {maxdepth : Nat} (deep : maxdepth ≠ 0) (last : below ≠ [])
    (directory : e.stat.type = .directory)
    (loose : Loose S cutoff rootdev p mountpoint (.entry e sub rest) (e.name :: below) target) :
    handled S cutoff rootdev p mountpoint maxdepth e sub = none ∨
      handled S cutoff rootdev p mountpoint maxdepth e sub =
        some (dirCleanup S cutoff rootdev (subPath p e.name) false (maxdepth - 1) sub).1 := by
  obtain ⟨general, stated, special, opened⟩ := loose_entry elsewhere loose
  have lost : (mountpoint && lostAndFound e) = false := by
    by_contra lost
    refine special ?_
    simpa [setAside, directory, quotaOrJournal] using lost
  rw [if_neg last] at opened
  have left := removeDirectory_left e
    (dirCleanup S cutoff rootdev (subPath p e.name) false (maxdepth - 1) sub).1
    (dirCleanup S cutoff rootdev (subPath p e.name) false (maxdepth - 1) sub).2
  by_cases young : cutoff ≤ directoryAge e.stat
  next => simp [handled, cleanEntry, stated, general, directory, lost, deep, opened, young]
  next =>
    simp only [handled, cleanEntry, stated, general, directory, lost, deep, opened, young,
      if_true, if_false, Bool.false_eq_true]
    obtain rest | ⟨gone, -⟩ := left
    next => exact Or.inr rest
    next => exact Or.inl gone

end

end

theorem dirCleanup_removes {content : Listing} (wellFormed : content.WellFormed) {p : CString}
    (elsewhere : p ≠ root) (mountpoint : Bool) {maxdepth : Nat} {names : List FileName} {e : Entry}
    (found : content.find names = some e) (reach : names.length ≤ maxdepth + 1)
    (loose : Loose S cutoff rootdev p mountpoint content names e) :
    (dirCleanup S cutoff rootdev p mountpoint maxdepth content).1.find names = none := by
  induction content generalizing p mountpoint maxdepth names with
  | nil => simp [Listing.find_nil] at found
  | entry first sub rest ihSub ihRest =>
    obtain ⟨missing, plain, wellFormedSub, wellFormedRest⟩ := wellFormed
    cases names with
    | nil => simp [Listing.find] at found
    | cons name below =>
      by_cases ne : first.name = name
      next =>
        subst ne
        rw [dirCleanup_find_head p mountpoint maxdepth sub missing below]
        by_cases last : below = []
        next =>
          subst last
          rw [Listing.find_head] at found
          cases found
          rw [handled_file elsewhere maxdepth loose]
          rfl
        next =>
          rw [Listing.find_below first sub rest last] at found
          have directory : first.stat.type = .directory := by
            by_contra file
            simp [plain file, Listing.find_nil] at found
          have length := length_pos_iff.mpr last
          rw [length_cons] at reach
          have deep : maxdepth ≠ 0 := by omega
          have within : below.length ≤ maxdepth - 1 + 1 := by omega
          obtain gone | left := handled_directory elsewhere deep last directory loose
          next => simp [gone]
          next =>
            have removed := ihSub wellFormedSub (subPath_ne_root p first.name) false found within
              (loose_below elsewhere loose)
            simp [left, last, removed]
      next =>
        rw [dirCleanup_find_rest p mountpoint maxdepth sub rest ne below]
        rw [Listing.find_rest first sub rest ne] at found
        exact ihRest wellFormedRest elsewhere mountpoint found reach (loose_rest ne loose)

end

variable {d : Directory}

variable (S : Setting)

theorem cleanItem_cases {n age : Nat} {i : Item} {s : Stat} (aged : i.age = some age)
    (stat : d.stat = .ok s) :
    (cleanItem S n i d).1 = d.content ∨
      ∃ ps, (cleanItem S n i d).1 =
        (dirCleanup S (n - age) s.dev i.path (isMountpoint s ps) maxDepth d.content).1 := by
  rw [cleanItem, aged]
  by_cases type : i.type ≠ .createDirectory ∧ i.type ≠ .truncateDirectory ∧ i.type ≠ .ignorePath
  next => exact Or.inl (by rw [if_pos type])
  next =>
    by_cases due : age = 0 ∨ n < age
    next => exact Or.inl (by simp [due])
    next =>
      simp only [if_neg type, if_neg due, cleanDirectory, stat]
      cases d.openError with
      | some error => exact Or.inl rfl
      | none =>
        by_cases directory : s.type = .directory
        next =>
          cases d.parent with
          | error error => simp [directory]
          | ok ps => exact Or.inr ⟨ps, by simp [directory]⟩
        next => simp [directory]

theorem cleanItem_cleans {n age : Nat} {i : Item} {s ps : Stat} (aged : i.age = some age)
    (stat : d.stat = .ok s) (cleans : Cleans n i d s ps) :
    (cleanItem S n i d).1 =
      (dirCleanup S (n - age) s.dev i.path (isMountpoint s ps) maxDepth d.content).1 := by
  obtain ⟨positive, past⟩ := cleans.aged age aged
  have due : ¬(age = 0 ∨ n < age) := by omega
  have type : ¬(i.type ≠ .createDirectory ∧ i.type ≠ .truncateDirectory ∧ i.type ≠ .ignorePath) := by
    obtain type | type | type := cleans.type <;> simp [type]
  rw [cleanItem, if_neg type, aged]
  simp [due, cleanDirectory, cleans.opened, stat, cleans.parent, cleans.directory]

def oldFile (name : FileName) : Listing :=
  .entry
    { name
      stat :=
        { dev := 1, ino := 7, uid := 0, type := .regular, ownerMayWrite := true, sticky := false
          mtim := 0, atim := 0, ctim := 0 }
      statError := none
      openError := none
      unlinkError := none }
    .nil .nil

def mountedStat : Stat where
  dev := 1
  ino := 2
  uid := 0
  type := .directory
  ownerMayWrite := true
  sticky := false
  mtim := 0
  atim := 0
  ctim := 0

def mounted (name : FileName) : Directory where
  openError := none
  stat := .ok mountedStat
  parent := .ok mountedStat
  content := oldFile name

def aged (path : String) : Item where
  type := .createDirectory
  path := .ofString path
  age := some 10

def setting (items : List Item) : Setting where
  fnmatch := fun pattern path => pattern = path
  config := { items, globs := [] }
  unixSockets := some []

def keep : FileName where
  name := .ofString "keep"
  nonempty := by decide
  noSlash := by decide
  notSelf := by decide
  notParent := by decide

def journal : FileName where
  name := .ofString ".journal"
  nonempty := by decide
  noSlash := by decide
  notSelf := by decide
  notParent := by decide

end Systemd.Tmpfiles
