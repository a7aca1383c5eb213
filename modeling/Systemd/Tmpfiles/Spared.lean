import Systemd.Tmpfiles.Cleanup

set_option autoImplicit false

namespace Systemd.Tmpfiles

open List

theorem subPath_ne_root (p : CString) (name : FileName) : subPath p name ≠ root := by
  intro same
  have bytes := congrArg (fun path : CString => path.bytes.length) same
  have size : root.bytes.length = 1 := by decide
  have slash : (CString.ofString "/").bytes.length = 1 := by decide
  have some_bytes := length_pos_iff.mpr name.nonempty
  simp only [subPath, CString.append, length_append, size, slash] at bytes
  omega

theorem entryPath_cons {p : CString} (elsewhere : p ≠ root) (name : FileName)
    (below : List FileName) : entryPath p (name :: below) = entryPath (subPath p name) below := by
  rw [entryPath, if_neg elsewhere]

namespace Listing

variable (e : Entry) (sub rest : Listing)

theorem find_head : (entry e sub rest).find [e.name] = some e := by
  simp [find]

theorem find_below {below : List FileName} (deep : below ≠ []) :
    (entry e sub rest).find (e.name :: below) = sub.find below := by
  simp [find, deep]

theorem find_rest {name : FileName} (ne : e.name ≠ name) (below : List FileName) :
    (entry e sub rest).find (name :: below) = rest.find (name :: below) := by
  simp [find, ne]

theorem find_nil (names : List FileName) : Listing.nil.find names = none := by
  cases names <;> rfl

theorem find_missing {name : FileName} (below : List FileName) {content : Listing}
    (missing : name ∉ content.names) : content.find (name :: below) = none := by
  induction content with
  | nil => rfl
  | entry e sub rest _ ih =>
    obtain ⟨ne, missing⟩ := not_or.mp (mt mem_cons.mpr missing)
    rw [find_rest e sub rest (Ne.symm ne)]
    exact ih missing

end Listing

section

variable {S : Setting} {cutoff rootdev : Nat}

variable {path p : CString} {e : Entry} {rest sub : Listing} {below : List FileName}

theorem spared_iff : spared S rootdev path e.stat = true ↔ Protected S rootdev path e := by
  simp only [spared, Protected, Setting.configured, Setting.findGlob, Bool.or_eq_true,
    Bool.and_eq_true, decide_eq_true_eq, any_eq_true, find?_isSome, Bool.not_eq_true',
    ne_eq]
  constructor
  next =>
    rintro (((device | readonly) | item) | glob)
    next => exact Or.inr (Or.inr (Or.inl device))
    next => exact Or.inr (Or.inr (Or.inr readonly))
    next => exact Or.inl item
    next => exact Or.inr (Or.inl glob)
  next =>
    rintro (item | glob | device | readonly)
    next => exact Or.inl (Or.inr item)
    next => exact Or.inr glob
    next => exact Or.inl (Or.inl (Or.inl device))
    next => exact Or.inl (Or.inl (Or.inr readonly))

theorem inUse_spared (mountpoint : Bool) (busy : InUse S cutoff path e) :
    sparedFile S cutoff mountpoint path e = true := by
  rw [sparedFile]
  obtain young | sticky | character | block | ⟨socket, alive⟩ := busy
  next =>
    have age : cutoff ≤ fileAge e.stat := by
      rw [fileAge]
      omega
    simp [age]
  next => simp [sticky]
  next => simp [character]
  next => simp [block]
  next =>
    have alive : S.unixSocketAlive path = true := by
      rw [Setting.unixSocketAlive]
      cases known : S.unixSockets with
      | none => rfl
      | some sockets => simpa using alive sockets known
    simp [socket, alive]

theorem unused_file {mountpoint : Bool} (idle : ¬InUse S cutoff path e)
    (plain : ¬(mountpoint = true ∧ quotaOrJournal e = true)) :
    sparedFile S cutoff mountpoint path e = false := by
  by_contra kept
  refine idle ?_
  simp only [sparedFile, Bool.not_eq_false, Bool.or_eq_true, Bool.and_eq_true,
    decide_eq_true_eq] at kept
  obtain ((((sticky | special) | ⟨socket, alive⟩) | character) | block) | young := kept
  next => exact Or.inr (Or.inl sticky)
  next => exact absurd special plain
  next =>
    refine Or.inr (Or.inr (Or.inr (Or.inr ⟨socket, fun sockets known => ?_⟩)))
    simpa [Setting.unixSocketAlive, known] using alive
  next => exact Or.inr (Or.inr (Or.inl character))
  next => exact Or.inr (Or.inr (Or.inr (Or.inl block)))
  next =>
    rw [fileAge] at young
    exact Or.inl (by omega)

theorem cleanEntry_spared {mountpoint : Bool} (maxdepth : Nat) (sub : Listing)
    (inside : Listing × Option Errno) (kept : spared S rootdev (subPath p e.name) e.stat = true ∨
      e.stat.type ≠ .directory ∧ sparedFile S cutoff mountpoint (subPath p e.name) e = true) :
    (cleanEntry S cutoff rootdev p mountpoint maxdepth e sub inside).1 = some sub := by
  rw [cleanEntry]
  cases e.statError with
  | some error => rfl
  | none =>
    by_cases general : spared S rootdev (subPath p e.name) e.stat = true
    next => simp [general]
    next =>
      obtain ⟨file, special⟩ := kept.resolve_left general
      simp [general, file, special]

theorem removeDirectory_left (e : Entry) (sub : Listing) (q : Option Errno) :
    (removeDirectory e sub q).1 = some sub ∨ (removeDirectory e sub q).1 = none ∧ sub = .nil := by
  rw [removeDirectory]
  cases e.unlinkError with
  | some error => exact Or.inl rfl
  | none => by_cases empty : sub = .nil <;> simp [empty]

theorem cleanEntry_directory (p : CString) (mountpoint : Bool) (maxdepth : Nat) {e : Entry}
    (sub : Listing) (inside : Listing × Option Errno) (directory : e.stat.type = .directory) :
    let left := (cleanEntry S cutoff rootdev p mountpoint maxdepth e sub inside).1
    left = some sub ∨ left = some inside.1 ∨ left = none ∧ (sub = .nil ∨ inside.1 = .nil) := by
  rw [cleanEntry]
  have whole := removeDirectory_left e sub none
  have rest := removeDirectory_left e inside.1 inside.2
  cases e.statError with
  | some error => exact Or.inl rfl
  | none =>
    cases e.openError <;>
      split_ifs <;> simp_all <;> tauto

def handled (S : Setting) (cutoff rootdev : Nat) (p : CString) (mountpoint : Bool) (maxdepth : Nat)
    (e : Entry) (sub : Listing) : Option Listing :=
  (cleanEntry S cutoff rootdev p mountpoint maxdepth e sub
    (dirCleanup S cutoff rootdev (subPath p e.name) false (maxdepth - 1) sub)).1

theorem dirCleanup_entry (p : CString) (mountpoint : Bool) (maxdepth : Nat) (e : Entry)
    (sub rest : Listing) :
    (dirCleanup S cutoff rootdev p mountpoint maxdepth (.entry e sub rest)).1 =
      match handled S cutoff rootdev p mountpoint maxdepth e sub with
      | some left => .entry e left (dirCleanup S cutoff rootdev p mountpoint maxdepth rest).1
      | none => (dirCleanup S cutoff rootdev p mountpoint maxdepth rest).1 := by
  simp only [dirCleanup, handled]
  cases (cleanEntry S cutoff rootdev p mountpoint maxdepth e sub
    (dirCleanup S cutoff rootdev (subPath p e.name) false (maxdepth - 1) sub)).1 <;> rfl

theorem dirCleanup_names (p : CString) (mountpoint : Bool) (maxdepth : Nat) (content : Listing) :
    (dirCleanup S cutoff rootdev p mountpoint maxdepth content).1.names ⊆ content.names := by
  induction content with
  | nil => simp [dirCleanup, Listing.names]
  | entry e sub rest _ ih =>
    rw [dirCleanup_entry]
    cases handled S cutoff rootdev p mountpoint maxdepth e sub with
    | none => exact fun name present => mem_cons_of_mem _ (ih present)
    | some left => exact cons_subset_cons _ ih

theorem dirCleanup_find_rest (p : CString) (mountpoint : Bool) (maxdepth : Nat) (sub rest : Listing)
    {name : FileName} (ne : e.name ≠ name) (below : List FileName) :
    (dirCleanup S cutoff rootdev p mountpoint maxdepth (.entry e sub rest)).1.find (name :: below) =
      (dirCleanup S cutoff rootdev p mountpoint maxdepth rest).1.find (name :: below) := by
  rw [dirCleanup_entry]
  cases handled S cutoff rootdev p mountpoint maxdepth e sub with
  | none => rfl
  | some left => exact Listing.find_rest e left _ ne below

theorem dirCleanup_find_head (p : CString) (mountpoint : Bool) (maxdepth : Nat) (sub : Listing)
    (missing : e.name ∉ rest.names) (below : List FileName) :
    (dirCleanup S cutoff rootdev p mountpoint maxdepth (.entry e sub rest)).1.find (e.name :: below) =
      (handled S cutoff rootdev p mountpoint maxdepth e sub).bind fun left =>
        if below = [] then some e else left.find below := by
  have gone : e.name ∉ (dirCleanup S cutoff rootdev p mountpoint maxdepth rest).1.names :=
    fun present => missing (dirCleanup_names p mountpoint maxdepth rest present)
  rw [dirCleanup_entry]
  cases handled S cutoff rootdev p mountpoint maxdepth e sub with
  | none => exact Listing.find_missing below gone
  | some left => simp [Listing.find]

section above

variable {e : Entry} {sub rest : Listing} {name : FileName} {below front : List FileName} {above : Entry}

theorem above_rest (ne : e.name ≠ name) :
    Above (name :: below) (.entry e sub rest) front above ↔ Above (name :: below) rest front above := by
  constructor <;>
  · rintro ⟨nonempty, ahead, found⟩
    refine ⟨nonempty, ahead, ?_⟩
    obtain ⟨first, others, rfl⟩ := exists_cons_of_ne_nil nonempty
    obtain ⟨rfl, -⟩ := cons_prefix_cons.mp ahead
    simpa [Listing.find_rest e sub rest ne] using found

theorem above_head : Above (e.name :: below) (.entry e sub rest) [e.name] e :=
  ⟨cons_ne_nil _ _, ⟨below, rfl⟩, Listing.find_head e sub rest⟩

theorem above_below (higher : Above below sub front above) :
    Above (e.name :: below) (.entry e sub rest) (e.name :: front) above := by
  obtain ⟨nonempty, ahead, found⟩ := higher
  refine ⟨cons_ne_nil _ _, cons_prefix_cons.mpr ⟨rfl, ahead⟩, ?_⟩
  rw [Listing.find_below e sub rest nonempty]
  exact found

theorem above_cases (higher : Above (e.name :: below) (.entry e sub rest) front above) :
    front = [e.name] ∧ above = e ∨
      ∃ deeper, front = e.name :: deeper ∧ Above below sub deeper above := by
  obtain ⟨nonempty, ahead, found⟩ := higher
  obtain ⟨first, deeper, rfl⟩ := exists_cons_of_ne_nil nonempty
  obtain ⟨rfl, onward⟩ := cons_prefix_cons.mp ahead
  by_cases last : deeper = []
  next =>
    subst last
    rw [Listing.find_head] at found
    exact Or.inl ⟨rfl, (Option.some.inj found).symm⟩
  next =>
    rw [Listing.find_below e sub rest last] at found
    exact Or.inr ⟨deeper, rfl, last, onward, found⟩

end above

def Guarded (S : Setting) (cutoff rootdev : Nat) (p : CString) (content : Listing)
    (names : List FileName) (e : Entry) : Prop :=
  (∃ front above, Above names content front above ∧ Protected S rootdev (entryPath p front) above) ∨
    e.stat.type ≠ .directory ∧ InUse S cutoff (entryPath p names) e

theorem entryPath_single (elsewhere : p ≠ root) (name : FileName) :
    entryPath p [name] = subPath p name := by
  rw [entryPath_cons elsewhere, entryPath]

theorem guarded_head (elsewhere : p ≠ root)
    (guarded : Guarded S cutoff rootdev p (.entry e sub rest) [e.name] e) :
    Protected S rootdev (subPath p e.name) e ∨
      e.stat.type ≠ .directory ∧ InUse S cutoff (subPath p e.name) e := by
  rw [Guarded, entryPath_single elsewhere] at guarded
  obtain ⟨front, above, higher, guard⟩ | busy := guarded
  next =>
    obtain ⟨rfl, rfl⟩ | ⟨deeper, -, deep, ahead, -⟩ := above_cases higher
    next =>
      rw [entryPath_single elsewhere] at guard
      exact Or.inl guard
    next => exact absurd (prefix_nil.mp ahead) deep
  next => exact Or.inr busy

theorem guarded_below (elsewhere : p ≠ root) {target : Entry}
    (guarded : Guarded S cutoff rootdev p (.entry e sub rest) (e.name :: below) target) :
    Protected S rootdev (subPath p e.name) e ∨
      Guarded S cutoff rootdev (subPath p e.name) sub below target := by
  rw [Guarded, entryPath_cons elsewhere] at guarded
  obtain ⟨front, above, higher, guard⟩ | busy := guarded
  next =>
    obtain ⟨rfl, rfl⟩ | ⟨deeper, rfl, within⟩ := above_cases higher
    next =>
      rw [entryPath_single elsewhere] at guard
      exact Or.inl guard
    next =>
      rw [entryPath_cons elsewhere] at guard
      exact Or.inr (Or.inl ⟨deeper, above, within, guard⟩)
  next => exact Or.inr (Or.inr busy)

theorem guarded_rest {target : Entry} {name : FileName} (ne : e.name ≠ name)
    (guarded : Guarded S cutoff rootdev p (.entry e sub rest) (name :: below) target) :
    Guarded S cutoff rootdev p rest (name :: below) target := by
  obtain ⟨front, above, higher, guard⟩ | busy := guarded
  next => exact Or.inl ⟨front, above, (above_rest ne).mp higher, guard⟩
  next => exact Or.inr busy

theorem handled_guarded (p : CString) (mountpoint : Bool) (maxdepth : Nat) (sub : Listing) (kept :
      Protected S rootdev (subPath p e.name) e ∨ e.stat.type ≠ .directory ∧ InUse S cutoff (subPath p
      e.name) e) : handled S cutoff rootdev p mountpoint maxdepth e sub = some sub := by
  obtain general | ⟨file, busy⟩ := kept
  next => exact cleanEntry_spared maxdepth sub _ (Or.inl (spared_iff.mpr general))
  next =>
    exact cleanEntry_spared maxdepth sub _
      (Or.inr ⟨file, inUse_spared mountpoint busy⟩)

-- A directory with something in it that stays is not removed.
theorem handled_occupied (p : CString) (mountpoint : Bool) (maxdepth : Nat)
    (directory : e.stat.type = .directory) (found : (sub.find below).isSome) (stays : ((dirCleanup S
      cutoff rootdev (subPath p e.name) false (maxdepth - 1) sub).1.find below).isSome) :
    ∃ left, handled S cutoff rootdev p mountpoint maxdepth e sub = some left ∧
      (left.find below).isSome := by
  obtain whole | rest | ⟨-, empty | empty⟩ :=
    @cleanEntry_directory S cutoff rootdev p mountpoint maxdepth e sub
      (dirCleanup S cutoff rootdev (subPath p e.name) false (maxdepth - 1) sub) directory
  next => exact ⟨sub, whole, found⟩
  next => exact ⟨_, rest, stays⟩
  next => simp [empty, Listing.find_nil] at found
  next => simp [empty, Listing.find_nil] at stays

theorem dirCleanup_keeps {content : Listing} (wellFormed : content.WellFormed) (elsewhere : p ≠ root)
    (mountpoint : Bool) (maxdepth : Nat) {names : List FileName} (found : content.find names = some e)
    (guarded : Guarded S cutoff rootdev p content names e) :
    ((dirCleanup S cutoff rootdev p mountpoint maxdepth content).1.find names).isSome := by
  induction content generalizing p mountpoint maxdepth names with
  | nil => simp [Listing.find_nil] at found
  | entry first sub rest ihSub ihRest =>
    obtain ⟨missing, plain, wellFormedSub, wellFormedRest⟩ := wellFormed
    cases names with
    | nil => simp [Listing.find] at found
    | cons name below =>
      by_cases ne : first.name = name
      next =>
        subst ne
        rw [dirCleanup_find_head p mountpoint maxdepth sub missing below]
        by_cases last : below = []
        next =>
          subst last
          rw [Listing.find_head] at found
          cases found
          rw [handled_guarded p mountpoint maxdepth sub (guarded_head elsewhere guarded)]
          rfl
        next =>
          rw [Listing.find_below first sub rest last] at found
          obtain here | deeper := guarded_below elsewhere guarded
          next =>
            rw [handled_guarded p mountpoint maxdepth sub (Or.inl here)]
            simp [last, found]
          next =>
            have directory : first.stat.type = .directory := by
              by_contra file
              simp [plain file, Listing.find_nil] at found
            have stays := ihSub wellFormedSub (subPath_ne_root p first.name) false (maxdepth - 1)
              found deeper
            obtain ⟨left, kept, within⟩ := handled_occupied p mountpoint maxdepth directory
              (by simp [found]) stays
            simpa [kept, last] using within
      next =>
        rw [dirCleanup_find_rest p mountpoint maxdepth sub rest ne below]
        rw [Listing.find_rest first sub rest ne] at found
        exact ihRest wellFormedRest elsewhere mountpoint maxdepth found (guarded_rest ne guarded)

end

end Systemd.Tmpfiles
