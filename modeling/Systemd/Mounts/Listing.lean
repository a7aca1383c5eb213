import Systemd.Mounts.Table

set_option autoImplicit false

namespace Systemd.Mounts

open List Option

namespace MountManager

@[simp] theorem update_self (m : MountManager) (unit : CString) (change : Mount -> Mount) :
    (m.update unit change).mount unit = change (m.mount unit) := by
  simp [update]

@[simp] theorem update_of_ne (m : MountManager) {unit other : CString} (change : Mount -> Mount)
    (ne : other ≠ unit) : (m.update unit change).mount other = m.mount other := by
  simp [update, ne]

structure Known (m : MountManager) : Prop where
  nodup : m.unitsByType.Nodup
  unlisted : ∀ unit, unit ∉ m.unitsByType -> m.mount unit = {}

theorem Known.empty : Known {} where
  nodup := nodup_nil
  unlisted := fun _ _ => rfl

variable {m : MountManager} {unit : CString}

theorem Known.update (known : m.Known) (present : unit ∈ m.unitsByType) (change : Mount -> Mount) :
    (m.update unit change).Known := by
  refine ⟨known.nodup, fun other absent => ?_⟩
  have ne : other ≠ unit := fun same => absent (same ▸ present)
  rw [update_of_ne m change ne]
  exact known.unlisted other absent

theorem Known.unitNew (known : m.Known) (absent : unit ∉ m.unitsByType) : (unitNew m unit).Known := by
  refine ⟨nodup_cons.mpr ⟨absent, known.nodup⟩, fun other missing => ?_⟩
  obtain ⟨ne, missing⟩ := not_or.mp (mt mem_cons.mpr missing)
  simpa [Mounts.unitNew, ne] using known.unlisted other missing

theorem unitNew_mount (known : m.Known) (absent : unit ∉ m.unitsByType) :
    (unitNew m unit).mount = m.mount := by
  funext other
  by_cases same : other = unit
  next =>
    subst same
    simp [Mounts.unitNew, known.unlisted other absent]
  next => simp [Mounts.unitNew, same]

end MountManager

open MountManager (Known unitNew_mount)

section adding

variable {m : MountManager}

def present (m : MountManager) (unit : CString) : MountManager :=
  if unit ∈ m.unitsByType then m else unitNew m unit

theorem present_mem (m : MountManager) (unit : CString) : unit ∈ (present m unit).unitsByType := by
  by_cases known : unit ∈ m.unitsByType <;> simp [present, known, unitNew]

variable (unit : CString)

theorem present_grows {other : CString} (known : other ∈ m.unitsByType) :
    other ∈ (present m unit).unitsByType := by
  by_cases named : unit ∈ m.unitsByType <;> simp [present, named, known, unitNew]

theorem present_known (known : m.Known) : (present m unit).Known := by
  by_cases named : unit ∈ m.unitsByType
  next => simpa [present, named] using known
  next => simpa [present, named] using known.unitNew named

theorem present_mount (known : m.Known) : (present m unit).mount = m.mount := by
  by_cases named : unit ∈ m.unitsByType
  next => simp [present, named]
  next => simpa [present, named] using unitNew_mount known named

def describe (fromProcSelfMountinfo setFlags : Bool) (line : MountLine) (mount : Mount) : Mount :=
  if fromProcSelfMountinfo then fromMountinfoLine line setFlags mount
  else fromEtcFstabLine line mount

variable {line : MountLine}

theorem mountAddOne_skipped (skipped : line.skipped = true) (fromProcSelfMountinfo setFlags : Bool) :
    mountAddOne m line fromProcSelfMountinfo setFlags = (m, none) := by
  simp [mountAddOne, skipped]

theorem mountAddOne_cases (read : line.skipped = false) (fromProcSelfMountinfo setFlags : Bool) :
    (unitOf line.place ∉ m.unitsByType ∧
        ∃ r, mountAddOne m line fromProcSelfMountinfo setFlags = (m, some r)) ∨
      mountAddOne m line fromProcSelfMountinfo setFlags =
        ((present m (unitOf line.place)).update (unitOf line.place)
          (describe fromProcSelfMountinfo setFlags line), none) := by
  by_cases named : unitOf line.place ∈ m.unitsByType
  next =>
    refine Or.inr ?_
    simp only [mountAddOne, read, named, present, if_true, if_false, Bool.false_eq_true]
    rfl
  next =>
    cases failed : unitAddName m (unitOf line.place) with
    | some r => exact Or.inl ⟨named, r, by simp [mountAddOne, read, named, failed]⟩
    | none =>
      refine Or.inr ?_
      simp only [mountAddOne, read, named, failed, present, if_false, Bool.false_eq_true]
      rfl

theorem mountAddOne_known (known : m.Known) (line : MountLine) (fromProcSelfMountinfo setFlags : Bool) :
    (mountAddOne m line fromProcSelfMountinfo setFlags).1.Known ∧
      ∀ unit ∈ m.unitsByType,
        unit ∈ (mountAddOne m line fromProcSelfMountinfo setFlags).1.unitsByType := by
  cases read : line.skipped with
  | true => simp [mountAddOne_skipped read, known]
  | false =>
    obtain ⟨-, r, failed⟩ | added := mountAddOne_cases (m := m) read fromProcSelfMountinfo setFlags
    next => simp [failed, known]
    next =>
      rw [added]
      have new := present_known (unitOf line.place) known
      exact ⟨new.update (present_mem m _) _, fun unit named => present_grows _ named⟩

def described (fromProcSelfMountinfo setFlags : Bool) (lines : List MountLine) (mount : Mount) : Mount :=
  lines.foldl (fun mount line => describe fromProcSelfMountinfo setFlags line mount) mount

theorem mountAddOne_mount (known : m.Known) (line : MountLine) (fromProcSelfMountinfo setFlags : Bool)
    (unit : CString) (entered : unit ∈ m.unitsByType ∨ listing [line] unit = [] ∨ (mountAddOne m line
      fromProcSelfMountinfo setFlags).2 = none) :
    (mountAddOne m line fromProcSelfMountinfo setFlags).1.mount unit =
      described fromProcSelfMountinfo setFlags (listing [line] unit) (m.mount unit) := by
  cases read : line.skipped with
  | true => simp [mountAddOne_skipped read, listing, read, described]
  | false =>
    obtain ⟨missing, r, failed⟩ | added :=
      mountAddOne_cases (m := m) read fromProcSelfMountinfo setFlags
    next =>
      rw [failed] at entered ⊢
      have other : unitOf line.place ≠ unit := by
        rintro rfl
        obtain named | elsewhere | ok := entered
        next => exact missing named
        next => simp [listing, read] at elsewhere
        next => cases ok
      simp [listing, other, described]
    next =>
      rw [added]
      by_cases same : unitOf line.place = unit
      next =>
        subst same
        simp [listing, read, described, present_mount _ known]
      next =>
        simp [listing, same, described, present_mount _ known, Ne.symm same]

end adding

section reading

variable {m : MountManager} (fromProcSelfMountinfo setFlags : Bool)

theorem listing_cons (line : MountLine) (rest : List MountLine) (unit : CString) :
    listing (line :: rest) unit = listing [line] unit ++ listing rest unit := by
  rw [listing, ← singleton_append, filter_append]
  rfl

theorem described_append (first second : List MountLine) (mount : Mount) :
    described fromProcSelfMountinfo setFlags (first ++ second) mount =
      described fromProcSelfMountinfo setFlags second
        (described fromProcSelfMountinfo setFlags first mount) :=
  foldl_append

theorem readLine_eq (r : Option RegistryErrno) (line : MountLine) :
    readLine fromProcSelfMountinfo setFlags (m, r) line =
      ((mountAddOne m line fromProcSelfMountinfo setFlags).1,
        (mountAddOne m line fromProcSelfMountinfo setFlags).2.or r) :=
  rfl

theorem lines_known (known : m.Known) (lines : List MountLine) (r : Option RegistryErrno) :
    (lines.foldl (readLine fromProcSelfMountinfo setFlags) (m, r)).1.Known ∧
      ∀ unit ∈ m.unitsByType,
        unit ∈ (lines.foldl (readLine fromProcSelfMountinfo setFlags) (m, r)).1.unitsByType := by
  induction lines generalizing m r with
  | nil => exact ⟨known, fun _ named => named⟩
  | cons line rest ih =>
    obtain ⟨next, grows⟩ := mountAddOne_known known line fromProcSelfMountinfo setFlags
    obtain ⟨last, later⟩ := ih next ((mountAddOne m line fromProcSelfMountinfo setFlags).2.or r)
    rw [foldl_cons, readLine_eq]
    exact ⟨last, fun unit named => later unit (grows unit named)⟩

theorem lines_error (lines : List MountLine) (r : Option RegistryErrno)
    (ok : (lines.foldl (readLine fromProcSelfMountinfo setFlags) (m, r)).2 = none) : r = none := by
  induction lines generalizing m r with
  | nil => exact ok
  | cons line rest ih =>
    rw [foldl_cons, readLine_eq] at ok
    exact (or_eq_none_iff.mp (ih _ ok)).2

theorem lines_mount (known : m.Known) (lines : List MountLine) (r : Option RegistryErrno)
    (unit : CString) (entered : unit ∈ m.unitsByType ∨ listing lines unit = [] ∨ (lines.foldl (readLine
      fromProcSelfMountinfo setFlags) (m, r)).2 = none) :
    (lines.foldl (readLine fromProcSelfMountinfo setFlags) (m, r)).1.mount unit =
      described fromProcSelfMountinfo setFlags (listing lines unit) (m.mount unit) := by
  induction lines generalizing m r with
  | nil => rfl
  | cons line rest ih =>
    obtain ⟨next, grows⟩ := mountAddOne_known known line fromProcSelfMountinfo setFlags
    rw [foldl_cons, readLine_eq] at entered ⊢
    rw [listing_cons] at entered ⊢
    have first := mountAddOne_mount known line fromProcSelfMountinfo setFlags unit
    rw [ih next _ ?_, first ?_, described_append]
    next =>
      obtain named | elsewhere | ok := entered
      next => exact Or.inl named
      next => exact Or.inr (Or.inl (append_eq_nil_iff.mp elsewhere).1)
      next =>
        have clean := lines_error fromProcSelfMountinfo setFlags rest _ ok
        exact Or.inr (Or.inr (or_eq_none_iff.mp clean).1)
    next =>
      obtain named | elsewhere | ok := entered
      next => exact Or.inl (grows unit named)
      next => exact Or.inr (Or.inl (append_eq_nil_iff.mp elsewhere).2)
      next => exact Or.inr (Or.inr ok)

theorem mountAddOne_state (known : m.Known) (line : MountLine) (unit : CString) :
    let after := (mountAddOne m line fromProcSelfMountinfo setFlags).1.mount unit
    after.state = (m.mount unit).state ∧ after.controlPid = (m.mount unit).controlPid := by
  cases read : line.skipped with
  | true => simp [mountAddOne_skipped read]
  | false =>
    obtain ⟨-, r, failed⟩ | added := mountAddOne_cases (m := m) read fromProcSelfMountinfo setFlags
    next => simp [failed]
    next =>
      rw [added]
      by_cases same : unit = unitOf line.place
      next =>
        subst same
        cases fromProcSelfMountinfo <;>
          simp [present_mount _ known, describe, fromMountinfoLine, fromEtcFstabLine]
      next => simp [same, present_mount _ known]

theorem lines_state (known : m.Known) (lines : List MountLine) (r : Option RegistryErrno)
    (unit : CString) :
    let after := (lines.foldl (readLine fromProcSelfMountinfo setFlags) (m, r)).1.mount unit
    after.state = (m.mount unit).state ∧ after.controlPid = (m.mount unit).controlPid := by
  induction lines generalizing m r with
  | nil => exact ⟨rfl, rfl⟩
  | cons line rest ih =>
    obtain ⟨next, -⟩ := mountAddOne_known known line fromProcSelfMountinfo setFlags
    obtain ⟨state, pid⟩ := mountAddOne_state fromProcSelfMountinfo setFlags known line unit
    obtain ⟨later, last⟩ := ih next ((mountAddOne m line fromProcSelfMountinfo setFlags).2.or r)
    rw [foldl_cons, readLine_eq]
    exact ⟨later.trans state, last.trans pid⟩

theorem fstab_mount (known : m.Known) (lines : List MountLine) (r : Option RegistryErrno)
    (unit : CString) :
    ∃ parameters from_etc_fstab,
      (lines.foldl (readLine false false) (m, r)).1.mount unit =
        { m.mount unit with parametersEtcFstab := parameters, fromEtcFstab := from_etc_fstab } := by
  induction lines generalizing m r with
  | nil => exact ⟨_, _, rfl⟩
  | cons line rest ih =>
    obtain ⟨next, -⟩ := mountAddOne_known known line false false
    have first : ∃ parameters from_etc_fstab, (mountAddOne m line false false).1.mount unit =
        { m.mount unit with parametersEtcFstab := parameters, fromEtcFstab := from_etc_fstab } := by
      cases read : line.skipped with
      | true => exact ⟨_, _, by rw [mountAddOne_skipped read]⟩
      | false =>
        obtain ⟨-, r, failed⟩ | added := mountAddOne_cases (m := m) read false false
        next => exact ⟨_, _, by rw [failed]⟩
        next =>
          rw [added]
          by_cases same : unit = unitOf line.place
          next =>
            subst same
            refine ⟨line.parameters, true, ?_⟩
            simp [present_mount _ known, describe, fromEtcFstabLine]
          next => exact ⟨_, _, by simp [same, present_mount _ known]; rfl⟩
    obtain ⟨parameters, from_etc_fstab, last⟩ :=
      ih next ((mountAddOne m line false false).2.or r)
    obtain ⟨_, _, first⟩ := first
    rw [foldl_cons, readLine_eq]
    exact ⟨parameters, from_etc_fstab, by rw [last, first]⟩

theorem pullIn_kept (known : m.Known) (pulled : CString) :
    (pullIn m pulled).Known ∧ (pullIn m pulled).mount = m.mount :=
  ⟨present_known pulled known, present_mount pulled known⟩

theorem managerDispatchLoadQueue_kept (known : m.Known) (pulled : List CString) :
    (managerDispatchLoadQueue m pulled).Known ∧ (managerDispatchLoadQueue m pulled).mount = m.mount := by
  have folded : (pulled.foldl pullIn m).Known ∧ (pulled.foldl pullIn m).mount = m.mount := by
    induction pulled generalizing m with
    | nil => exact ⟨known, rfl⟩
    | cons first rest ih =>
      obtain ⟨next, same⟩ := pullIn_kept known first
      obtain ⟨last, later⟩ := ih next
      exact ⟨last, later.trans same⟩
  exact ⟨⟨folded.1.nodup, folded.1.unlisted⟩, folded.2⟩

end reading

section loop

variable {m : MountManager}

theorem update_loop (change : Mount -> Mount) {units : List CString} (once : units.Nodup)
    (m : MountManager) :
    (units.foldl (fun m unit => m.update unit change) m).unitsByType = m.unitsByType ∧
      ∀ unit, (units.foldl (fun m unit => m.update unit change) m).mount unit =
        if unit ∈ units then change (m.mount unit) else m.mount unit := by
  induction units generalizing m with
  | nil => simp
  | cons first rest ih =>
    obtain ⟨missing, once⟩ := nodup_cons.mp once
    obtain ⟨same, handled⟩ := ih once (m.update first change)
    refine ⟨same, fun unit => ?_⟩
    rw [foldl_cons, handled unit]
    by_cases head : unit = first
    next =>
      subst head
      simp [missing]
    next => simp [head]

theorem update_loop_known (change : Mount -> Mount) (blank : change {} = {}) (known : m.Known) :
    (m.unitsByType.foldl (fun m unit => m.update unit change) m).Known ∧
      ∀ unit, (m.unitsByType.foldl (fun m unit => m.update unit change) m).mount unit =
        change (m.mount unit) := by
  obtain ⟨same, handled⟩ := update_loop change known.nodup m
  have all (unit : CString) :
      (m.unitsByType.foldl (fun m unit => m.update unit change) m).mount unit =
        change (m.mount unit) := by
    rw [handled unit]
    by_cases named : unit ∈ m.unitsByType
    next => rw [if_pos named]
    next => rw [if_neg named, known.unlisted unit named, blank]
  refine ⟨⟨by simpa [same] using known.nodup, fun unit absent => ?_⟩, all⟩
  rw [same] at absent
  rw [all unit, known.unlisted unit absent, blank]

end loop

end Systemd.Mounts
