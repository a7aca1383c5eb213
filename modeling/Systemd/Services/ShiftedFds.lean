import Mathlib.Data.List.Nodup
import Mathlib.Data.List.Range
import Mathlib.Logic.Function.Basic
import Systemd.Shared.Program

set_option autoImplicit false

namespace Systemd.ShiftedFds

open Program List Option Function

inductive FdErrno where
  | ebadf
  | emfile
  -- What else the kernel may say.
  | other (code : Nat)
  deriving DecidableEq

/-- The array of passed descriptors, and the open files that the descriptors of the process refer to. -/
structure Fds (F : Type) where
  fds : List Nat
  files : Nat -> Option F

structure Kernel (F : Type) where
  limit : Nat
  refuses : (Nat -> Option F) -> Nat -> Nat -> Option FdErrno

section

variable {F : Type}

def lowestFree (files : Nat -> Option F) (limit least : Nat) : Option Nat :=
  (List.range' least (limit - least)).find? fun nfd => (files nfd).isNone

def dupfd (kernel : Kernel F) (fd least : Nat) : Program (Fds F) FdErrno Nat := fun s =>
  match s.files fd with
  | none => some (.error .ebadf, s)
  | some file =>
    match kernel.refuses s.files fd least with
    | some e => some (.error e, s)
    | none =>
      match lowestFree s.files kernel.limit least with
      | none => some (.error .emfile, s)
      | some nfd => some (.ok nfd, { s with files := update s.files nfd (some file) })

-- It is an error in the program to close what is not open.
def closeNointrNofail (fd : Nat) : Program (Fds F) FdErrno Unit := fun s =>
  if (s.files fd).isSome then
    some (.ok (), { s with files := update s.files fd none })
  else
    none

def entry (i : Nat) : Program (Fds F) FdErrno Nat := fun s =>
  (s.fds[i]?).map fun fd => (.ok fd, s)

def setEntry (i fd : Nat) : Program (Fds F) FdErrno Unit :=
  change fun s => { s with fds := s.fds.set i fd }

def shiftPass (kernel : Kernel F) : List Nat -> Option Nat -> Program (Fds F) FdErrno (Option Nat)
  | [], restartFrom => pure restartFrom
  | i :: rest, restartFrom => do
    let fd ← entry i
    if fd = i + 3 then
      shiftPass kernel rest restartFrom
    else
      let nfd ← dupfd kernel fd (i + 3)
      closeNointrNofail fd
      setEntry i nfd
      shiftPass kernel rest (if nfd ≠ i + 3 ∧ restartFrom = none then some i else restartFrom)

def shiftLoop (kernel : Kernel F) (nFds : Nat) : Nat -> Nat -> Program (Fds F) FdErrno Unit
  | 0, _ => abort
  | fuel + 1, start => do
    match ← shiftPass kernel (List.range' start (nFds - start)) none with
    | none => pure ()
    | some restartFrom => shiftLoop kernel nFds fuel restartFrom

def shiftFds (kernel : Kernel F) (fuel : Nat) : Program (Fds F) FdErrno Unit := do
  let s ← read
  if s.fds.length = 0 then
    pure ()
  else
    shiftLoop kernel s.fds.length fuel 0

-- The last call was the duplicate of an entry, and it answered e.
def Refused (kernel : Kernel F) (e : FdErrno) (s : Fds F) : Prop :=
  ∃ i fd : Nat, s.fds[i]? = some fd ∧ dupfd kernel fd (i + 3) s = some (.error e, s)

structure Passed (s : Fds F) : Prop where
  distinct : s.fds.Nodup
  isOpen : ∀ fd ∈ s.fds, 3 ≤ fd ∧ (s.files fd).isSome = true
  closed : ∀ fd, 3 ≤ fd -> fd ∉ s.fds -> s.files fd = none

structure Shifted (s s' : Fds F) : Prop where
  passed : Passed s'
  length : s'.fds.length = s.fds.length
  files : ∀ (i fd fd' : Nat), s.fds[i]? = some fd -> s'.fds[i]? = some fd' -> s'.files fd' = s.files fd
  low : ∀ fd < 3, s'.files fd = s.files fd

section

variable {kernel : Kernel F} {s s' s0 : Fds F} {files : Nat -> Option F} {limit least fd nfd i : Nat}

theorem lowestFree_some (found : lowestFree files limit least = some nfd) :
    least ≤ nfd ∧ files nfd = none := by
  have mem := mem_of_find?_eq_some found
  rw [mem_range'_1] at mem
  exact ⟨mem.1, by simpa using find?_some found⟩

theorem lowestFree_first (free : files least = none) (found : lowestFree files limit least = some nfd) :
    nfd = least := by
  unfold lowestFree at found
  cases room : limit - least with
  | zero =>
    rw [room] at found
    cases found
  | succ k =>
    rw [room, range'_succ, find?_cons_of_pos (by simp [free])] at found
    exact (some.inj found).symm

theorem dupfd_error {e : FdErrno} (failed : dupfd kernel fd least s = some (.error e, s')) : s' = s := by
  unfold dupfd at failed
  repeat' split at failed
  all_goals cases failed
  all_goals rfl

theorem Shifted.refl (passed : Passed s) : Shifted s s where
  passed := passed
  length := rfl
  files i fd fd' here here' := by
    obtain rfl := some.inj (here.symm.trans here')
    rfl
  low _ _ := rfl

theorem Shifted.trans (first : Shifted s0 s) (second : Shifted s s') : Shifted s0 s' where
  passed := second.passed
  length := second.length.trans first.length
  files i fd fd' here here' := by
    have inside : i < s.fds.length := by
      rw [← second.length]
      exact (List.getElem?_eq_some_iff.mp here').1
    have middle := getElem?_eq_getElem inside
    exact (second.files i _ fd' middle here').trans (first.files i fd _ here middle)
  low fd low := (second.low fd low).trans (first.low fd low)

theorem mem_set_entry {fds : List Nat} (distinct : fds.Nodup) (here : fds[i]? = some fd) (x : Nat) :
    x ∈ fds.set i nfd ↔ x = nfd ∨ (x ∈ fds ∧ x ≠ fd) := by
  have inside := (List.getElem?_eq_some_iff.mp here).1
  constructor
  · intro mem
    obtain ⟨j, there⟩ := mem_iff_getElem?.mp mem
    by_cases same : i = j
    · subst same
      rw [getElem?_set_self inside] at there
      exact .inl (some.inj there).symm
    · rw [getElem?_set_ne same] at there
      refine .inr ⟨mem_of_getElem? there, ?_⟩
      rintro rfl
      exact same ((getElem?_inj inside distinct).mp (here.trans there.symm))
  · rintro (rfl | ⟨mem, other⟩)
    · exact mem_set inside x
    · obtain ⟨j, there⟩ := mem_iff_getElem?.mp mem
      have apart : i ≠ j := by
        rintro rfl
        exact other (some.inj (there.symm.trans here))
      exact mem_of_getElem? ((getElem?_set_ne apart).trans there)

def Fds.moved (s : Fds F) (i fd nfd : Nat) (file : F) : Fds F where
  fds := s.fds.set i nfd
  files := update (update s.files nfd (some file)) fd none

theorem Passed.move {file : F} (passed : Passed s) (here : s.fds[i]? = some fd)
    (refers : s.files fd = some file) (free : s.files nfd = none) (high : 3 ≤ nfd) :
    Shifted s (s.moved i fd nfd file) := by
  have inside := (List.getElem?_eq_some_iff.mp here).1
  have apart : nfd ≠ fd := by
    rintro rfl
    rw [refers] at free
    cases free
  have unlisted : nfd ∉ s.fds := by
    intro mem
    have used := (passed.isOpen nfd mem).2
    rw [free] at used
    cases used
  have elsewhere : ∀ x, x ≠ nfd -> x ≠ fd ->
      update (update s.files nfd (some file)) fd none x = s.files x := by
    intro x notNew notOld
    rw [update_of_ne notOld, update_of_ne notNew]
  have moved : update (update s.files nfd (some file)) fd none nfd = some file := by
    rw [update_of_ne apart, update_self]
  have members := fun x => @mem_set_entry fd nfd i s.fds passed.distinct here x
  constructor
  case passed =>
    refine ⟨List.Nodup.set passed.distinct unlisted, fun x mem => ?_, fun x big absent => ?_⟩
    · rcases (members x).mp mem with rfl | ⟨old, other⟩
      · exact ⟨high, congrArg Option.isSome moved⟩
      · obtain ⟨big, used⟩ := passed.isOpen x old
        have kept := elsewhere x (fun same => unlisted (same ▸ old)) other
        exact ⟨big, (congrArg Option.isSome kept).trans used⟩
    · by_cases old : x = fd
      · subst old
        exact update_self _ _ _
      · have notNew : x ≠ nfd := fun same => absent ((members x).mpr (.inl same))
        have unheard : x ∉ s.fds := fun mem => absent ((members x).mpr (.inr ⟨mem, old⟩))
        exact (elsewhere x notNew old).trans (passed.closed x big unheard)
  case length => exact length_set
  case files =>
    intro j x x' before after
    change (s.fds.set i nfd)[j]? = some x' at after
    by_cases same : i = j
    · subst same
      rw [getElem?_set_self inside] at after
      obtain rfl := some.inj after
      obtain rfl := some.inj (here.symm.trans before)
      exact moved.trans refers.symm
    · rw [getElem?_set_ne same, before] at after
      obtain rfl := some.inj after
      have notOld : x ≠ fd := by
        rintro rfl
        exact same ((getElem?_inj inside passed.distinct).mp (here.trans before.symm))
      exact elsewhere x (fun taken => unlisted (taken ▸ mem_of_getElem? before)) notOld
  case low =>
    intro x small
    have big := (passed.isOpen fd (mem_of_getElem? here)).1
    exact elsewhere x (by omega) (by omega)

/-- Where the pass stands before the entry i: up to the first entry that missed its place all are right,
and that place is taken by an entry that is still to be moved, if at all. -/
structure Passing (s : Fds F) (i : Nat) (restartFrom : Option Nat) : Prop where
  right : ∀ j < restartFrom.getD i, s.fds[j]? = some (j + 3)
  freed : ∀ r ∈ restartFrom, r < i ∧ ∀ j < i, s.fds[j]? ≠ some (r + 3)

theorem turn_run (passed : Passed s) (here : s.fds[i]? = some fd) (wrong : fd ≠ i + 3)
    (kernel : Kernel F) (rest : List Nat) (restartFrom : Option Nat) :
    (∃ e s', shiftPass kernel (i :: rest) restartFrom s = some (.error e, s') ∧ Refused kernel e s') ∨
      ∃ nfd s', Shifted s s' ∧ s'.fds = s.fds.set i nfd ∧ i + 3 ≤ nfd ∧
        (s.files (i + 3) = none -> nfd = i + 3) ∧
        shiftPass kernel (i :: rest) restartFrom s =
          shiftPass kernel rest (if nfd ≠ i + 3 ∧ restartFrom = none then some i else restartFrom) s' := by
  obtain ⟨-, used⟩ := passed.isOpen fd (mem_of_getElem? here)
  obtain ⟨file, refers⟩ := isSome_iff_exists.mp used
  have read : entry i s = some (.ok fd, s) := by
    rw [entry, here, map_some]
  cases duplicate : dupfd kernel fd (i + 3) s with
  | none =>
    unfold dupfd at duplicate
    rw [refers] at duplicate
    dsimp only at duplicate
    split at duplicate
    · cases duplicate
    · split at duplicate <;> cases duplicate
  | some ended =>
    obtain ⟨result, middle⟩ := ended
    cases result with
    | error e =>
      obtain rfl := dupfd_error duplicate
      refine .inl ⟨e, middle, bind_eq_some.mpr (.inr ⟨fd, middle, read, ?_⟩), i, fd, here, duplicate⟩
      rw [if_neg wrong]
      exact bind_eq_some.mpr (.inl ⟨e, duplicate, rfl⟩)
    | ok nfd =>
      obtain ⟨found, rfl⟩ : lowestFree s.files kernel.limit (i + 3) = some nfd ∧
          middle = ⟨s.fds, update s.files nfd (some file)⟩ := by
        unfold dupfd at duplicate
        rw [refers] at duplicate
        dsimp only at duplicate
        split at duplicate
        · cases duplicate
        · split at duplicate
          · cases duplicate
          next found =>
            cases duplicate
            exact ⟨found, rfl⟩
      obtain ⟨least, free⟩ := lowestFree_some found
      refine .inr ⟨nfd, s.moved i fd nfd file, passed.move here refers free (by omega), rfl, least,
        fun place => lowestFree_first place found, ?_⟩
      have apart : fd ≠ nfd := by
        rintro rfl
        rw [refers] at free
        cases free
      have closes : closeNointrNofail fd (⟨s.fds, update s.files nfd (some file)⟩ : Fds F) =
          some (.ok (), ⟨s.fds, (s.moved i fd nfd file).files⟩) := by
        rw [closeNointrNofail, if_pos]
        · rfl
        · have kept : update s.files nfd (some file) fd = some file :=
            (update_of_ne apart _ _).trans refers
          exact congrArg Option.isSome kept
      rw [shiftPass, bind_of_ok read, if_neg wrong, bind_of_ok duplicate, bind_of_ok closes]
      rfl

variable {restartFrom : Option Nat}

theorem Passing.stay (passing : Passing s i restartFrom) (here : s.fds[i]? = some (i + 3)) :
    Passing s (i + 1) restartFrom := by
  cases restartFrom with
  | none =>
    refine ⟨fun j below => ?_, by simp⟩
    rcases Nat.lt_succ_iff_lt_or_eq.mp below with before | rfl
    · exact passing.right j before
    · exact here
  | some r =>
    obtain ⟨before, freed⟩ := passing.freed r rfl
    refine ⟨passing.right, fun r' same => ?_⟩
    cases same
    refine ⟨by omega, fun j below => ?_⟩
    rcases Nat.lt_succ_iff_lt_or_eq.mp below with early | rfl
    · exact freed j early
    · rw [here, ne_eq, some.injEq]
      omega

theorem Passing.moved (passing : Passing s i restartFrom) (inside : i < s.fds.length)
    (fds : s'.fds = s.fds.set i nfd) (least : i + 3 ≤ nfd) :
    Passing s' (i + 1) (if nfd ≠ i + 3 ∧ restartFrom = none then some i else restartFrom) := by
  have own : s'.fds[i]? = some nfd := by
    rw [fds, getElem?_set_self inside]
  have others : ∀ j < i, s'.fds[j]? = s.fds[j]? := by
    intro j before
    rw [fds, getElem?_set_ne (by omega)]
  cases restartFrom with
  | none =>
    by_cases place : nfd = i + 3
    · rw [if_neg fun missed => missed.1 place]
      refine ⟨fun j below => ?_, by simp⟩
      rcases Nat.lt_succ_iff_lt_or_eq.mp below with before | rfl
      · exact (others j before).trans (passing.right j before)
      · exact own.trans (congrArg some place)
    · rw [if_pos ⟨place, rfl⟩]
      refine ⟨fun j before => (others j before).trans (passing.right j before), fun r same => ?_⟩
      cases same
      refine ⟨Nat.lt_succ_self i, fun j below => ?_⟩
      rcases Nat.lt_succ_iff_lt_or_eq.mp below with before | rfl
      · rw [others j before, passing.right j before, ne_eq, some.injEq]
        omega
      · rw [own, ne_eq, some.injEq]
        exact place
  | some r =>
    obtain ⟨before, freed⟩ := passing.freed r rfl
    rw [if_neg fun missed => nomatch missed.2]
    refine ⟨fun j below => ?_, fun r' same => ?_⟩
    · have below : j < r := below
      exact (others j (by omega)).trans (passing.right j below)
    · cases same
      refine ⟨by omega, fun j below => ?_⟩
      rcases Nat.lt_succ_iff_lt_or_eq.mp below with early | rfl
      · rw [others j early]
        exact freed j early
      · rw [own, ne_eq, some.injEq]
        omega

theorem shiftPass_run (kernel : Kernel F) {k : Nat} (passed : Passed s) (whole : i + k = s.fds.length)
    (passing : Passing s i restartFrom) :
    ∃ r s', shiftPass kernel (List.range' i k) restartFrom s = some (r, s') ∧
      (∀ e, r = .error e -> Refused kernel e s') ∧
      ∀ restart, r = .ok restart -> Shifted s s' ∧ Passing s' s.fds.length restart ∧
        ∀ e ∈ restart, e ∈ restartFrom ∨ i ≤ e ∧ (e = i -> s.files (i + 3) ≠ none) := by
  induction k generalizing s i restartFrom with
  | zero =>
    refine ⟨.ok restartFrom, s, rfl, fun e same => (nomatch same), fun restart same => ?_⟩
    cases same
    exact ⟨.refl passed, whole ▸ passing, fun e there => .inl there⟩
  | succ k ih =>
    have inside : i < s.fds.length := by omega
    have here := getElem?_eq_getElem inside
    rw [range'_succ]
    by_cases right : s.fds[i] = i + 3
    · rw [right] at here
      have read : entry i s = some (.ok (i + 3), s) := by
        rw [entry, here, map_some]
      obtain ⟨r, s', run, refused, ended⟩ := ih passed (by omega) (passing.stay here)
      refine ⟨r, s', ?_, refused, fun restart same => ?_⟩
      · rw [shiftPass, bind_of_ok read, if_pos rfl]
        exact run
      · obtain ⟨shifted, passing', later⟩ := ended restart same
        refine ⟨shifted, passing', fun e there => (later e there).imp id fun after => ?_⟩
        exact ⟨by omega, fun first => by omega⟩
    · rcases turn_run passed here right kernel (List.range' (i + 1) k) restartFrom with
        ⟨e, s', run, refused⟩ | ⟨nfd, s', shifted, fds, least, first, run⟩
      · refine ⟨.error e, s', run, fun e' same => ?_, fun restart same => nomatch same⟩
        cases same
        exact refused
      · have length : s'.fds.length = s.fds.length := shifted.length
        obtain ⟨r, s'', run', refused, ended⟩ :=
          ih shifted.passed (by omega) (passing.moved inside fds least)
        refine ⟨r, s'', run.trans run', refused, fun restart same => ?_⟩
        obtain ⟨shifted', passing', later⟩ := ended restart same
        refine ⟨shifted.trans shifted', length ▸ passing', fun e there => ?_⟩
        rcases later e there with now | after
        · split at now
          next missed =>
            cases now
            exact .inr ⟨Nat.le_refl i, fun _ free => missed.1 (first free)⟩
          next => exact .inl now
        · exact .inr ⟨by omega, fun same => by omega⟩

theorem shiftLoop_run (kernel : Kernel F) {fuel start : Nat} (passed : Passed s)
    (inside : start < s.fds.length) (right : ∀ j < start, s.fds[j]? = some (j + 3))
    (enough : s.fds.length - start < fuel ∨ s.files (start + 3) = none ∧ s.fds.length - start ≤ fuel) :
    ∃ r s', shiftLoop kernel s.fds.length fuel start s = some (r, s') ∧
      (∀ e, r = .error e -> Refused kernel e s') ∧
      (r = .ok () -> Shifted s s' ∧ ∀ j < s.fds.length, s'.fds[j]? = some (j + 3)) := by
  induction fuel generalizing s start with
  | zero => omega
  | succ fuel ih =>
    have begins : Passing s start none := ⟨right, by simp⟩
    have whole : start + (s.fds.length - start) = s.fds.length := by omega
    obtain ⟨r, s', run, refused, ended⟩ := shiftPass_run kernel passed whole begins
    cases r with
    | error e =>
      refine ⟨.error e, s', bind_eq_some.mpr (.inl ⟨e, run, rfl⟩), fun e' same => ?_,
        fun same => nomatch same⟩
      cases same
      exact refused e rfl
    | ok restart =>
      obtain ⟨shifted, passing, later⟩ := ended restart rfl
      rw [shiftLoop, bind_of_ok run]
      cases restart with
      | none => exact ⟨.ok (), s', rfl, fun e same => (nomatch same), fun _ => ⟨shifted, passing.right⟩⟩
      | some e =>
        obtain ⟨before, freed⟩ := passing.freed e rfl
        obtain ⟨after, notFirst⟩ := (later e rfl).resolve_left (by simp)
        have free : s'.files (e + 3) = none := by
          refine shifted.passed.closed (e + 3) (by omega) fun mem => ?_
          obtain ⟨j, there⟩ := mem_iff_getElem?.mp mem
          have short := (List.getElem?_eq_some_iff.mp there).1
          rw [shifted.length] at short
          exact freed j short there
        have fewer : s.fds.length - e ≤ fuel := by
          rcases enough with more | ⟨place, all⟩
          · omega
          · have other : e ≠ start := fun same => notFirst same place
            omega
        obtain ⟨r, s'', run', refused', ended'⟩ := ih shifted.passed (by rwa [shifted.length]) passing.right
          (.inr ⟨free, by rwa [shifted.length]⟩)
        rw [shifted.length] at run' ended'
        refine ⟨r, s'', run', refused', fun same => ?_⟩
        obtain ⟨shifted', arrived⟩ := ended' same
        exact ⟨shifted.trans shifted', arrived⟩

/-- shift_fds ends, it fails only with the error of a failed fcntl, and otherwise the descriptors have
arrived in order. -/
theorem shiftFds_arrives (kernel : Kernel F) (passed : Passed s) {fuel : Nat}
    (enough : s.fds.length < fuel) :
    ∃ r s', shiftFds kernel fuel s = some (r, s') ∧
      (∀ e, r = .error e -> Refused kernel e s') ∧
      (r = .ok () -> s'.fds = (List.range s.fds.length).map (· + 3) ∧
        (∀ i fd : Nat, s.fds[i]? = some fd -> s'.files (i + 3) = s.files fd) ∧
        (∀ fd, s.fds.length + 3 ≤ fd -> s'.files fd = none) ∧
        ∀ fd < 3, s'.files fd = s.files fd) := by
  have arrive : ∀ {s'}, Shifted s s' -> (∀ j < s.fds.length, s'.fds[j]? = some (j + 3)) ->
      s'.fds = (List.range s.fds.length).map (· + 3) ∧
        (∀ i fd : Nat, s.fds[i]? = some fd -> s'.files (i + 3) = s.files fd) ∧
        (∀ fd, s.fds.length + 3 ≤ fd -> s'.files fd = none) ∧
        ∀ fd < 3, s'.files fd = s.files fd := by
    intro s' shifted right
    have fds : s'.fds = (List.range s.fds.length).map (· + 3) := by
      refine ext_getElem? fun j => ?_
      by_cases inside : j < s.fds.length
      · rw [right j inside]
        simp [inside]
      · rw [getElem?_eq_none (by rw [shifted.length]; omega),
          getElem?_eq_none (by simpa using inside)]
    refine ⟨fds, fun i fd here => ?_, fun fd big => ?_, shifted.low⟩
    · exact shifted.files i fd (i + 3) here (right i (List.getElem?_eq_some_iff.mp here).1)
    · refine shifted.passed.closed fd (by omega) fun mem => ?_
      rw [fds, List.mem_map] at mem
      obtain ⟨j, below, rfl⟩ := mem
      rw [mem_range] at below
      omega
  by_cases empty : s.fds.length = 0
  · refine ⟨.ok (), s, ?_, fun e same => (nomatch same), fun _ => arrive (.refl passed) (by omega)⟩
    rw [shiftFds, read_bind, if_pos empty]
    rfl
  · obtain ⟨r, s', run, refused, ended⟩ :=
      shiftLoop_run kernel passed (Nat.pos_of_ne_zero empty) (by simp) (.inl enough)
    refine ⟨r, s', ?_, refused, fun same => arrive (ended same).1 (ended same).2⟩
    rw [shiftFds, read_bind, if_neg empty]
    exact run

end

end

def roomy : Kernel Char where
  limit := 1024
  refuses _ _ _ := none

def rotated : Fds Char where
  fds := [4, 5, 3]
  files fd := if fd = 4 then some 'a' else if fd = 5 then some 'b' else if fd = 3 then some 'c' else none

theorem rotated_passed : Passed rotated where
  distinct := by decide
  isOpen := by decide
  closed := by
    intro fd _ absent
    simp only [rotated, mem_cons, not_mem_nil, or_false, not_or] at absent
    simp only [rotated, if_neg absent.1, if_neg absent.2.1, if_neg absent.2.2]

theorem rotated_arrives :
    ∃ s', shiftFds roomy 4 rotated = some (.ok (), s') ∧ s'.fds = [3, 4, 5] ∧
      (∀ i fd : Nat, rotated.fds[i]? = some fd -> s'.files (i + 3) = rotated.files fd) ∧
      (∀ fd, 6 ≤ fd -> s'.files fd = none) ∧ ∀ fd < 3, s'.files fd = rotated.files fd := by
  have ok : (shiftFds roomy 4 rotated).map (fun ended => ended.1.isOk) = some true := by decide
  obtain ⟨r, s', run, -, arrived⟩ := shiftFds_arrives roomy rotated_passed (by decide : _ < 4)
  rw [run] at ok
  cases r with
  | error e => cases ok
  | ok u => exact ⟨s', run, arrived rfl⟩

end Systemd.ShiftedFds
