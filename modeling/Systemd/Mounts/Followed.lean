import Systemd.Mounts.Follow

set_option autoImplicit false

namespace Systemd.Mounts

open MountManager (Known)

def lastChanged (known : Option CString) : List MountLine -> Bool
  | [] => false
  | [line] => known ≠ some line.options
  | line :: next :: rest => lastChanged (some line.options) (next :: rest)

/-- The lines are new to a unit: it was not listed before and there is only one, or the last one has
other options than the one before. -/
def Noticed (m : Mount) (lines : List MountLine) : Prop :=
  (lines.length = 1 ∧ m.fromProcSelfMountinfo = false) ∨
    lastChanged m.parametersProcSelfMountinfo.options lines = true

def Regular (cfg : CString -> Config) (unit : CString) : Event -> System -> Prop
  | .fdEvent _, s =>
    (mountLoadProcSelfMountinfo s.manager s.table true).2 = none ->
      (s.manager.mount unit).state.place = .down -> Listed s.table unit ->
        Noticed (s.manager.mount unit) (listing s.table unit)
  | .unitEvent other ans event, s =>
    other = unit -> s.processed = true ->
      UnitRegular (cfg unit) ans (s.manager.mount unit) event
  | .tableChanged _, _ | .load _, _ | .otherNames _, _ => True

section lines

variable {m : Mount}

theorem listed_iff {table : List MountLine} {unit : CString} :
    Listed table unit ↔ listing table unit ≠ [] := by
  simp [Listed, listing, List.filter_eq_nil_iff]

structure Flagged (lines : List MountLine) (m after : Mount) : Prop where
  state : after.state = m.state
  pid : after.controlPid = m.controlPid
  mounted : after.isMounted = (m.isMounted || decide (lines ≠ []))
  known : after.fromProcSelfMountinfo = (m.fromProcSelfMountinfo || decide (lines ≠ []))
  new : after.justMounted =
    if lines = [] then m.justMounted else decide (lines.length = 1) && !m.fromProcSelfMountinfo
  changed : after.justChanged =
    if lines = [] then m.justChanged else lastChanged m.parametersProcSelfMountinfo.options lines

theorem described_flagged (lines : List MountLine) (m : Mount) :
    Flagged lines m (described true true lines m) := by
  induction lines generalizing m with
  | nil => constructor <;> simp [described]
  | cons line rest ih =>
    have later := ih (describe true true line m)
    change Flagged (line :: rest) m (described true true rest (describe true true line m))
    cases rest with
    | nil => constructor <;> simp [described, describe, fromMountinfoLine, lastChanged]
    | cons next rest =>
      constructor
      case state => simpa [describe, fromMountinfoLine] using later.state
      case pid => simpa [describe, fromMountinfoLine] using later.pid
      case mounted => simpa [describe, fromMountinfoLine] using later.mounted
      case known => simpa [describe, fromMountinfoLine] using later.known
      case new => simpa [describe, fromMountinfoLine] using later.new
      case changed =>
        simpa [describe, fromMountinfoLine, MountLine.parameters, lastChanged] using later.changed

structure Unflagged (m after : Mount) : Prop where
  state : after.state = m.state
  pid : after.controlPid = m.controlPid
  mounted : after.isMounted = m.isMounted
  new : after.justMounted = m.justMounted
  changed : after.justChanged = m.justChanged

theorem described_unflagged (fromProcSelfMountinfo : Bool) (lines : List MountLine) (m : Mount) :
    Unflagged m (described fromProcSelfMountinfo false lines m) ∧
      (described fromProcSelfMountinfo false lines m).fromProcSelfMountinfo =
        (m.fromProcSelfMountinfo || (fromProcSelfMountinfo && decide (lines ≠ []))) := by
  induction lines generalizing m with
  | nil => exact ⟨⟨rfl, rfl, rfl, rfl, rfl⟩, by simp [described]⟩
  | cons line rest ih =>
    obtain ⟨later, known⟩ := ih (describe fromProcSelfMountinfo false line m)
    change Unflagged m (described fromProcSelfMountinfo false rest
      (describe fromProcSelfMountinfo false line m)) ∧ (described fromProcSelfMountinfo false rest
      (describe fromProcSelfMountinfo false line m)).fromProcSelfMountinfo = _
    rw [known]
    cases fromProcSelfMountinfo with
    | true =>
      refine ⟨⟨later.state, later.pid, later.mounted, later.new, later.changed⟩, ?_⟩
      simp [describe, fromMountinfoLine]
    | false =>
      refine ⟨⟨later.state, later.pid, later.mounted, later.new, later.changed⟩, ?_⟩
      simp [describe, fromEtcFstabLine]

end lines

section table

variable {m : Mount}

structure Followed (m after : Mount) (place : Place) : Prop where
  place : after.state.place = place
  sound : Sound after
  known : after.fromProcSelfMountinfo = (m.isMounted && m.fromProcSelfMountinfo)
  mounted : after.isMounted = false
  new : after.justMounted = false
  changed : after.justChanged = false

theorem Moved.followed {before after : Mount} {place : Place}
    (known : before.fromProcSelfMountinfo = (m.isMounted && m.fromProcSelfMountinfo))
    (moved : Moved before place after) : Followed m (resetFlags after) place where
  place := moved.place
  sound := moved.sound
  known := moved.table.known.trans known
  mounted := rfl
  new := rfl
  changed := rfl

def followedPlace (m : Mount) : Place :=
  if m.isMounted = false then
    if m.state.place = .up then .down else m.state.place
  else if (m.justMounted || m.justChanged) = true ∧ m.state.place = .down then
    .up
  else
    m.state.place

theorem followTable_followed (sound : Sound m) :
    Followed m (resetFlags (followTable m).mount) (followedPlace m) := by
  have stays (before : Mount) (same : before.state = m.state) (pid : before.controlPid = m.controlPid)
      (known : before.fromProcSelfMountinfo = (m.isMounted && m.fromProcSelfMountinfo)) :
      Followed m (resetFlags (mountSetState m.state { mount := before }).mount) m.state.place := by
    refine (mountSetState_moved { mount := before } (SameTable.refl before) m.state ?_).followed known
    intro controlled gone
    rw [pid] at gone
    exact sound.mp gone ((place_busy m.state).mpr controlled)
  cases up : m.isMounted with
  | false =>
    rw [up, Bool.false_and] at stays
    have gone : ({ m with fromProcSelfMountinfo := false } : Mount).fromProcSelfMountinfo =
        (m.isMounted && m.fromProcSelfMountinfo) := by simp [up]
    by_cases mounted : m.state = .mounted
    next =>
      have dead := mountEnterDead_moved { mount := { m with fromProcSelfMountinfo := false } }
        (SameTable.refl _) true
      simpa [followTable, followedPlace, up, mounted, MountState.place] using dead.followed gone
    next =>
      have other : m.state.place ≠ .up := mt (place_up m.state).mp mounted
      have same := stays { m with fromProcSelfMountinfo := false } rfl rfl rfl
      have table : followTable m =
          mountSetState m.state { mount := { m with fromProcSelfMountinfo := false } } := by
        rw [followTable, if_pos up]
        split
        next began => exact absurd began mounted
        next => rfl
      simpa [table, followedPlace, up, other] using same
  | true =>
    have known : m.fromProcSelfMountinfo = (m.isMounted && m.fromProcSelfMountinfo) := by simp [up]
    cases news : m.justMounted || m.justChanged with
    | false =>
      have table : followTable m = { mount := m } := by simp [followTable, up, news]
      simpa [table, followedPlace, up, news] using (Moved.stays sound).followed known
    | true =>
      by_cases down : m.state.place = .down
      next =>
        have mounted := mountEnterMounted_moved { mount := m } (SameTable.refl m) true
        have table : followTable m = mountEnterMounted true { mount := m } := by
          obtain dead | failed := (place_down m.state).mp down
          next => simp [followTable, up, news, dead]
          next => simp [followTable, up, news, failed]
        simpa [table, followedPlace, up, news, down] using mounted.followed known
      next =>
        have place : followedPlace m = m.state.place := by simp [followedPlace, up, down]
        rw [place]
        by_cases mounting : m.state = .mounting
        next =>
          have done := mountSetState_moved { mount := m } (SameTable.refl m) .mountingDone
            fun _ gone => sound.mp gone (by rw [mounting]; rfl)
          have table : followTable m = mountSetState .mountingDone { mount := m } := by
            simp [followTable, up, news, mounting, mountEnterMountingDone]
          rw [table, mounting]
          exact done.followed known
        next =>
          have table : followTable m = mountSetState m.state { mount := m } := by
            rw [followTable, if_neg (by simp [up]), if_pos news]
            split
            next dead => exact absurd (by rw [dead]; rfl) down
            next failed => exact absurd (by rw [failed]; rfl) down
            next began => exact absurd began mounting
            next => rfl
          rw [table]
          exact stays m rfl rfl known

end table

section system

variable {unit : CString} {s : System}

structure Consistent (unit : CString) (s : System) : Prop where
  known : s.manager.Known
  mounted : (s.manager.mount unit).isMounted = false
  new : (s.manager.mount unit).justMounted = false
  changed : (s.manager.mount unit).justChanged = false
  sound : Sound (s.manager.mount unit)
  current : s.processed = true ->
    ((s.manager.mount unit).fromProcSelfMountinfo = true ↔ Listed s.table unit)
  agrees : s.processed = true ->
    Agrees (s.manager.mount unit).state.place (s.manager.mount unit).fromProcSelfMountinfo

theorem Consistent.follows (consistent : Consistent unit s) : Follows unit s := by
  intro _ idle processed
  have busy := consistent.sound.mp idle
  have current := consistent.current processed
  obtain ⟨up, down⟩ := consistent.agrees processed
  rw [← place_up, ← place_down, ← current]
  cases place : (s.manager.mount unit).state.place with
  | busy => exact absurd place busy
  | up => simp [up place]
  | down => simp [down place]

theorem followUnit_loop {m : MountManager} (known : m.Known) :
    (m.unitsByType.foldl followUnit m).Known ∧
      ∀ unit, (m.unitsByType.foldl followUnit m).mount unit =
        resetFlags (followTable (m.mount unit)).mount :=
  update_loop_known (fun mount => resetFlags (followTable mount).mount) rfl known

variable (pulled : List CString)

section

variable (consistent : Consistent unit s)
include consistent

theorem mountFdEvent_read (ok : (mountLoadProcSelfMountinfo s.manager s.table true).2 = none) :
    ∃ loaded, Flagged (listing s.table unit) (s.manager.mount unit) loaded ∧
      (mountFdEvent pulled s.manager s.table).1.Known ∧
      (mountFdEvent pulled s.manager s.table).2 = true ∧
      Followed loaded ((mountFdEvent pulled s.manager s.table).1.mount unit) (followedPlace loaded) := by
  obtain ⟨read, -⟩ := lines_known true true consistent.known s.table none
  have written : (mountLoadProcSelfMountinfo s.manager s.table true).1.mount unit =
      described true true (listing s.table unit) (s.manager.mount unit) :=
    lines_mount true true consistent.known s.table none unit (Or.inr (Or.inr ok))
  have flagged := described_flagged (listing s.table unit) (s.manager.mount unit)
  have sound : Sound (described true true (listing s.table unit) (s.manager.mount unit)) := by
    rw [Sound, flagged.pid, flagged.state]
    exact consistent.sound
  obtain ⟨dispatched, same⟩ := managerDispatchLoadQueue_kept
    (m := (mountLoadProcSelfMountinfo s.manager s.table true).1) read pulled
  obtain ⟨followed, handled⟩ := followUnit_loop dispatched
  have result := handled unit
  rw [same, written] at result
  refine ⟨_, flagged, ?_, ?_, ?_⟩
  next => simpa [mountFdEvent, ok] using followed
  next => simp [mountFdEvent, ok]
  next =>
    have place := followTable_followed sound
    rw [← result] at place
    simpa [mountFdEvent, ok] using place

theorem mountFdEvent_unread {r : RegistryErrno}
    (failed : (mountLoadProcSelfMountinfo s.manager s.table true).2 = some r) :
    (mountFdEvent pulled s.manager s.table).1.Known ∧
      (mountFdEvent pulled s.manager s.table).2 = false ∧
      (mountFdEvent pulled s.manager s.table).1.mount unit =
        resetFlags ((mountLoadProcSelfMountinfo s.manager s.table true).1.mount unit) := by
  obtain ⟨read, -⟩ := lines_known true true consistent.known s.table none
  obtain ⟨reset, handled⟩ := update_loop_known
    (m := (mountLoadProcSelfMountinfo s.manager s.table true).1) resetFlags rfl read
  refine ⟨?_, ?_, ?_⟩
  next => simpa [mountFdEvent, failed] using reset
  next => simp [mountFdEvent, failed]
  next => simpa [mountFdEvent, failed] using handled unit

theorem unread_known (processed : s.processed = true) :
    ((mountLoadProcSelfMountinfo s.manager s.table true).1.mount unit).fromProcSelfMountinfo =
      (s.manager.mount unit).fromProcSelfMountinfo := by
  have entered : unit ∈ s.manager.unitsByType ∨ listing s.table unit = [] := by
    by_contra missing
    obtain ⟨absent, lines⟩ := not_or.mp missing
    have known := (consistent.current processed).mpr (listed_iff.mpr lines)
    rw [consistent.known.unlisted unit absent] at known
    cases known
  have written : (mountLoadProcSelfMountinfo s.manager s.table true).1.mount unit =
      described true true (listing s.table unit) (s.manager.mount unit) :=
    lines_mount true true consistent.known s.table none unit (by
      obtain present | nothing := entered
      next => exact Or.inl present
      next => exact Or.inr (Or.inl nothing))
  rw [written, (described_flagged (listing s.table unit) (s.manager.mount unit)).known]
  cases known : (s.manager.mount unit).fromProcSelfMountinfo with
  | true => rfl
  | false =>
    have unlisted : ¬Listed s.table unit := by
      rw [← consistent.current processed, known]
      exact Bool.false_ne_true
    rw [listed_iff, not_not] at unlisted
    simp [unlisted]

end

def readPlace (m : Mount) (lines : List MountLine) : Place -> Prop :=
  fun place =>
    (lines = [] -> place ≠ .up ∧ (m.state.place ≠ .up -> place = m.state.place)) ∧
      (lines ≠ [] -> (place = .down ↔ m.state.place = .down ∧ ¬Noticed m lines))

theorem followedPlace_read {m loaded : Mount} {lines : List MountLine} (mounted : m.isMounted = false)
    (flagged : Flagged lines m loaded) : readPlace m lines (followedPlace loaded) := by
  constructor
  next =>
    intro nothing
    have gone : loaded.isMounted = false := by simpa [mounted, nothing] using flagged.mounted
    rw [followedPlace, if_pos gone, flagged.state]
    by_cases up : m.state.place = .up <;> simp [up]
  next =>
    intro some_lines
    have up : loaded.isMounted = true := by simpa [mounted, some_lines] using flagged.mounted
    have news : (loaded.justMounted || loaded.justChanged) = true ↔ Noticed m lines := by
      simp [flagged.new, flagged.changed, some_lines, Noticed]
    rw [← news, followedPlace, if_neg (by simp [up]), flagged.state]
    cases loaded.justMounted || loaded.justChanged <;> by_cases down : m.state.place = .down <;>
      simp [down]

theorem fdEvent_next (consistent : Consistent unit s)
    (ok : (mountLoadProcSelfMountinfo s.manager s.table true).2 = none) :
    ∃ place, readPlace (s.manager.mount unit) (listing s.table unit) place ∧
      (mountFdEvent pulled s.manager s.table).1.Known ∧
      (mountFdEvent pulled s.manager s.table).2 = true ∧
      ((mountFdEvent pulled s.manager s.table).1.mount unit).state.place = place ∧
      Sound ((mountFdEvent pulled s.manager s.table).1.mount unit) ∧
      ((mountFdEvent pulled s.manager s.table).1.mount unit).fromProcSelfMountinfo =
        decide (listing s.table unit ≠ []) ∧
      ((mountFdEvent pulled s.manager s.table).1.mount unit).isMounted = false ∧
      ((mountFdEvent pulled s.manager s.table).1.mount unit).justMounted = false ∧
      ((mountFdEvent pulled s.manager s.table).1.mount unit).justChanged = false := by
  obtain ⟨loaded, flagged, known, success, followed⟩ := mountFdEvent_read pulled consistent ok
  have from_table : (loaded.isMounted && loaded.fromProcSelfMountinfo) =
      decide (listing s.table unit ≠ []) := by
    rw [flagged.mounted, flagged.known, consistent.mounted]
    by_cases nothing : listing s.table unit = [] <;> simp [nothing]
  exact ⟨_, followedPlace_read consistent.mounted flagged, known, success, followed.place,
    followed.sound, followed.known.trans from_table, followed.mounted, followed.new, followed.changed⟩

variable {cfg : CString -> Config}

theorem fdEvent_kept {pulled : List CString} (consistent : Consistent unit s)
    (regular : Regular cfg unit (.fdEvent pulled) s) :
    Consistent unit
      { s with
        manager := (mountFdEvent pulled s.manager s.table).1
        processed := s.processed || (mountFdEvent pulled s.manager s.table).2 } := by
  cases result : (mountLoadProcSelfMountinfo s.manager s.table true).2 with
  | none =>
    obtain ⟨place, read, known, -, placed, sound, table, mounted, new, changed⟩ :=
      fdEvent_next pulled consistent result
    refine ⟨known, mounted, new, changed, sound, fun _ => ?_, fun _ => ?_⟩
    next => simp [table, listed_iff]
    next =>
      rw [placed, table]
      by_cases nothing : listing s.table unit = []
      next => simp [Agrees, nothing, (read.1 nothing).1]
      next =>
        have seen : place ≠ .down := by
          intro down
          obtain ⟨before, unnoticed⟩ := (read.2 nothing).mp down
          exact unnoticed (regular result before (listed_iff.mpr nothing))
        simp [Agrees, nothing, seen]
  | some r =>
    obtain ⟨known, success, same⟩ := mountFdEvent_unread pulled consistent result
    obtain ⟨state, pid⟩ := lines_state true true consistent.known s.table none unit
    have state : ((mountLoadProcSelfMountinfo s.manager s.table true).1.mount unit).state =
        (s.manager.mount unit).state := state
    have pid : ((mountLoadProcSelfMountinfo s.manager s.table true).1.mount unit).controlPid =
        (s.manager.mount unit).controlPid := pid
    rw [success, Bool.or_false]
    constructor
    case known => exact known
    case mounted => simp [same, resetFlags]
    case new => simp [same, resetFlags]
    case changed => simp [same, resetFlags]
    case sound =>
      rw [same, Sound]
      simp only [resetFlags, state, pid]
      exact consistent.sound
    case current =>
      intro processed
      simpa [same, resetFlags, unread_known consistent processed] using consistent.current processed
    case agrees =>
      intro processed
      simpa [same, resetFlags, unread_known consistent processed, state] using consistent.agrees processed

theorem fdEvent_exact {pulled : List CString} {cfg : CString -> Config}
    (consistent : Consistent unit s)
    (follows : Follows unit
      { s with
        manager := (mountFdEvent pulled s.manager s.table).1
        processed := s.processed || (mountFdEvent pulled s.manager s.table).2 }) :
    Regular cfg unit (.fdEvent pulled) s := by
  intro result before listed
  by_contra unnoticed
  obtain ⟨place, read, known, success, placed, sound, table, -⟩ :=
    fdEvent_next pulled consistent result
  have nothing := listed_iff.mp listed
  have down : place = .down := (read.2 nothing).mpr ⟨before, unnoticed⟩
  have present : unit ∈ (mountFdEvent pulled s.manager s.table).1.unitsByType := by
    by_contra absent
    rw [known.unlisted unit absent] at table
    simp [nothing] at table
  have idle : ((mountFdEvent pulled s.manager s.table).1.mount unit).controlPid = 0 := by
    rw [sound.mpr]
    rw [placed, down]
    decide
  have mounted := ((follows present idle (by simp [success])).1.mpr listed)
  rw [← place_up, placed, down] at mounted
  cases mounted

theorem unitEvent_kept {other : CString} {ans : Answers} {event : UnitEvent} {run : Run}
    (consistent : Consistent unit s) (present : other ∈ s.manager.unitsByType)
    (dispatched : dispatch (cfg other) ans event (s.manager.mount other) = some run) :
    (Regular cfg unit (.unitEvent other ans event) s ->
      Consistent unit { s with manager := s.manager.update other fun _ => run.mount }) ∧
    (Follows unit { s with manager := s.manager.update other fun _ => run.mount } ->
      Regular cfg unit (.unitEvent other ans event) s) := by
  have known := consistent.known.update present fun _ => run.mount
  by_cases mine : other = unit
  next =>
    subst mine
    obtain ⟨place, moved, regular⟩ := dispatch_leads consistent.sound dispatched
    have table := moved.table
    constructor
    next =>
      intro allowed
      constructor
      case known => exact known
      case mounted => simp [table.mounted, consistent.mounted]
      case new => simp [table.new, consistent.new]
      case changed => simp [table.changed, consistent.changed]
      case sound => simpa using moved.sound
      case current =>
        intro processed
        simpa [table.known] using consistent.current processed
      case agrees =>
        intro processed
        have agrees := consistent.agrees processed
        simpa [moved.place, table.known] using (regular agrees).mp (allowed rfl processed)
    next =>
      intro follows _ processed
      have agrees := consistent.agrees processed
      have current := consistent.current processed
      refine (regular agrees).mpr ?_
      have final (idle : place ≠ .busy) := follows present
        (by simpa using moved.sound.mpr (by rwa [moved.place])) processed
      simp only [MountManager.update_self, ← place_up, ← place_down, moved.place] at final
      constructor
      next =>
        intro up
        exact current.mpr ((final (by simp [up])).1.mp up)
      next =>
        intro down
        by_contra known
        have listed := current.mp (by simpa using known)
        have up := (final (by simp [down])).1.mpr listed
        rw [down] at up
        cases up
  next =>
    have same : (s.manager.update other fun _ => run.mount).mount unit = s.manager.mount unit :=
      MountManager.update_of_ne s.manager _ (Ne.symm mine)
    constructor
    next =>
      intro _
      constructor
      case known => exact known
      case mounted => simp [same, consistent.mounted]
      case new => simp [same, consistent.new]
      case changed => simp [same, consistent.changed]
      case sound => simpa [same] using consistent.sound
      case current => simpa [same] using consistent.current
      case agrees => simpa [same] using consistent.agrees
    next => exact fun _ now => absurd now mine

theorem take_consistent {event : Event} {next : System} (consistent : Consistent unit s)
    (taken : take cfg event s = some next) :
    (Regular cfg unit event s -> Consistent unit next) ∧
      (Follows unit next -> Regular cfg unit event s) := by
  cases event with
  | tableChanged table =>
    cases taken
    refine ⟨fun _ => ?_, fun _ => trivial⟩
    exact ⟨consistent.known, consistent.mounted, consistent.new, consistent.changed,
      consistent.sound, (fun processed => by cases processed), (fun processed => by cases processed)⟩
  | fdEvent pulled =>
    cases taken
    exact ⟨fdEvent_kept consistent, fdEvent_exact consistent⟩
  | unitEvent other ans event =>
    obtain ⟨present, taken⟩ := Option.ite_none_right_eq_some.mp taken
    obtain ⟨run, dispatched, rfl⟩ := Option.map_eq_some_iff.mp taken
    exact unitEvent_kept consistent present dispatched
  | load pulled =>
    cases taken
    obtain ⟨known, same⟩ := managerDispatchLoadQueue_kept consistent.known pulled
    refine ⟨fun _ => ?_, fun _ => trivial⟩
    constructor
    case known => exact known
    case mounted => simp [same, consistent.mounted]
    case new => simp [same, consistent.new]
    case changed => simp [same, consistent.changed]
    case sound => simpa [same] using consistent.sound
    case current => simpa [same] using consistent.current
    case agrees => simpa [same] using consistent.agrees
  | otherNames count =>
    cases taken
    refine ⟨fun _ => ?_, fun _ => trivial⟩
    exact ⟨⟨consistent.known.nodup, consistent.known.unlisted⟩, consistent.mounted, consistent.new,
      consistent.changed, consistent.sound, consistent.current, consistent.agrees⟩

end system

theorem mountColdplug_placed {m : Mount} (idle : m.controlPid = 0) (dead : m.state = .dead) :
    (mountColdplug m).mount.state.place = (if m.fromProcSelfMountinfo then .up else .down) ∧
      Sound (mountColdplug m).mount ∧ SameTable m (mountColdplug m).mount := by
  rw [mountColdplug]
  cases m.fromProcSelfMountinfo with
  | true =>
    have mounted := mountSetState_moved { mount := m } (SameTable.refl m) .mounted
      (by simp [MountState.controlled])
    exact ⟨mounted.place, mounted.sound, mounted.table⟩
  | false =>
    refine ⟨by simp [dead, MountState.place], ?_, SameTable.refl m⟩
    simp [Sound, idle, dead, MountState.place]

structure Fresh (lines : List MountLine) (m : Mount) : Prop where
  table : Unflagged {} m
  known : m.fromProcSelfMountinfo = decide (lines ≠ [])

variable {table fstab : List MountLine}

theorem mountEnumerate_mount (readable : Readable fstab table) (pulled : List CString)
    (unit : CString) :
    (mountEnumerate fstab table pulled).Known ∧
      ∃ before, Fresh (listing table unit) before ∧
        (mountEnumerate fstab table pulled).mount unit = (mountColdplug before).mount := by
  obtain ⟨named, -⟩ := lines_known false false Known.empty fstab none
  obtain ⟨parameters, from_etc_fstab, first⟩ := fstab_mount Known.empty fstab none unit
  obtain ⟨read, -⟩ := lines_known true false named table none
  have written := lines_mount true false named table none unit (Or.inr (Or.inr readable))
  obtain ⟨unflagged, listed⟩ := described_unflagged true (listing table unit)
    ((fstab.foldl (readLine false false) (({} : MountManager), none)).1.mount unit)
  obtain ⟨dispatched, same⟩ := managerDispatchLoadQueue_kept read pulled
  obtain ⟨known, handled⟩ := update_loop_known (fun mount => (mountColdplug mount).mount) rfl dispatched
  have result := handled unit
  rw [same, written] at result
  refine ⟨known, _, ⟨⟨?_, ?_, ?_, ?_, ?_⟩, ?_⟩, result⟩
  next => rw [unflagged.state, first]
  next => rw [unflagged.pid, first]
  next => rw [unflagged.mounted, first]
  next => rw [unflagged.new, first]
  next => rw [unflagged.changed, first]
  next =>
    have unlisted :
        ((fstab.foldl (readLine false false) (({} : MountManager), none)).1.mount
          unit).fromProcSelfMountinfo = false := by rw [first]
    rw [listed, unlisted, Bool.false_or, Bool.true_and]

theorem booted_consistent (readable : Readable fstab table) (pulled : List CString) (unit : CString) :
    Consistent unit (booted fstab table pulled) := by
  obtain ⟨known, before, fresh, result⟩ := mountEnumerate_mount readable pulled unit
  obtain ⟨placed, sound, kept⟩ := mountColdplug_placed fresh.table.pid fresh.table.state
  rw [← result] at placed sound kept
  constructor
  case known => exact known
  case mounted => exact kept.mounted.trans fresh.table.mounted
  case new => exact kept.new.trans fresh.table.new
  case changed => exact kept.changed.trans fresh.table.changed
  case sound => exact sound
  case current =>
    intro _
    have same := kept.known.trans fresh.known
    simp [booted, same, listed_iff]
  case agrees =>
    intro _
    have same := kept.known
    simp only [booted, placed, same]
    exact agrees_known before.fromProcSelfMountinfo

def mnt : MountLine where
  what := .ofString "/dev/sda1"
  place := .ofString "/mnt"
  options := .ofString "rw"
  fstype := .ofString "ext4"
  passno := 0

def mntUnit : CString := .ofString "mnt.mount"

def mntConfig : Config where
  fromFragment := false
  killMode := .controlGroup
  sendSigkill := true

-- Processes can be run and killed.
def obliging : Answers where
  spawn := fun _ => .forked 7 (by decide)
  kill := fun _ => { control := true, group := false, memory := true, timer := true }

def mounts : List Event :=
  [.unitEvent mntUnit obliging (.start true), .tableChanged [mnt], .fdEvent [],
    .unitEvent mntUnit obliging (.sigchld 7 Services.cldExited 0)]

-- Mounting takes too long, and the process is killed before it has mounted anything.
def timesOut : List Event :=
  [.fdEvent [], .unitEvent mntUnit obliging (.start true), .unitEvent mntUnit obliging .timer,
    .unitEvent mntUnit obliging (.sigchld 7 Services.cldKilled 15)]

end Systemd.Mounts
