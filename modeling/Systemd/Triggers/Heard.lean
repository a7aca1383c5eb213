import Systemd.Shared.Reached
import Systemd.Triggers.Level

set_option autoImplicit false

namespace Systemd.Triggers

/-- A path unit with level-triggered paths, the unit it starts, and the disk. An inotify event that is
queued has not been read yet. Whether one was dispatched since the unit was last started, and whether
the unit was asked for while it was down and has not started since, is kept for the statements only. -/
structure Trigger (U : Type) where
  path : PathUnit U
  started : Nat := 0
  unit : UnitActiveState
  files : Files
  queued : Bool := false
  heard : Bool := false
  asked : Bool := false

/-- What can happen. Together with an event come the answers for it, where the first check finds the
files as they are, and whether inotify has something to read when it is over. A unit that changes its
state reaches the path unit through unit_notify, if one of its names leads there; where several do, the
further ones are changes to the same state. -/
inductive Change where
  | disk (files : Files) (queued : Bool)
  | inotify (read : InotifyRead) (ans : PathAnswers) (queued : Bool)
  | unit (ns : UnitActiveState) (reached : Option (PathAnswers × Bool))
  | start (ans : PathAnswers) (queued : Bool)
  | stop

namespace Trigger

variable {U : Type}

def run (s : Trigger U) : PathRun U where
  path := s.path
  started := s.started

def seen (s : Trigger U) (ans : PathAnswers) : PathAnswers := { ans with files := s.files }

def settle (s : Trigger U) (run : PathRun U) : Trigger U :=
  { s with
    path := run.path
    started := run.started
    asked := s.asked || (s.unit.isInactiveOrFailed && decide (s.started < run.started)) }

def alert (s : Trigger U) : Bool := s.path.state = .waiting || s.path.state = .running

def changeUnit (s : Trigger U) (ns : UnitActiveState) : Trigger U :=
  let launched := s.unit.isInactiveOrFailed && !ns.isInactiveOrFailed
  { s with
    unit := ns
    heard := s.heard && !launched
    asked := s.asked && !launched }

def notified (s : Trigger U) (ns : UnitActiveState) : Option (PathAnswers × Bool) -> Trigger U
  | none => s
  | some (ans, queued) =>
    let run := pathUnitNotified (s.seen ans) ns s.run
    if run.notified then
      { s.settle run with files := ans.filesAgain, queued := queued }
    else
      s.settle run

def apply : Change -> Trigger U -> Option (Trigger U)
  | .disk files queued, s => some { s with files := files, queued := s.queued || queued }
  | .inotify read ans queued, s =>
    if s.queued && s.alert then
      some
        { s.settle (pathFdEvent (s.seen ans) read s.run) with
          files := ans.filesAgain
          queued := queued
          heard := true }
    else
      none
  | .unit ns reached, s => some ((s.changeUnit ns).notified ns reached)
  | .start ans queued, s =>
    (pathStart (s.seen ans) s.run).map fun run =>
      { s.settle run with files := ans.filesAgain, queued := queued, heard := false }
  | .stop, s => (pathStop s.run).map s.settle

def wanted (s : Trigger U) : List Kind := kinds s.path.specs

/-- The steps at which no trigger can get lost. What appears on the disk is reported while the path unit
waits for it. No inotify event is dispatched while a path is satisfied and the unit is up, or a stop of
the path unit pending. When a unit with such a path becomes inactive, it has not been asked for already,
a name of it leads to the path unit, whose stop is not pending, and the job can be queued. -/
def Safe : Change -> Trigger U -> Prop
  | .disk files queued, s =>
    s.path.state = .waiting -> satisfied s.files s.wanted = false ->
      satisfied files s.wanted = true -> s.queued = true ∨ queued = true
  | .inotify _ ans _, s =>
    satisfied s.files s.wanted = true ∨ satisfied ans.filesAgain s.wanted = true ->
      s.unit.isInactiveOrFailed = true ∧ ans.stopPending = false
  | .unit ns reached, s =>
    s.unit ≠ .inactive -> ns = .inactive -> s.heard = true -> satisfied s.files s.wanted = true ->
      s.asked = false ∧
        (s.path.state = .running ->
          ∃ ans queued, reached = some (ans, queued) ∧ ans.stopPending = false ∧
            ans.addJob = true)
  | .start _ _, _ => True
  | .stop, _ => True

def Due (s : Trigger U) : Prop :=
  s.path.state = .waiting ∧ s.queued = true ∧
    ∀ place primary ans queued s', place < s.path.specs.length -> ans.stopPending = false ->
      ans.addJob = true -> apply (.inotify (.events place primary) ans queued) s = some s' ->
      s.started < s'.started

/-- What the history of events and activations comes to in a path unit that has not lost a trigger. -/
structure Attentive (s : Trigger U) : Prop where
  level : Level s.wanted
  waiting : s.path.state = .waiting -> s.heard = true -> satisfied s.files s.wanted = true ->
    s.queued = true ∨ s.asked = true
  running : s.path.state = .running -> s.heard = true -> s.path.inotifyTriggered = false ->
    s.asked = true
  asked : s.asked = true -> s.unit.isInactiveOrFailed = true

variable (s : Trigger U)

@[simp] theorem run_path : s.run.path = s.path := rfl

@[simp] theorem run_started : s.run.started = s.started := rfl

@[simp] theorem seen_files (ans : PathAnswers) : (s.seen ans).files = s.files := rfl

@[simp] theorem seen_filesAgain (ans : PathAnswers) : (s.seen ans).filesAgain = ans.filesAgain := rfl

theorem asked_settle (run : PathRun U) (asked : s.asked = true -> s.unit.isInactiveOrFailed = true) :
    (s.settle run).asked = true -> s.unit.isInactiveOrFailed = true := by
  intro now
  simp only [settle, Bool.or_eq_true, Bool.and_eq_true] at now
  exact now.elim asked And.left

variable {s s' : Trigger U} {queued : Bool} {run : PathRun U} {ans : PathAnswers}

theorem attentive_disk {files : Files} (attentive : Attentive s) (safe : Safe (.disk files queued) s) :
    Attentive { s with files := files, queued := s.queued || queued } where
  level := attentive.level
  waiting := by
    intro state heard now
    cases before : satisfied s.files s.wanted with
    | true =>
      rcases attentive.waiting state heard before with held | asked
      · exact .inl (by simp [held])
      · exact .inr asked
    | false => exact .inl (by simpa using safe state before now)
  running := attentive.running
  asked := attentive.asked

theorem attentive_dead (level : Level s.wanted) (dead : s.path.state = .dead ∨ s.path.state = .failed)
    (asked : s.asked = true -> s.unit.isInactiveOrFailed = true) : Attentive s where
  level := level
  waiting := by intro state; simp [state] at dead
  running := by intro state; simp [state] at dead
  asked := asked

theorem attentive_asks (ans : PathAnswers) (level : Level (kinds run.path.specs))
    (count : run.started = s.started) (down : s.unit.isInactiveOrFailed = true)
    (free : ans.stopPending = false) (path : s'.path = (pathEnterRunning ans run).path)
    (unit : s'.unit = s.unit) (asked : s'.asked = (s.settle (pathEnterRunning ans run)).asked) :
    Attentive s' := by
  obtain ⟨same, -, outcome, -⟩ := pathEnterRunning_free ans run free
  have level' : Level s'.wanted := by
    rw [wanted, path, same]
    exact level
  rcases outcome with ⟨running, quiet, more⟩ | failed
  next =>
    have now : s'.asked = true := by
      simp [asked, settle, down, more, count]
    exact ⟨level', fun _ _ _ => .inr now, fun _ _ _ => now, fun _ => unit ▸ down⟩
  next => exact attentive_dead level' (.inr (path ▸ failed)) fun _ => unit ▸ down

theorem attentive_inotify {read : InotifyRead} (attentive : Attentive s)
    (safe : Safe (.inotify read ans queued) s) (alert : s.alert = true) :
    Attentive
      { s.settle (pathFdEvent (s.seen ans) read s.run) with
        files := ans.filesAgain
        queued := queued
        heard := true } := by
  have awake : s.run.path.state = .waiting ∨ s.run.path.state = .running := by
    simpa [Trigger.alert, Trigger.run] using alert
  have level : Level (kinds s.run.alarmed.path.specs) := attentive.level
  rcases pathFdEvent_level (s.seen ans) read s.run attentive.level awake with dead | entered
  next =>
    refine attentive_dead ?_ (.inr (by simp [settle, dead])) (asked_settle s _ attentive.asked)
    simpa [wanted, settle, dead] using attentive.level
  next =>
    rw [entered]
    obtain ⟨specs, same, ⟨good, after⟩ | ⟨-, after⟩ | ⟨-, later, after⟩⟩ :=
      pathEnterWaiting_level (s.seen ans) false true s.run.alarmed level
    next =>
      obtain ⟨down, free⟩ := safe (by simpa [Good, wanted] using good)
      have entered : Level (kinds (s.run.alarmed.withSpecs specs).path.specs) := by
        rwa [PathRun.withSpecs_specs, same]
      rw [after]
      exact attentive_asks (s.seen ans) entered rfl down free rfl rfl rfl
    next =>
      refine attentive_dead ?_ (.inr (by simp [settle, after])) (asked_settle s _ attentive.asked)
      simpa [wanted, settle, after, same] using level
    next =>
      refine ⟨by simpa [wanted, settle, after, same] using level, fun _ _ now => ?_,
        fun running => ?_, asked_settle s _ attentive.asked⟩
      · exact absurd ⟨rfl, by simpa [wanted, settle, after, same] using now⟩ later
      · simp [settle, after] at running

theorem attentive_changeUnit (attentive : Attentive s) (ns : UnitActiveState) :
    Attentive (s.changeUnit ns) where
  level := attentive.level
  waiting := by
    intro state heard now
    simp only [changeUnit, Bool.and_eq_true] at heard
    rcases attentive.waiting state heard.1 now with queued | asked
    · exact .inl queued
    · exact .inr (by simpa [changeUnit, asked] using heard.2)
  running := by
    intro state heard quiet
    simp only [changeUnit, Bool.and_eq_true] at heard
    simpa [changeUnit, attentive.running state heard.1 quiet] using heard.2
  asked := by
    intro asked
    simp only [changeUnit, Bool.and_eq_true] at asked
    simpa [changeUnit, attentive.asked asked.1] using asked.2

theorem settle_same (s : Trigger U) : s.settle s.run = s := by
  simp [settle]

theorem notified_idle {ns : UnitActiveState} (idle : ¬ (s.path.state = .running ∧ ns = .inactive))
    (reached : Option (PathAnswers × Bool)) : s.notified ns reached = s := by
  cases reached with
  | none => rfl
  | some visit =>
    have ignored : pathUnitNotified (s.seen visit.1) ns s.run = s.run := by
      simp [pathUnitNotified, idle]
    show (if (pathUnitNotified (s.seen visit.1) ns s.run).notified then _ else _) = s
    rw [ignored, if_neg (by simp [run]), settle_same]

theorem notified_started (s : Trigger U) (ns : UnitActiveState) (ans : PathAnswers) (queued : Bool) :
    (s.notified ns (some (ans, queued))).started =
      (pathUnitNotified (s.seen ans) ns s.run).started := by
  unfold notified
  dsimp only
  split <;> rfl

theorem attentive_held {s : Trigger U} (ans : PathAnswers) {specs : List PathSpec}
    (attentive : Attentive s) (running : s.path.state = .running)
    (triggered : s.path.inotifyTriggered = true) (same : kinds specs = s.wanted)
    (stopping : ans.stopPending = true) :
    let run := pathEnterRunning ans (s.run.withSpecs specs)
    run.notified = false ∧ Attentive (s.settle run) := by
  have held : pathEnterRunning ans (s.run.withSpecs specs) = s.run.withSpecs specs := by
    simp [pathEnterRunning, stopping]
  rw [held]
  refine ⟨rfl, ?_, fun waiting => ?_, fun _ _ quiet => ?_, asked_settle s _ attentive.asked⟩
  · simpa [wanted, settle, same] using attentive.level
  · simp [settle, running] at waiting
  · simp [settle, triggered] at quiet

section

variable (attentive : Attentive s)
include attentive

theorem attentive_notified (reached : Option (PathAnswers × Bool)) :
    Attentive (s.notified s.unit reached) := by
  by_cases heeds : s.path.state = .running ∧ s.unit = .inactive
  next =>
    cases reached with
    | none => exact attentive
    | some visit =>
      obtain ⟨ans, queued⟩ := visit
      have down : s.unit.isInactiveOrFailed = true := by rw [heeds.2]; rfl
      have entered : pathUnitNotified (s.seen ans) s.unit s.run =
          pathEnterWaiting (s.seen ans) false s.path.inotifyTriggered s.run := by
        simp [pathUnitNotified, heeds]
      unfold notified
      dsimp only
      rw [entered]
      obtain ⟨specs, same, ⟨good, after⟩ | ⟨-, after⟩ | ⟨-, later, after⟩⟩ :=
        pathEnterWaiting_level (s.seen ans) false s.path.inotifyTriggered s.run attentive.level
      next =>
        rw [after]
        cases stopping : ans.stopPending with
        | true =>
          have triggered : s.path.inotifyTriggered = true := good.elim And.left And.left
          obtain ⟨quiet, kept⟩ := attentive_held (s.seen ans) attentive heeds.1 triggered same
            stopping
          rw [if_neg (by simp [quiet])]
          exact kept
        | false =>
          have level : Level (kinds (s.run.withSpecs specs).path.specs) := by
            rw [PathRun.withSpecs_specs, same]
            exact attentive.level
          rw [if_pos (pathEnterRunning_free (s.seen ans) (s.run.withSpecs specs) stopping).2.1]
          exact attentive_asks (s.seen ans) level rfl down stopping rfl rfl rfl
      next =>
        rw [after, if_pos (pathEnterDead_notified false _)]
        refine attentive_dead ?_ (.inr (by simp [settle])) (asked_settle s _ attentive.asked)
        simpa [wanted, settle, same] using attentive.level
      next =>
        rw [after, if_pos (pathSetState_notified .waiting _)]
        refine ⟨by simpa [wanted, settle, same] using attentive.level, fun _ heard now => ?_,
          fun running => ?_, asked_settle s _ attentive.asked⟩
        · -- What is satisfied was not checked for, so no event came since the unit was asked for.
          have quiet : s.path.inotifyTriggered = false := by
            by_contra triggered
            exact later ⟨by simpa using triggered, by simpa [wanted, settle, same] using now⟩
          exact .inr (by simp [settle, attentive.running heeds.1 heard quiet])
        · simp [settle] at running
  next =>
    rw [notified_idle heeds]
    exact attentive

theorem attentive_start (taken : apply (.start ans queued) s = some s') : Attentive s' := by
  obtain ⟨run, started, rfl⟩ := Option.map_eq_some_iff.mp taken
  have level : Level (kinds run.path.specs) := by
    unfold pathStart at started
    split at started
    next => cases started
    next =>
      split at started
      next =>
        cases started
        have same := kinds_pathEnterWaiting (s.seen ans) true true
          (s.run.update fun p => { p with failure := false }) attentive.level
        rw [same]
        exact attentive.level
      next =>
        cases started
        exact attentive.level
  exact ⟨level, fun _ heard => absurd heard (by simp), fun _ heard => absurd heard (by simp),
    asked_settle s _ attentive.asked⟩

theorem attentive_stop (taken : apply .stop s = some s') : Attentive s' := by
  obtain ⟨run, stopped, rfl⟩ := Option.map_eq_some_iff.mp taken
  unfold pathStop at stopped
  split at stopped
  next => cases stopped
  next =>
    cases stopped
    refine attentive_dead ?_ ?_ (asked_settle s _ attentive.asked)
    · simpa [wanted, settle] using attentive.level
    · simp only [settle, pathEnterDead, pathSetState_state]
      split
      · exact .inr rfl
      · exact .inl rfl

theorem attentive_apply {change : Change} (safe : Safe change s) (taken : apply change s = some s') :
    Attentive s' := by
  cases change with
  | disk files queued =>
    cases taken
    exact attentive_disk attentive safe
  | inotify read ans queued =>
    simp only [apply] at taken
    split at taken
    next possible =>
      cases taken
      exact attentive_inotify attentive safe (Bool.and_eq_true_iff.mp possible).2
    next => cases taken
  | unit ns reached =>
    cases taken
    exact attentive_notified (attentive_changeUnit attentive ns) reached
  | start ans queued => exact attentive_start attentive taken
  | stop => exact attentive_stop attentive taken

end

theorem pathEnterWaiting_asks (level : Level (kinds run.path.specs))
    (now : satisfied ans.files (kinds run.path.specs) = true) (free : ans.stopPending = false)
    (accepted : ans.addJob = true) : run.started < (pathEnterWaiting ans false true run).started := by
  have good : Good ans.files true run := ⟨rfl, now⟩
  obtain ⟨specs, -, ⟨-, after⟩ | ⟨bad, -⟩ | ⟨bad, -⟩⟩ :=
    pathEnterWaiting_level ans false true run level
  next =>
    have more := (pathEnterRunning_free ans (run.withSpecs specs) free).2.2.2 accepted
    rw [after, more]
    exact Nat.lt_succ_self run.started
  next => exact absurd good bad
  next => exact absurd good bad

theorem due_of_queued (level : Level s.wanted) (waiting : s.path.state = .waiting)
    (queued : s.queued = true) (now : satisfied s.files s.wanted = true) : Due s := by
  refine ⟨waiting, queued, ?_⟩
  intro place primary ans queued' s' present free accepted taken
  have possible : (s.queued && s.alert) = true := by simp [queued, alert, waiting]
  rw [apply, if_pos possible] at taken
  cases taken
  have entered := pathFdEvent_events (s.seen ans) place primary s.run level (.inl waiting) present
  have level' : Level (kinds s.run.alarmed.path.specs) := level
  show s.started < (pathFdEvent (s.seen ans) (.events place primary) s.run).started
  rw [entered]
  exact pathEnterWaiting_asks level' now free accepted

def loaded (specs : List PathSpec) (u : U) (unit : UnitActiveState) (files : Files) : Trigger U where
  path := { specs := specs, unit := some u }
  unit := unit
  files := files

/-- In a run of steps at which no trigger can get lost, a path unit that has heard of a change and has a
satisfied path starts its unit again when that becomes inactive. -/
theorem trigger_kept {specs : List PathSpec} {u : U} {unit : UnitActiveState} {files : Files}
    {reached : Option (PathAnswers × Bool)} (level : Level (kinds specs))
    (history : Steps.Reached (loaded specs u unit files) apply Safe s)
    (safe : Safe (.unit .inactive reached) s) (taken : apply (.unit .inactive reached) s = some s')
    (becomes : s.unit ≠ .inactive) (awake : s.alert = true) (heard : s.heard = true)
    (now : satisfied s.files s.wanted = true) : s.started < s'.started ∨ Due s' := by
  have initial : Attentive (loaded specs u unit files) :=
    attentive_dead level (.inl rfl) (by simp [loaded])
  have attentive : Attentive s := history.invariant Attentive initial
    fun _ _ _ attentive safe taken => attentive_apply attentive safe taken
  have after : Attentive s' := attentive_apply attentive safe taken
  obtain ⟨fresh, found⟩ := safe becomes rfl heard now
  cases taken
  simp only [alert, Bool.or_eq_true, decide_eq_true_eq] at awake
  rcases awake with waiting | running
  next =>
    have idle : ∀ ns : UnitActiveState, ¬ ((s.changeUnit .inactive).path.state = .running ∧ ns = .inactive) := by
      simp [changeUnit, waiting]
    rw [notified_idle (idle _)] at after ⊢
    have queued : s.queued = true :=
      (attentive.waiting waiting heard now).resolve_right (by simp [fresh])
    exact .inr (due_of_queued after.level waiting queued now)
  next =>
    obtain ⟨ans, queued, rfl, free, accepted⟩ := found running
    have triggered : s.path.inotifyTriggered = true := by
      by_contra quiet
      have asked := attentive.running running heard (by simpa using quiet)
      simp [fresh] at asked
    have entered : pathUnitNotified (s.seen ans) .inactive s.run =
        pathEnterWaiting (s.seen ans) false true s.run := by
      simp [pathUnitNotified, running, triggered]
    have level' : Level (kinds s.run.path.specs) := attentive.level
    left
    rw [notified_started]
    show s.started < (pathUnitNotified (s.seen ans) .inactive s.run).started
    rw [entered]
    exact pathEnterWaiting_asks level' now free accepted

end Trigger

namespace Examples

def flagged : CString := .ofString "/run/flag"

def absent : Files := ⟨fun _ => false, fun _ => false, fun _ => .enoent⟩

def present : Files := ⟨fun path => path = flagged, fun _ => false, fun _ => .enoent⟩

def finding (filesAgain : Files) : PathAnswers :=
  ⟨filesAgain, fun _ => true, filesAgain, false, true, fun _ => true, true⟩

def flagPath : Trigger Unit :=
  .loaded [{ path := flagged, type := .pathExists }] () .inactive absent

def next (change : Change) (s : Trigger Unit) : Trigger Unit := (s.apply change).getD s

def armed : Trigger Unit := next (.start (finding absent) false) flagPath

def appeared : Trigger Unit := next (.disk present true) armed

def asking : Trigger Unit := next (.inotify (.events 0 true) (finding present) false) appeared

def running : Trigger Unit := next (.unit .active (some (finding present, false))) asking

def touched : Trigger Unit := next (.disk present true) running

def forgetful : Trigger Unit := next (.inotify (.events 0 true) (finding present) false) touched

def stopped : Trigger Unit := next (.unit .inactive (some (finding present, false))) forgetful

theorem forgetful_reached : Steps.Reached flagPath Trigger.apply (fun _ _ => True) forgetful :=
  .step (.inotify (.events 0 true) (finding present) false) touched _
    (.step (.disk present true) running _
      (.step (.unit .active (some (finding present, false))) asking _
        (.step (.inotify (.events 0 true) (finding present) false) appeared _
          (.step (.disk present true) armed _
            (.step (.start (finding absent) false) flagPath _ .start trivial rfl)
            trivial rfl) trivial rfl) trivial rfl) trivial rfl) trivial rfl

/-- The event that came while the service ran has started nothing, and is forgotten all the same. -/
theorem touched_trigger_lost :
    Level flagPath.wanted ∧ Steps.Reached flagPath Trigger.apply (fun _ _ => True) forgetful ∧
    forgetful.unit ≠ .inactive ∧ forgetful.alert = true ∧ forgetful.heard = true ∧
    satisfied forgetful.files forgetful.wanted = true ∧
    Trigger.apply (.unit .inactive (some (finding present, false))) forgetful = some stopped ∧
    ¬ (forgetful.started < stopped.started ∨ stopped.Due) := by
  refine ⟨by simp [Level, flagPath, Trigger.wanted, Trigger.loaded, kinds, PathSpec.kind, PathType.level],
    forgetful_reached, by decide, by decide, by decide, by decide, rfl, ?_⟩
  rintro (more | due)
  · revert more
    decide
  · have queued := due.2.1
    revert queued
    decide

def busy : Trigger Unit := next (.unit .active (some (finding absent, false))) armed

def stirred : Trigger Unit := next (.disk absent true) busy

def unsatisfied : Trigger Unit := next (.inotify (.events 0 false) (finding absent) false) stirred

def satisfiedLate : Trigger Unit := next (.disk present true) unsatisfied

def whenStopped : Trigger Unit :=
  next (.unit .inactive (some (finding present, false))) satisfiedLate

theorem satisfiedLate_reached : Steps.Reached flagPath Trigger.apply Trigger.Safe satisfiedLate := by
  have safeStart : Trigger.Safe (.start (finding absent) false) flagPath := trivial
  have safeUnit : Trigger.Safe (.unit .active (some (finding absent, false))) armed :=
    fun _ inactive => by cases inactive
  have safeDisk : Trigger.Safe (.disk absent true) busy := fun _ _ _ => .inr rfl
  have safeEvent : Trigger.Safe (.inotify (.events 0 false) (finding absent) false) stirred := by
    intro now
    revert now
    decide
  have safeLate : Trigger.Safe (.disk present true) unsatisfied := fun _ _ _ => .inr rfl
  exact .step _ unsatisfied _
    (.step _ stirred _
      (.step _ busy _
        (.step _ armed _ (.step _ flagPath _ .start safeStart rfl) safeUnit rfl) safeDisk rfl)
      safeEvent rfl) safeLate rfl

theorem late_trigger_kept : satisfiedLate.started < whenStopped.started ∨ whenStopped.Due := by
  have safe : Trigger.Safe (.unit .inactive (some (finding present, false))) satisfiedLate :=
    fun _ _ _ _ => ⟨by decide, fun running => absurd running (by decide)⟩
  have level : Level (kinds flagPath.path.specs) := by
    simp [Level, flagPath, Trigger.loaded, kinds, PathSpec.kind, PathType.level]
  exact Trigger.trigger_kept level satisfiedLate_reached safe rfl (by decide)
    (by decide) (by decide) (by decide)

end Examples

end Systemd.Triggers
