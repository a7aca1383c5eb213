import Systemd.Triggers.PathUnit

set_option autoImplicit false

namespace Systemd.Triggers

open List

abbrev Kind := CString × PathType

def PathSpec.kind (s : PathSpec) : Kind := (s.path, s.type)

def kinds (specs : List PathSpec) : List Kind := specs.map PathSpec.kind

def met (files : Files) : Kind -> Bool
  | (path, .pathExists) => files.access path
  | (path, .pathExistsGlob) => files.globExists path
  | (path, .directoryNotEmpty) => !(files.dirIsEmpty path = .enoent || files.dirIsEmpty path = .empty)
  | (_, .pathChanged) => false

def satisfied (files : Files) (kinds : List Kind) : Bool := kinds.any (met files)

def Level (kinds : List Kind) : Prop := ∀ kind ∈ kinds, kind.2.level = true

theorem check_level (files : Files) (initial : Bool) (s : PathSpec) (level : s.type.level = true) :
    s.check files initial = (s, met files s.kind) := by
  obtain ⟨path, type, watched, previousExists⟩ := s
  cases type with
  | pathExists | pathExistsGlob | directoryNotEmpty => rfl
  | pathChanged => cases level

theorem checkSpecs_level (files : Files) (initial : Bool) (specs : List PathSpec)
    (level : Level (kinds specs)) :
    checkSpecs files initial specs = (specs, satisfied files (kinds specs)) := by
  induction specs with
  | nil => rfl
  | cons s rest ih =>
    have first : s.type.level = true := level s.kind (by simp [kinds])
    have others : Level (kinds rest) := fun kind mem => level kind (by
      rw [kinds, map_cons]
      exact mem_cons_of_mem _ mem)
    rw [checkSpecs, check_level files initial s first, ih others]
    cases good : met files s.kind <;> simp [satisfied, kinds, good]

@[simp] theorem kinds_watchSpecs (watch : Nat -> Bool) (specs : List PathSpec) :
    kinds (watchSpecs watch specs).1 = kinds specs := by
  induction specs generalizing watch with
  | nil => rfl
  | cons s rest ih =>
    unfold watchSpecs
    split
    next =>
      have others := ih fun index => watch (index + 1)
      simp only [kinds, map_cons] at others ⊢
      rw [others]
      rfl
    next => rfl

@[simp] theorem kinds_unwatch (specs : List PathSpec) :
    kinds (specs.map PathSpec.unwatch) = kinds specs := by
  simp [kinds, PathSpec.unwatch, PathSpec.kind, Function.comp_def]

section

variable {U : Type}

@[simp] theorem kinds_pathSetState (state : PathState) (run : PathRun U) :
    kinds (pathSetState state run).path.specs = kinds run.path.specs := by
  unfold pathSetState PathRun.update PathUnit.setState
  dsimp only
  split
  next => exact kinds_unwatch run.path.specs
  next => rfl

@[simp] theorem kinds_pathEnterDead (success : Bool) (run : PathRun U) :
    kinds (pathEnterDead success run).path.specs = kinds run.path.specs := by
  simp [pathEnterDead, PathRun.update]

@[simp] theorem inotifyTriggered_pathSetState (state : PathState) (run : PathRun U) :
    (pathSetState state run).path.inotifyTriggered = run.path.inotifyTriggered := by
  unfold pathSetState PathRun.update PathUnit.setState
  dsimp only
  split <;> rfl

theorem pathEnterRunning_free (ans : PathAnswers) (run : PathRun U)
    (free : ans.stopPending = false) :
    let after := pathEnterRunning ans run
    kinds after.path.specs = kinds run.path.specs ∧ after.notified = true ∧
      ((after.path.state = .running ∧ after.path.inotifyTriggered = false ∧
          after.started = run.started + 1) ∨
        after.path.state = .failed) ∧
      (ans.addJob = true -> after.started = run.started + 1) := by
  intro after
  have entered : after = pathEnterRunning ans run := rfl
  unfold pathEnterRunning pathWatch at entered
  dsimp only at entered
  rw [if_neg (by simp [free])] at entered
  split at entered
  next added =>
    split at entered
    next =>
      rw [entered]
      refine ⟨by simp [PathRun.update], rfl, .inl ⟨by simp, by simp [PathRun.update],
        by simp [PathRun.update]⟩, fun _ => by simp [PathRun.update]⟩
    next =>
      rw [entered]
      exact ⟨by simp [PathRun.update], rfl, .inr (by simp), fun _ => by simp [PathRun.update]⟩
  next refused =>
    rw [entered]
    exact ⟨by simp, rfl, .inr (by simp), fun added => absurd added refused⟩

def Good (files : Files) (recheck : Bool) (run : PathRun U) : Prop :=
  recheck = true ∧ satisfied files (kinds run.path.specs) = true

theorem pathEnterWaiting_level (ans : PathAnswers) (initial recheck : Bool) (run : PathRun U)
    (level : Level (kinds run.path.specs)) :
    let after := pathEnterWaiting ans initial recheck run
    ∃ specs, kinds specs = kinds run.path.specs ∧
      ((Good ans.files recheck run ∨ Good ans.filesAgain recheck run) ∧
          after = pathEnterRunning ans (run.withSpecs specs) ∨
        ¬ Good ans.files recheck run ∧ after = pathEnterDead false (run.withSpecs specs) ∨
        ¬ Good ans.files recheck run ∧ ¬ Good ans.filesAgain recheck run ∧
          after = pathSetState .waiting (run.withSpecs specs)) := by
  intro after
  have levelAgain : Level (kinds (watchSpecs ans.watch run.path.specs).1) := by
    simpa using level
  have entered : after = pathEnterWaiting ans initial recheck run := rfl
  have same : run.withSpecs run.path.specs = run := rfl
  cases recheck with
  | false =>
    simp only [pathEnterWaiting, pathWatch, Bool.false_eq_true, if_false] at entered
    refine ⟨(watchSpecs ans.watch run.path.specs).1, by simp, ?_⟩
    split at entered
    next => exact .inr (.inr ⟨by simp [Good], by simp [Good], entered⟩)
    next => exact .inr (.inl ⟨by simp [Good], entered⟩)
  | true =>
    simp only [pathEnterWaiting, pathWatch, pathCheckGood, if_true, checkSpecs_level _ _ _ level,
      checkSpecs_level _ _ _ levelAgain, kinds_watchSpecs, PathRun.withSpecs_specs,
      PathRun.withSpecs_twice, same] at entered
    split at entered
    next first => exact ⟨run.path.specs, rfl, .inl ⟨.inl ⟨rfl, first⟩, entered⟩⟩
    next first =>
      have first : ¬ Good ans.files true run := fun good => first good.2
      refine ⟨(watchSpecs ans.watch run.path.specs).1, by simp, ?_⟩
      split at entered
      next =>
        split at entered
        next second => exact .inl ⟨.inr ⟨rfl, second⟩, entered⟩
        next second => exact .inr (.inr ⟨first, fun good => second good.2, entered⟩)
      next => exact .inr (.inl ⟨first, entered⟩)

end

section

variable {U : Type}

variable (ans : PathAnswers) (run : PathRun U)

theorem kinds_pathEnterRunning :
    kinds (pathEnterRunning ans run).path.specs = kinds run.path.specs := by
  cases stopping : ans.stopPending with
  | true => simp [pathEnterRunning, stopping]
  | false => exact (pathEnterRunning_free ans run stopping).1

theorem kinds_pathEnterWaiting (initial recheck : Bool) (run : PathRun U)
    (level : Level (kinds run.path.specs)) :
    kinds (pathEnterWaiting ans initial recheck run).path.specs = kinds run.path.specs := by
  obtain ⟨specs, same, ⟨-, after⟩ | ⟨-, after⟩ | ⟨-, -, after⟩⟩ :=
    pathEnterWaiting_level ans initial recheck run level
  next => rw [after, kinds_pathEnterRunning, PathRun.withSpecs_specs, same]
  next => rw [after, kinds_pathEnterDead, PathRun.withSpecs_specs, same]
  next => rw [after, kinds_pathSetState, PathRun.withSpecs_specs, same]

def PathRun.alarmed (run : PathRun U) : PathRun U :=
  run.update fun p => { p with inotifyTriggered := true }

@[simp] theorem PathRun.alarmed_specs : run.alarmed.path.specs = run.path.specs := rfl

@[simp] theorem PathRun.alarmed_started : run.alarmed.started = run.started := rfl

theorem pathFdEvent_events (place : Nat) (primary : Bool) (run : PathRun U)
    (level : Level (kinds run.path.specs))
    (alert : run.path.state = .waiting ∨ run.path.state = .running)
    (present : place < run.path.specs.length) :
    pathFdEvent ans (.events place primary) run = pathEnterWaiting ans false true run.alarmed := by
  have spec := getElem?_eq_getElem present
  have type : run.path.specs[place].type ≠ .pathChanged := by
    intro changed
    have leveled := level run.path.specs[place].kind (mem_map_of_mem (getElem_mem present))
    simp [PathSpec.kind, changed, PathType.level] at leveled
  have awake : ¬ (run.path.state ≠ .waiting ∧ run.path.state ≠ .running) := by tauto
  simp only [pathFdEvent, if_neg awake, spec, type, false_and, if_false, PathRun.alarmed]

theorem pathFdEvent_level (read : InotifyRead) (run : PathRun U) (level : Level (kinds run.path.specs))
    (alert : run.path.state = .waiting ∨ run.path.state = .running) :
    pathFdEvent ans read run = pathEnterDead false run ∨
      pathFdEvent ans read run = pathEnterWaiting ans false true run.alarmed := by
  have awake : ¬ (run.path.state ≠ .waiting ∧ run.path.state ≠ .running) := by tauto
  cases read with
  | failed => exact .inl (by simp only [pathFdEvent, if_neg awake])
  | events place primary =>
    by_cases present : place < run.path.specs.length
    next => exact .inr (pathFdEvent_events ans place primary run level alert present)
    next =>
      have missing := getElem?_eq_none (not_lt.mp present)
      exact .inl (by simp only [pathFdEvent, if_neg awake, missing])

end

end Systemd.Triggers
