import Systemd.Triggers.Notify

set_option autoImplicit false

namespace Systemd.Triggers

open List Function

variable {U : Type}

section

def heldBack (ans : PathAnswers) (specs : List PathSpec) : Bool :=
  let (specs, good) := checkSpecs ans.files false specs
  let (specs, watched) := watchSpecs ans.watch specs
  ans.stopPending && (good || (watched && (checkSpecs ans.filesAgain false specs).2))

def specsBehind (ans : PathAnswers) (specs : List PathSpec) : List PathSpec :=
  let (specs, good) := checkSpecs ans.files false specs
  if good then specs else (checkSpecs ans.filesAgain false (watchSpecs ans.watch specs).1).1

def HeldBack : List PathAnswers -> List PathSpec -> Prop
  | [], _ => True
  | ans :: rest, specs => heldBack ans specs = true ∧ HeldBack rest (specsBehind ans specs)

def MovedOn (before : Nat) (run : PathRun U) : Prop :=
  run.path.state ≠ .running ∨ before < run.started

variable (ans : PathAnswers) (initial : Bool) (run : PathRun U)

@[simp] theorem pathEnterRunning_unit : (pathEnterRunning ans run).path.unit = run.path.unit := by
  rcases pathEnterRunning_cases ans run with ⟨-, same⟩ | ⟨-, same⟩ | ⟨-, specs, same | same⟩ <;>
    simp [same]

theorem pathEnterRunning_started : run.started ≤ (pathEnterRunning ans run).started := by
  rcases pathEnterRunning_cases ans run with ⟨-, same⟩ | ⟨-, same⟩ | ⟨-, specs, same | same⟩ <;>
    simp [same]

theorem pathEnterRunning_movedOn (free : ans.stopPending = false) :
    MovedOn run.started (pathEnterRunning ans run) := by
  rcases pathEnterRunning_cases ans run with ⟨stopping, -⟩ | ⟨-, same⟩ | ⟨-, specs, same | same⟩
  next => exact absurd stopping (by simp [free])
  next => exact .inl (by simp [same])
  next => exact .inr (by simp [same])
  next => exact .inl (by simp [same])

@[simp] theorem pathEnterWaiting_unit (recheck : Bool) (run : PathRun U) :
    (pathEnterWaiting ans initial recheck run).path.unit = run.path.unit := by
  obtain ⟨specs, ⟨-, same⟩ | same | same⟩ := pathEnterWaiting_cases ans initial recheck run <;>
    simp [same]

theorem pathEnterWaiting_started (recheck : Bool) (run : PathRun U) :
    run.started ≤ (pathEnterWaiting ans initial recheck run).started := by
  obtain ⟨specs, ⟨-, same⟩ | same | same⟩ := pathEnterWaiting_cases ans initial recheck run
  next =>
    rw [same]
    exact pathEnterRunning_started ans (run.withSpecs specs)
  next => simp [same]
  next => simp [same]

@[simp] theorem pathUnitNotified_unit (ns : UnitActiveState) (run : PathRun U) :
    (pathUnitNotified ans ns run).path.unit = run.path.unit := by
  unfold pathUnitNotified
  split <;> simp

theorem pathEnterWaiting_unchecked :
    (pathEnterWaiting ans initial false run).path.state ≠ .running := by
  obtain ⟨specs, ⟨impossible, -⟩ | same | same⟩ := pathEnterWaiting_cases ans initial false run
  next => cases impossible
  next => simp [same]
  next => simp [same]

theorem pathEnterWaiting_held (held : heldBack ans run.path.specs = true) :
    pathEnterWaiting ans false true run = run.withSpecs (specsBehind ans run.path.specs) := by
  simp only [heldBack, Bool.and_eq_true, Bool.or_eq_true] at held
  obtain ⟨stopping, satisfied⟩ := held
  simp only [pathEnterWaiting, pathWatch, pathCheckGood, if_true, specsBehind,
    PathRun.withSpecs_specs, PathRun.withSpecs_twice]
  by_cases good : (checkSpecs ans.files false run.path.specs).2 = true
  next => simp [good, pathEnterRunning, stopping]
  next =>
    obtain ⟨watched, again⟩ := satisfied.resolve_left good
    simp [good, watched, again, pathEnterRunning, stopping]

theorem pathEnterWaiting_movedOn (free : heldBack ans run.path.specs = false) :
    MovedOn run.started (pathEnterWaiting ans false true run) := by
  simp only [heldBack, Bool.and_eq_false_iff, Bool.or_eq_false_iff] at free
  simp only [pathEnterWaiting, pathWatch, pathCheckGood, if_true, PathRun.withSpecs_specs,
    PathRun.withSpecs_twice]
  split
  next good =>
    have stopping := free.resolve_right fun unsatisfied => by simp [good] at unsatisfied
    exact pathEnterRunning_movedOn ans _ stopping
  next =>
    split
    next watched =>
      split
      next again =>
        have stopping := free.resolve_right fun unsatisfied => by simp [watched, again] at unsatisfied
        exact pathEnterRunning_movedOn ans _ stopping
      next => exact .inl (by simp)
    next => exact .inl (by simp)

def notifiedAgain : List PathAnswers -> PathRun U -> PathRun U
  | [], run => run
  | ans :: rest, run =>
    notifiedAgain rest
      { pathUnitNotified ans .inactive run with notified := false }

variable {run : PathRun U}

theorem pathUnitNotified_movedOn {before : Nat} {ans : PathAnswers} (moved : MovedOn before run) :
    MovedOn before (pathUnitNotified ans .inactive run) := by
  unfold pathUnitNotified
  split
  next running =>
    have later := moved.resolve_left (not_not_intro running.1)
    exact .inr (later.trans_le (pathEnterWaiting_started ans false _ run))
  next => exact moved

theorem notifiedAgain_movedOn {before : Nat} (visits : List PathAnswers) (moved : MovedOn before run) :
    MovedOn before (notifiedAgain visits run) := by
  induction visits generalizing run with
  | nil => exact moved
  | cons ans rest ih =>
    have step : MovedOn before (pathUnitNotified ans .inactive run) :=
      pathUnitNotified_movedOn moved
    exact ih step

theorem notifiedAgain_movedOn_iff (visits : List PathAnswers) (run : PathRun U)
    (running : run.path.state = .running) :
    MovedOn run.started (notifiedAgain visits run) ↔
      visits ≠ [] ∧ ¬ (run.path.inotifyTriggered = true ∧ HeldBack visits run.path.specs) := by
  induction visits generalizing run with
  | nil => simp [notifiedAgain, MovedOn, running]
  | cons ans rest ih =>
    have entered : pathUnitNotified ans .inactive run =
        pathEnterWaiting ans false run.path.inotifyTriggered run := by
      simp [pathUnitNotified, running]
    simp only [notifiedAgain, entered, ne_eq, reduceCtorEq, not_false_eq_true, true_and]
    cases triggered : run.path.inotifyTriggered with
    | false =>
      have left : MovedOn run.started
          { pathEnterWaiting ans false false run with notified := false } :=
        .inl (pathEnterWaiting_unchecked ans false run)
      simpa using notifiedAgain_movedOn rest left
    | true =>
      cases held : heldBack ans run.path.specs with
      | false =>
        have moved : MovedOn run.started
            { pathEnterWaiting ans false true run with notified := false } :=
          pathEnterWaiting_movedOn ans run held
        simpa [HeldBack, held] using notifiedAgain_movedOn rest moved
      | true =>
        rw [pathEnterWaiting_held ans run held]
        have next := ih { run.withSpecs (specsBehind ans run.path.specs) with notified := false }
          running
        cases rest with
        | nil => simp [notifiedAgain, MovedOn, running, HeldBack, held]
        | cons => simpa [HeldBack, held, triggered] using next

end

namespace World

structure OnlyTimers (w w' : World U) : Prop where
  registry : w'.registry = w.registry
  nReloading : w'.nReloading = w.nReloading
  path : w'.path = w.path
  started : w'.started = w.started

namespace OnlyTimers

variable {w w' : World U}

theorem rfl' : OnlyTimers w w := ⟨rfl, rfl, rfl, rfl⟩

theorem trans {w'' : World U} (first : OnlyTimers w w') (second : OnlyTimers w' w'') :
    OnlyTimers w w'' where
  registry := second.registry.trans first.registry
  nReloading := second.nReloading.trans first.nReloading
  path := second.path.trans first.path
  started := second.started.trans first.started

theorem lookup (only : OnlyTimers w w') : w'.lookup = w.lookup := by
  funext type name
  simp [World.lookup, only.registry]

theorem pathRun (only : OnlyTimers w w') : w'.pathRun = w.pathRun := by
  funext p
  simp [World.pathRun, only.path, only.started]

end OnlyTimers

variable [DecidableEq U]

theorem stamp_only (w : World U) (u : U) (now : UInt64) (os ns : UnitActiveState) :
    OnlyTimers w (w.stamp u now os ns) := ⟨rfl, rfl, rfl, rfl⟩

section

variable (visits : CString -> TimerVisit) (u : U) (ns : UnitActiveState)

variable (w : World U) (name : CString) (names : List CString) (t : U)

theorem timerVisited_only : OnlyTimers w (timerVisited visits u ns w name) := by
  unfold timerVisited
  split
  next => exact .rfl'
  next =>
    split
    next => exact ⟨rfl, rfl, rfl, rfl⟩
    next => exact .rfl'

theorem timersVisited_only : OnlyTimers w (names.foldl (timerVisited visits u ns) w) := by
  induction names generalizing w with
  | nil => exact .rfl'
  | cons name rest ih => exact (timerVisited_only visits u ns w name).trans (ih _)

theorem timerUnitNotify_only : OnlyTimers w (timerUnitNotify visits u ns w) := by
  unfold timerUnitNotify
  split
  next => exact .rfl'
  next => exact timersVisited_only visits u ns w _

theorem timerVisited_timer :
    (timerVisited visits u ns w name).timer t =
      if w.lookup .timer name = some t ∧ (w.timer t).unit = some u then
        timerUnitNotified (w.clocks t u (visits name).now) (visits name).answers ns (w.timer t)
      else
        w.timer t := by
  unfold timerVisited
  split
  next missing => simp [missing]
  next found present =>
    by_cases same : found = t
    next =>
      subst same
      by_cases mine : (w.timer found).unit = some u
      next => simp [present, mine, timerNotified, stamp]
      next => simp [mine]
    next =>
      have other : t ≠ found := Ne.symm same
      split <;> simp [present, same, timerNotified, stamp, update_of_ne other]

@[simp] theorem timerVisited_unit :
    ((timerVisited visits u ns w name).timer t).unit = (w.timer t).unit := by
  rw [timerVisited_timer]
  split <;> simp

theorem timersVisited_unreached
    (unreached : ∀ name ∈ names, w.lookup .timer name = some t -> (w.timer t).unit ≠ some u) :
    (names.foldl (timerVisited visits u ns) w).timer t = w.timer t := by
  induction names generalizing w with
  | nil => rfl
  | cons name rest ih =>
    have here : ¬ (w.lookup .timer name = some t ∧ (w.timer t).unit = some u) := by
      rintro ⟨present, mine⟩
      exact unreached name mem_cons_self present mine
    have untouched : (timerVisited visits u ns w name).timer t = w.timer t := by
      rw [timerVisited_timer, if_neg here]
    have later := ih (timerVisited visits u ns w name) (by
      rw [(timerVisited_only visits u ns w name).lookup, untouched]
      exact fun other mem => unreached other (mem_cons_of_mem name mem))
    rw [foldl_cons, later, untouched]

theorem timersVisited_left (left : (w.timer t).state ≠ .running) :
    ((names.foldl (timerVisited visits u ns) w).timer t).state ≠ .running := by
  induction names generalizing w with
  | nil => exact left
  | cons name rest ih =>
    apply ih
    rw [timerVisited_timer]
    split
    next => exact timerUnitNotified_left _ _ ns _ left
    next => exact left

theorem timersVisited_reached (mine : (w.timer t).unit = some u)
    (stopped : ns.isInactiveOrFailed = true) (reached : ∃ name ∈ names, w.lookup .timer name = some t) :
    ((names.foldl (timerVisited visits u ns) w).timer t).state ≠ .running := by
  induction names generalizing w with
  | nil => simp at reached
  | cons name rest ih =>
    by_cases here : w.lookup .timer name = some t
    next =>
      rw [foldl_cons]
      apply timersVisited_left
      rw [timerVisited_timer, if_pos ⟨here, mine⟩]
      exact timerUnitNotified_leaves _ _ ns _ stopped
    next =>
      obtain ⟨other, mem, present⟩ := reached
      have later : other ∈ rest := by
        rcases mem_cons.mp mem with rfl | later
        · exact absurd present here
        · exact later
      apply ih
      · simpa using mine
      · rw [(timerVisited_only visits u ns w name).lookup]
        exact ⟨other, later, present⟩

theorem timerUnitNotify_left (left : (w.timer t).state ≠ .running) :
    ((timerUnitNotify visits u ns w).timer t).state ≠ .running := by
  unfold timerUnitNotify
  split
  next => exact left
  next => exact timersVisited_left visits u ns w _ t left

theorem timerUnitNotify_other (other : (w.timer t).unit ≠ some u) :
    (timerUnitNotify visits u ns w).timer t = w.timer t := by
  unfold timerUnitNotify
  split
  next => rfl
  next => exact timersVisited_unreached visits u ns w _ t fun _ _ _ => other

end

section

variable (visits : CString -> PathVisit) (u : U) (ns : UnitActiveState)

variable (w : World U) (name : CString) (visit : PathVisit) (p : U) (os : UnitActiveState)

theorem pathReported_only (ns : UnitActiveState) : OnlyTimers w (w.pathReported visit p os ns) := by
  unfold pathReported
  split
  next => exact (stamp_only w p visit.reported os ns).trans (timerUnitNotify_only _ _ _ _)
  next => exact .rfl'

theorem pathReported_left (ns : UnitActiveState) (t : U) (left : (w.timer t).state ≠ .running) :
    ((w.pathReported visit p os ns).timer t).state ≠ .running := by
  unfold pathReported
  split
  next => exact timerUnitNotify_left visit.timers p ns _ t left
  next => exact left

theorem pathReported_other (ns : UnitActiveState) (t : U) (other : (w.timer t).unit ≠ some p) :
    (w.pathReported visit p os ns).timer t = w.timer t := by
  unfold pathReported
  split
  next => exact timerUnitNotify_other visit.timers p ns _ t other
  next => rfl

theorem pathVisited_registry : (pathVisited visits u ns w name).registry = w.registry := by
  unfold pathVisited pathNotified
  dsimp only
  split
  next => rfl
  next =>
    split
    next =>
      split
      next => exact (pathReported_only _ _ _ _ _).registry
      next => rfl
    next => rfl

theorem pathVisited_lookup : (pathVisited visits u ns w name).lookup = w.lookup := by
  funext type other
  simp [lookup, pathVisited_registry]

theorem pathVisited_left (t : U) (left : (w.timer t).state ≠ .running) :
    ((pathVisited visits u ns w name).timer t).state ≠ .running := by
  unfold pathVisited pathNotified
  dsimp only
  split
  next => exact left
  next =>
    split
    next =>
      split
      next => exact pathReported_left _ _ _ _ _ t left
      next => exact left
    next => exact left

theorem pathVisited_timer (t : U) (mine : (w.timer t).unit = some u)
    (other : w.registry.type u ≠ some .path) :
    (pathVisited visits u ns w name).timer t = w.timer t := by
  unfold pathVisited pathNotified
  dsimp only
  split
  next => rfl
  next p present =>
    have path : w.registry.type p = some .path := by
      have kept := (Option.filter_eq_some_iff.mp present).2
      exact (of_decide_eq_true kept).1
    have distinct : (w.timer t).unit ≠ some p := by
      rw [mine]
      intro same
      cases same
      exact other path
    split
    next =>
      split
      next => exact pathReported_other _ _ _ _ _ t distinct
      next => rfl
    next => rfl

theorem pathVisited_pathRun :
    (pathVisited visits u ns w name).pathRun p =
      if w.lookup .path name = some p ∧ (w.path p).unit = some u then
        { pathUnitNotified (visits name).answers ns (w.pathRun p) with notified := false }
      else
        w.pathRun p := by
  unfold pathVisited
  split
  next missing => simp [missing]
  next found present =>
    by_cases same : found = p
    next =>
      subst same
      by_cases mine : (w.path found).unit = some u
      next =>
        simp only [present, mine, and_self, if_true, pathNotified]
        split
        next =>
          rw [(pathReported_only _ _ _ _ _).pathRun]
          simp [pathRun]
        next => simp [pathRun]
      next => simp [mine]
    next =>
      have other : p ≠ found := Ne.symm same
      simp only [present, Option.some.injEq, same, false_and, if_false, pathNotified]
      split
      next =>
        split
        next =>
          rw [(pathReported_only _ _ _ _ _).pathRun]
          simp [pathRun, update_of_ne other]
        next => simp [pathRun, update_of_ne other]
      next => rfl

end

def leading (w : World U) (type : UnitType) (t : U) (names : List CString) : List CString :=
  names.filter fun name => w.lookup type name = some t

variable (visits : CString -> PathVisit) (u : U) (ns : UnitActiveState)

theorem pathsVisited_left (w : World U) (names : List CString) (t : U)
    (left : (w.timer t).state ≠ .running) :
    ((names.foldl (pathVisited visits u ns) w).timer t).state ≠ .running := by
  induction names generalizing w with
  | nil => exact left
  | cons name rest ih => exact ih _ (pathVisited_left visits u ns w name t left)

theorem pathsVisited_timer (w : World U) (names : List CString) (t : U)
    (mine : (w.timer t).unit = some u) (other : w.registry.type u ≠ some .path) :
    (names.foldl (pathVisited visits u ns) w).timer t = w.timer t := by
  induction names generalizing w with
  | nil => rfl
  | cons name rest ih =>
    have untouched := pathVisited_timer visits u ns w name t mine other
    rw [foldl_cons, ih _ (by rw [untouched, mine]) (by rwa [pathVisited_registry]), untouched]

theorem pathsVisited_pathRun (w : World U) (names : List CString) (p : U)
    (mine : (w.path p).unit = some u) :
    (names.foldl (pathVisited visits u .inactive) w).pathRun p =
      notifiedAgain ((w.leading .path p names).map fun name => (visits name).answers)
        (w.pathRun p) := by
  induction names generalizing w with
  | nil => rfl
  | cons name rest ih =>
    have run := pathVisited_pathRun visits u .inactive w name p
    have mine' : ((pathVisited visits u .inactive w name).pathRun p).path.unit = some u := by
      rw [run]
      split <;> simp [pathRun, mine]
    rw [foldl_cons, ih _ mine', run]
    by_cases here : w.lookup .path name = some p
    next => simp [leading, pathVisited_lookup, here, mine, notifiedAgain]
    next => simp [leading, pathVisited_lookup, here]

structure RunsTimer (w : World U) (u t : U) : Prop where
  type : w.registry.type t = some .timer
  loaded : w.registry.loadState t = .loaded
  running : (w.timer t).state = .running
  unit : (w.timer t).unit = some u

structure RunsPath (w : World U) (u p : U) : Prop where
  type : w.registry.type p = some .path
  loaded : w.registry.loadState p = .loaded
  running : (w.path p).state = .running
  unit : (w.path p).unit = some u

/-- Every timer and path that had started the unit has left that state, or started the unit anew. -/
structure Rearmed (w w' : World U) (u : U) : Prop where
  timers : ∀ t, w.RunsTimer u t -> (w'.timer t).state ≠ .running
  paths : ∀ p, w.RunsPath u p -> (w'.path p).state ≠ .running ∨ w.started p < w'.started p

structure FindsTimer (w : World U) (u t : U) : Prop where
  settled : w.nReloading = 0
  type : w.registry.type u ≠ some .timer
  named : w.leading .timer t (Registry.setMembers (w.registry.names u)) ≠ []

/-- A name of the unit leads to the path, and it is not the stop of the path that keeps a new
activation off, each time. -/
structure FindsPath (w : World U) (visits : CString -> PathVisit) (u p : U) : Prop where
  settled : w.nReloading = 0
  type : w.registry.type u ≠ some .path
  named : w.leading .path p (Registry.setMembers (w.registry.names u)) ≠ []
  free : (w.path p).inotifyTriggered = true ->
    ¬ HeldBack ((w.leading .path p (Registry.setMembers (w.registry.names u))).map
      fun name => (visits name).answers) (w.path p).specs

theorem pathUnitNotify_left (w : World U) (t : U) (left : (w.timer t).state ≠ .running) :
    ((pathUnitNotify visits u ns w).timer t).state ≠ .running := by
  unfold pathUnitNotify
  split
  next => exact left
  next => exact pathsVisited_left visits u ns w _ t left

theorem pathUnitNotify_timer (w : World U) (t : U) (mine : (w.timer t).unit = some u) :
    (pathUnitNotify visits u ns w).timer t = w.timer t := by
  unfold pathUnitNotify
  split
  next => rfl
  next other => exact pathsVisited_timer visits u ns w _ t mine other

theorem leading_of_only {w w' : World U} (only : OnlyTimers w w') (type : UnitType) (t : U)
    (names : List CString) : w'.leading type t names = w.leading type t names := by
  simp [leading, only.lookup]

theorem leading_ne_nil {w : World U} {type : UnitType} {t : U} {names : List CString} :
    w.leading type t names ≠ [] ↔ ∃ name ∈ names, w.lookup type name = some t := by
  simp [leading, filter_eq_nil_iff]

theorem timer_rearmed_iff (visits : Visits) (w : World U) (u t : U) (os : UnitActiveState)
    (runs : w.RunsTimer u t) :
    ((w.unitNotify visits u os .inactive).timer t).state ≠ .running ↔ w.FindsTimer u t := by
  constructor
  next =>
    intro left
    by_contra hidden
    apply left
    unfold unitNotify
    split
    next settled =>
      have untouched : (timerUnitNotify visits.timers u .inactive
          (w.stamp u visits.reported os .inactive)).timer t = w.timer t := by
        unfold timerUnitNotify
        split
        next => rfl
        next type =>
          apply timersVisited_unreached
          intro name mem present mine
          exact hidden ⟨settled, type, leading_ne_nil.mpr ⟨name, mem, present⟩⟩
      rw [pathUnitNotify_timer _ _ _ _ t (by rw [untouched, runs.unit]), untouched, runs.running]
    next => exact runs.running
  next =>
    rintro ⟨settled, type, named⟩
    unfold unitNotify
    rw [if_pos settled]
    apply pathUnitNotify_left
    unfold timerUnitNotify
    rw [if_neg (by exact type)]
    exact timersVisited_reached _ u _ _ _ t runs.unit (by decide) (leading_ne_nil.mp named)

theorem path_rearmed_iff (visits : Visits) (w : World U) (u p : U) (os : UnitActiveState)
    (runs : w.RunsPath u p) :
    MovedOn (w.started p) ((w.unitNotify visits u os .inactive).pathRun p) ↔
      w.FindsPath visits.paths u p := by
  have only := (stamp_only w u visits.reported os .inactive).trans
    (timerUnitNotify_only visits.timers u .inactive _)
  have stays : ¬ MovedOn (w.started p) (w.pathRun p) := by
    simp [MovedOn, pathRun, runs.running]
  unfold unitNotify
  split
  next settled =>
    unfold pathUnitNotify
    rw [only.registry]
    split
    next type =>
      rw [only.pathRun]
      exact ⟨fun moved => absurd moved stays, fun finds => absurd type finds.type⟩
    next type =>
      rw [pathsVisited_pathRun _ u _ _ p (by rw [only.path, runs.unit]), only.pathRun,
        leading_of_only only]
      have moves := notifiedAgain_movedOn_iff
        ((w.leading .path p (Registry.setMembers (w.registry.names u))).map
          fun name => (visits.paths name).answers) (w.pathRun p) runs.running
      refine moves.trans ⟨fun moved => ?_, fun finds => ?_⟩
      next =>
        exact ⟨settled, type, fun unnamed => moved.1 (by simp [unnamed]),
          fun triggered held => moved.2 ⟨triggered, held⟩⟩
      next =>
        exact ⟨by simpa using finds.named, fun held => finds.free held.1 held.2⟩
  next reloading =>
    exact ⟨fun moved => absurd moved stays, fun finds => absurd finds.settled reloading⟩

/-- Exactly when every timer and path that had started a unit is armed again once the unit is reported
inactive. -/
theorem notified_rearms_iff (visits : Visits) (w : World U) (u : U) (os : UnitActiveState) :
    Rearmed w (w.unitNotify visits u os .inactive) u ↔
      (∀ t, w.RunsTimer u t -> w.FindsTimer u t) ∧
        ∀ p, w.RunsPath u p -> w.FindsPath visits.paths u p := by
  constructor
  next =>
    intro rearmed
    exact ⟨fun t runs => (timer_rearmed_iff visits w u t os runs).mp (rearmed.timers t runs),
      fun p runs => (path_rearmed_iff visits w u p os runs).mp (rearmed.paths p runs)⟩
  next =>
    rintro ⟨timers, paths⟩
    exact ⟨fun t runs => (timer_rearmed_iff visits w u t os runs).mpr (timers t runs),
      fun p runs => (path_rearmed_iff visits w u p os runs).mpr (paths p runs)⟩

end World

namespace Examples

inductive Named where
  | timer
  | service
  deriving DecidableEq

def single (name : CString) : OrderedSet CString := ⟨[name], by simp⟩

def fooTimer : CString := .ofString "foo.timer"

def barService : CString := .ofString "bar.service"

def registry : Registry Named :=
  { Registry.empty with
    type := fun u => match u with | .timer => some .timer | .service => some .service
    names := fun u => match u with
      | .timer => some (single fooTimer)
      | .service => some (single barService)
    loadState := fun _ => .loaded
    units := [(fooTimer, .timer), (barService, .service)] }

def elapsedOnce : World Named where
  registry := registry
  nReloading := 0
  startup := 0
  times := fun _ => {}
  timer := fun _ =>
    { values := [{ value := 10000000, base := .unitInactive }]
      state := .running
      unit := some .service }
  path := fun _ => { specs := [] }
  started := fun _ => 0

def files : Files := ⟨fun _ => false, fun _ => false, fun _ => .enoent⟩

def timerVisit : TimerVisit := ⟨50, 60, ⟨true, true, false, true⟩⟩

def visits : Visits where
  reported := 40
  timers := fun _ => timerVisit
  paths := fun _ => ⟨⟨files, fun _ => true, files, false, true, fun _ => true, true⟩, 70,
    fun _ => timerVisit⟩

/-- No name of bar.service is foo.service, so the timer never learns that the service has stopped. -/
theorem timer_of_other_name_not_rearmed :
    ¬ World.Rearmed elapsedOnce (elapsedOnce.unitNotify visits .service .deactivating .inactive)
      .service := by
  intro rearmed
  have left := rearmed.timers .timer ⟨rfl, rfl, rfl, rfl⟩
  revert left
  decide

end Examples

end Systemd.Triggers
