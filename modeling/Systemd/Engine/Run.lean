import Systemd.Engine.Finish

set_option autoImplicit false

namespace Systemd

variable {U : Type} [DecidableEq U]

def unitHasJob (m : Manager U) (u : U) : Bool := (m.metaJob u).isSome

def unitHasStopLikeJob (m : Manager U) (u : U) : Bool :=
  match m.metaJob u with
  | some k =>
    (m.job k).type == .stop || (m.job k).type == .restart || (m.job k).type == .tryRestart
  | none => false

def JobType.waitsForPredecessors (type : JobType) : Bool :=
  type == .start || type == .verifyActive || type == .reload || type == .reloadOrStart

def jobIsRunnable (E : Units U) (m : Manager U) (j : JobId) : Bool :=
  (m.job j).ignoreOrder ||
    (!((m.job j).type.waitsForPredecessors &&
        (E.dependencies .after (m.job j).unit).any (unitHasJob m)) &&
      !(E.dependencies .before (m.job j).unit).any (unitHasStopLikeJob m))

inductive UnitCall where
  | start
  | stop
  | reload
  deriving DecidableEq

/-- What job_run_and_invalidate does once it has set the job running: call into the unit, where
`waits` tells that -EBADR counts as success, or settle the result itself. -/
inductive RunStep where
  | returned (result : Option Errno)
  | call (op : UnitCall) (waits : Bool)
  | settled (errno : Errno)
  deriving DecidableEq

def jobOperation (m : Manager U) (j : JobId) : JobType × RunStep :=
  let state := m.activeState (m.job j).unit
  match (m.job j).type with
  | .start => (.start, .call .start true)
  | .verifyActive =>
    (.verifyActive, .settled <|
      if state.isActiveOrReloading then .ealready
      else if state = .activating then .eagain
      else .enoexec)
  | .stop => (.stop, .call .stop true)
  | .reload => (.reload, .call .reload false)
  | .reloadOrStart =>
    if state = .active then (.reload, .call .reload false) else (.start, .call .start true)
  | .restart =>
    if state = .inactive ∨ state = .failed ∨ state = .activating then (.start, .call .start false)
    else (.restart, .call .stop false)
  | .tryRestart =>
    if state = .inactive ∨ state = .failed ∨ state = .deactivating then
      (.tryRestart, .settled .enoexec)
    else if state = .activating then (.start, .call .start false)
    else (.restart, .call .stop false)

-- job_run_and_invalidate up to and including the point where it calls into the unit.
def jobRunBegin (E : Units U) (m : Manager U) (j : JobId) : Manager U × RunStep :=
  let m := { m with runQueue := m.runQueue.erase j }
  if (m.job j).state ≠ .waiting then (m, .returned none)
  else if !jobIsRunnable E m j then (m, .returned (some .eagain))
  else
    let (type, step) := jobOperation m j
    (m.setJob j fun job => { job with state := .running, type := type }, step)

def jobRunEnd (finish : FinishFunction U) (w : World U) (j : JobId) (result : Option Errno) :
    Except Fault (World U) :=
  if j ∈ w.manager.jobs then
    match result with
    | none => .ok w
    | some .ealready => finish w j .done
    | some .enoexec => finish w j .skipped
    | some .eagain => .ok (w.set (w.manager.setJob j fun job => { job with state := .waiting }))
    | some _ => finish w j .failed
  else .ok w

def jobRunAndInvalidate (E : Units U) (finish : FinishFunction U)
    (operate : World U -> Except Fault (World U × Option Errno)) (w : World U) (j : JobId) :
    Except Fault (World U) :=
  match jobRunBegin E w.manager j with
  | (m, .returned _) => .ok (w.set m)
  | (m, .settled errno) => jobRunEnd finish (w.set m) j (some errno)
  | (m, .call _ waits) => do
    let (w, result) ← operate (w.set m)
    jobRunEnd finish w j (if waits ∧ result = some .ebadr then none else result)

def unitCheckUnneeded (E : Units U) (add : AddJobFunction U) (w : World U) (u : U) :
    Except Fault (World U) :=
  let idle (kind : UnitDependency) : Bool :=
    (E.dependencies kind u).all fun other => (w.manager.activeState other).isInactiveOrDeactivating
  if E.stopWhenUnneeded u && (w.manager.activeState u).isActiveOrActivating &&
      idle .requiredBy && idle .requiredByOverridable && idle .wantedBy && idle .boundBy then do
    let (w, _) ← add w { type := .stop, unit := u, mode := .fail, override := true }
    .ok w
  else .ok w

def addForEach (add : AddJobFunction U) (wanted : World U -> U -> Bool) (type : JobType)
    (mode : JobMode) (override : Bool) (w : World U) (others : List U) : Except Fault (World U) :=
  others.foldlM (fun w other =>
    if wanted w other then do
      let (w, _) ← add w { type := type, unit := other, mode := mode, override := override }
      .ok w
    else .ok w) w

def retroactivelyStartDependencies (E : Units U) (add : AddJobFunction U) (w : World U) (u : U) :
    Except Fault (World U) := do
  let down (w : World U) (other : U) : Bool :=
    !decide (other ∈ E.dependencies .after u) &&
      !(w.manager.activeState other).isActiveOrActivating
  let up (w : World U) (other : U) : Bool :=
    !(w.manager.activeState other).isInactiveOrDeactivating
  let w ← addForEach add down .start .replace true w (E.dependencies .requires u)
  let w ← addForEach add down .start .replace true w (E.dependencies .bindTo u)
  let w ← addForEach add down .start .fail false w (E.dependencies .requiresOverridable u)
  let w ← addForEach add down .start .replace true w (E.dependencies .requisite u)
  let w ← addForEach add down .start .fail false w (E.dependencies .wants u)
  let w ← addForEach add up .stop .replace true w (E.dependencies .conflicts u)
  addForEach add up .stop .replace true w (E.dependencies .conflictedBy u)

def checkUnneededEach (E : Units U) (add : AddJobFunction U) (w : World U) (others : List U) :
    Except Fault (World U) :=
  others.foldlM (fun w other =>
    if !(w.manager.activeState other).isInactiveOrDeactivating then unitCheckUnneeded E add w other
    else .ok w) w

def retroactivelyStopDependencies (E : Units U) (add : AddJobFunction U) (w : World U) (u : U) :
    Except Fault (World U) := do
  let up (w : World U) (other : U) : Bool :=
    !(w.manager.activeState other).isInactiveOrDeactivating
  let w ← addForEach add up .stop .replace true w (E.dependencies .boundBy u)
  let w ← checkUnneededEach E add w (E.dependencies .requires u)
  let w ← checkUnneededEach E add w (E.dependencies .requiresOverridable u)
  let w ← checkUnneededEach E add w (E.dependencies .wants u)
  let w ← checkUnneededEach E add w (E.dependencies .requisite u)
  let w ← checkUnneededEach E add w (E.dependencies .requisiteOverridable u)
  checkUnneededEach E add w (E.dependencies .bindTo u)

-- The result unit_notify finishes the unit's job with, if any, and whether the change of state was
-- unexpected.
def notifiedJob (job : Job U) (ns : UnitActiveState) (reloadSuccess : Bool) :
    Option JobResult × Bool :=
  let ended : Option JobResult :=
    if ns.isInactiveOrFailed then some (if ns = .failed then .failed else .done) else none
  match job.type with
  | .start | .verifyActive =>
    if ns.isActiveOrReloading then (some .done, false)
    else if job.state = .running ∧ ns ≠ .activating then (ended, true)
    else (none, false)
  | .reload | .reloadOrStart =>
    if job.state = .running then
      if ns = .active then (some (if reloadSuccess then .done else .failed), false)
      else if ns ≠ .activating ∧ ns ≠ .reloading then (ended, true)
      else (none, false)
    else (none, false)
  | .stop | .restart | .tryRestart =>
    if ns.isInactiveOrFailed then (some .done, false)
    else if job.state = .running ∧ ns ≠ .deactivating then (some .failed, true)
    else (none, false)

def notifyJob (finish : FinishFunction U) (w : World U) (u : U) (ns : UnitActiveState)
    (reloadSuccess : Bool) : Except Fault (World U × Bool) :=
  match w.manager.metaJob u with
  | none => .ok (w, true)
  | some j =>
    let m := if (w.manager.job j).state = .waiting then jobAddToRunQueue w.manager j else w.manager
    match notifiedJob (m.job j) ns reloadSuccess with
    | (none, unexpected) => .ok (w.set m, unexpected)
    | (some result, unexpected) => do
      let w ← finish (w.set m) j result
      .ok (w, unexpected)

-- timer_unit_notify and path_unit_notify: `triggered` times, a timer or path with this unit starts it. What
-- becomes of the timer or path itself is a change of state of its own, notified as such.
def triggersNotify (add : AddJobFunction U) (w : World U) (u : U) (triggered : Nat) : Except Fault (World U) :=
  if w.manager.nReloading = 0 then
    addForEach add (fun _ _ => true) .start .replace true w (List.replicate triggered u)
  else .ok w

-- unit_notify as far as jobs are concerned. The unit has just moved from `os` to `ns`.
def unitNotify (E : Units U) (finish : FinishFunction U) (add : AddJobFunction U) (w : World U)
    (u : U) (os ns : UnitActiveState) (reloadSuccess : Bool) (triggered : Nat) : Except Fault (World U) := do
  let w ← triggersNotify add w u triggered
  let (w, unexpected) ← notifyJob finish w u ns reloadSuccess
  let w ← if w.manager.nReloading = 0 then do
      let w ← if unexpected then
          if os.isInactiveOrFailed && ns.isActiveOrActivating then
            retroactivelyStartDependencies E add w u
          else if os.isActiveOrActivating && ns.isInactiveOrDeactivating then
            retroactivelyStopDependencies E add w u
          else .ok w
        else .ok w
      if ns ≠ os ∧ ns = .failed then unitTriggerOnFailure E add w u else .ok w
    else .ok w
  unitCheckUnneeded E add w u

/-- One event of the main loop. What a unit's start, stop or reload operation does before it returns
`result` to job_run_and_invalidate is any sequence of further events. -/
inductive Action (U : Type) where
  | addJob (request : JobRequest U)
  | runJob (j : JobId) (calls : List (Action U)) (result : Option Errno)
  | finishJob (j : JobId) (result : JobResult)
  | notify (u : U) (ns : UnitActiveState) (reloadSuccess : Bool) (triggered : Nat := 0)

mutual

def exec [Fintype U] (E : Units U) (fuel : Nat) : Action U -> World U -> Except Fault (World U)
  | .addJob request, w => do
    let (w, _) ← managerAddJob E fuel w request
    .ok w
  | .runJob j calls result, w =>
    if j ∈ w.manager.jobs then
      jobRunAndInvalidate E (jobFinishAndInvalidate E fuel)
        (fun w => do
          let w ← execAll E fuel calls w
          .ok (w, result)) w j
    else .error .assertion
  | .finishJob j result, w =>
    if j ∈ w.manager.jobs then jobFinishAndInvalidate E fuel w j result else .error .assertion
  | .notify u ns reloadSuccess triggered, w =>
    let os := w.manager.activeState u
    let m := { w.manager with activeState := Function.update w.manager.activeState u ns }
    unitNotify E (jobFinishAndInvalidate E fuel) (managerAddJob E fuel) (w.set m) u os ns
      reloadSuccess triggered

def execAll [Fintype U] (E : Units U) (fuel : Nat) :
    List (Action U) -> World U -> Except Fault (World U)
  | [], w => .ok w
  | action :: rest, w => do
    let w ← exec E fuel action w
    execAll E fuel rest w

end

structure Initial (m : Manager U) : Prop where
  jobs : m.jobs = []
  metaJob : ∀ u, m.metaJob u = none
  transactionUnits : m.transactionUnits = []
  chain : ∀ u, m.chain u = []
  links : m.links = []
  runQueue : m.runQueue = []

variable {m : Manager U}

omit [DecidableEq U] in
theorem Initial.quiescent (initial : Initial m) : Quiescent m :=
  ⟨initial.transactionUnits, initial.chain, initial.links⟩

omit [DecidableEq U] in
theorem Initial.wellFormed (initial : Initial m) : WellFormed m := by
  obtain ⟨jobs, metaJob, units, chain, links, queue⟩ := initial
  constructor <;> simp [jobs, metaJob, units, chain, links, queue]

inductive Reachable [Fintype U] (E : Units U) : World U -> Prop where
  | initial (m : Manager U) : Initial m -> Reachable E ⟨m, []⟩
  | step (fuel : Nat) (action : Action U) (w w' : World U) :
      Reachable E w -> exec E fuel action w = .ok w' -> Reachable E w'

theorem Reachable.execAll [Fintype U] {E : Units U} (fuel : Nat) (actions : List (Action U))
    {w w' : World U} (reachable : Reachable E w) (run : execAll E fuel actions w = .ok w') :
    Reachable E w' := by
  induction actions generalizing w with
  | nil =>
    rw [Systemd.execAll] at run
    exact Except.ok.inj run ▸ reachable
  | cons action rest ih =>
    rw [Systemd.execAll] at run
    cases first : exec E fuel action w with
    | error fault => simp [first, bind, Except.bind] at run
    | ok middle =>
      rw [first] at run
      exact ih (.step fuel action w middle reachable first) run

def startupManager (u : U) : Manager U where
  job := fun _ => { unit := u, type := .start }
  jobs := []
  metaJob := fun _ => none
  activeState := fun _ => .inactive
  transactionUnits := []
  chain := fun _ => []
  links := []
  runQueue := []
  currentJobId := 1

omit [DecidableEq U] in
theorem startupManager_initial (u : U) : Initial (startupManager u) :=
  ⟨rfl, fun _ => rfl, rfl, fun _ => rfl, rfl, rfl⟩

theorem reachable_of_run [Fintype U] (E : Units U) (u : U) (fuel : Nat) (actions : List (Action U))
    (P : World U -> Bool) (run : (execAll E fuel actions ⟨startupManager u, []⟩).toOption.any P = true) :
    ∃ w, Reachable E w ∧ P w = true := by
  cases outcome : execAll E fuel actions ⟨startupManager u, []⟩ with
  | error fault => simp [outcome, Except.toOption] at run
  | ok w =>
    refine ⟨w, Reachable.execAll fuel actions (.initial _ (startupManager_initial u)) outcome, ?_⟩
    simpa [outcome, Except.toOption] using run

theorem success_of_eval [Fintype U] (E : Units U) (fuel : Nat) (w : World U) (request : JobRequest U)
    (P : World U -> JobId -> Bool) (run : (managerAddJob E fuel w request).toOption.any (fun result =>
      result.2.toOption.any (P result.1)) = true) :
    ∃ w' ret, managerAddJob E fuel w request = .ok (w', .ok ret) ∧ P w' ret = true := by
  cases outcome : managerAddJob E fuel w request with
  | error fault => simp [outcome, Except.toOption] at run
  | ok result =>
    obtain ⟨w', status⟩ := result
    cases status with
    | error e => simp [outcome, Except.toOption] at run
    | ok ret => exact ⟨w', ret, rfl, by simpa [outcome, Except.toOption] using run⟩

def loadedUnits (n : Nat) (dependencies : UnitDependency -> Fin n -> List (Fin n)) :
    Units (Fin n) where
  id := fun u => toString u.val
  dependencies := dependencies
  followingSet := fun _ => []
  loadState := fun _ => .loaded
  loadError := fun _ => ""
  canStart := fun _ => true
  canReload := fun _ => true
  ignoreOnIsolate := fun _ => false
  allowIsolate := fun _ => true
  onFailureIsolate := fun _ => false
  stopWhenUnneeded := fun _ => false
  units := List.finRange n

end Systemd
