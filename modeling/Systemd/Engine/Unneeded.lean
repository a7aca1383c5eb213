import Systemd.Engine.Turns
import Systemd.Shared.Reached

set_option autoImplicit false

namespace Systemd

open Loop List Option

variable {U : Type}

def NeededBy (E : Units U) (u v : U) : Prop :=
  v ∈ E.dependencies .requiredBy u ∨ v ∈ E.dependencies .requiredByOverridable u ∨
    v ∈ E.dependencies .wantedBy u ∨ v ∈ E.dependencies .boundBy u

def requirements (E : Units U) (x : U) : List U :=
  E.dependencies .requires x ++ (E.dependencies .requiresOverridable x ++ (E.dependencies .wants x ++
    (E.dependencies .requisite x ++ (E.dependencies .requisiteOverridable x ++ E.dependencies .bindTo x))))

structure Unneeded (E : Units U) (m : Manager U) (u : U) : Prop where
  stopWhenUnneeded : E.stopWhenUnneeded u = true
  active : (m.activeState u).isActiveOrReloading = true
  nobody : ∀ v, NeededBy E u v -> (m.activeState v).isInactiveOrDeactivating = true

def Concerns (E : Units U) (u y : U) : Prop :=
  y = u ∨ NeededBy E u y

def Attended (E : Units U) (m : Manager U) : Prop :=
  ∀ u, Unneeded E m u -> ∃ y, Concerns E u y ∧ unitHasJob m y = true

def unneededStop (u : U) : JobRequest U where
  type := .stop
  unit := u
  mode := .fail
  override := true

variable [DecidableEq U]

def Turn.Checks (E : Units U) (m : Manager U) : Turn U -> U -> Prop
  | .notify x ns reloadSuccess triggered, u =>
    u = x ∨ (u ∈ requirements E x ∧ unexpectedly m x ns reloadSuccess = true ∧
      (m.activeState x).isActiveOrActivating = true ∧ ns.isInactiveOrDeactivating = true) ∧
        (triggered = 0 ∨ NeededBy E u x)
  | _, _ => False

variable [Fintype U]

def Granted (E : Units U) (entries : List (Entry U)) : Prop :=
  ∀ e ∈ entries, e.request = unneededStop e.request.unit ->
    (e.manager.activeState e.request.unit).isActiveOrReloading = true -> ∃ m, ApplyCall E e m

theorem Granted.within {E : Units U} {w w1 w2 w' : World U} (granted : Granted E (w'.entered.drop w.entered.length))
    (first : Rests w w1) (between : Rests w1 w2) (last : Rests w2 w') :
    Granted E (w2.entered.drop w1.entered.length) :=
  fun e mem => granted e (entered_within first between last mem)

section

variable {E : Units U} {fuel : Nat} {w w' : World U}

variable {m : Manager U} {u : U}

section

omit [DecidableEq U] [Fintype U]

theorem Unneeded.isActiveOrActivating (unneeded : Unneeded E m u) :
    (m.activeState u).isActiveOrActivating = true := by
  have active := unneeded.active
  revert active
  cases m.activeState u <;> decide

theorem Unneeded.of_state {m' : Manager U} (unneeded : Unneeded E m u)
    (same : m'.activeState = m.activeState) : Unneeded E m' u :=
  ⟨unneeded.stopWhenUnneeded, by rw [same]; exact unneeded.active, by rw [same]; exact unneeded.nobody⟩

theorem unitHasJob_of_stopLike (stops : unitHasStopLikeJob m u = true) : unitHasJob m u = true := by
  obtain ⟨k, found, -⟩ := (unitHasStopLikeJob_iff _ _).mp stops
  simp [unitHasJob, found]

end

theorem checkUnneeded_stops (resting : Resting w.manager) (unneeded : Unneeded E w.manager u)
    (granted : Granted E (w'.entered.drop w.entered.length))
    (ran : unitCheckUnneeded E (managerAddJob E fuel) w u = .ok w') :
    unitHasStopLikeJob w'.manager u = true := by
  unfold unitCheckUnneeded at ran
  have nobody (kind : UnitDependency) (needs : ∀ v ∈ E.dependencies kind u, NeededBy E u v) :
      ((E.dependencies kind u).all fun v => (w.manager.activeState v).isInactiveOrDeactivating) = true :=
    all_eq_true.mpr fun v mem => unneeded.nobody v (needs v mem)
  simp only [unneeded.stopWhenUnneeded, unneeded.isActiveOrActivating,
    nobody .requiredBy fun v mem => .inl mem,
    nobody .requiredByOverridable fun v mem => .inr (.inl mem),
    nobody .wantedBy fun v mem => .inr (.inr (.inl mem)),
    nobody .boundBy fun v mem => .inr (.inr (.inr mem)), Bool.and_self, if_true] at ran
  obtain ⟨⟨w1, result⟩, added, rest⟩ := bind_ok ran
  obtain rfl : w1 = w' := Except.ok.inj rest
  obtain ⟨m, apply⟩ := granted _ (request_entered added) rfl unneeded.active
  obtain ⟨ret, rfl⟩ := granted_succeeds apply added
  exact stop_requested resting (by simp) rfl added

theorem checkUnneededEach_stops {others : List U} (resting : Resting w.manager) (mem : u ∈ others)
    (unneeded : Unneeded E w.manager u) (granted : Granted E (w'.entered.drop w.entered.length))
    (ran : checkUnneededEach E (managerAddJob E fuel) w others = .ok w') :
    unitHasStopLikeJob w'.manager u = true := by
  induction others generalizing w with
  | nil => cases mem
  | cons other rest ih =>
    rw [checkUnneededEach, foldlM_cons] at ran
    obtain ⟨w1, head, tail⟩ := bind_ok ran
    have first : Stops w w1 := by
      split at head
      · exact .checkUnneeded head
      · exact Except.ok.inj head ▸ .refl w
    have later : Stops w1 w' := .checkUnneededEach tail
    have resting1 := first.resting resting
    rcases mem_cons.mp mem with rfl | mem
    · refine later.kept resting1 u ?_
      split at head
      · exact checkUnneeded_stops resting unneeded (granted.within (.refl w) first.toRests later.toRests) head
      · rename_i down
        have up := unneeded.active
        revert down up
        cases w.manager.activeState u <;> simp [UnitActiveState.isActiveOrReloading,
          UnitActiveState.isInactiveOrDeactivating]
    · exact ih resting1 mem (unneeded.of_state (first.activeState resting.settled))
        (granted.within first.toRests later.toRests (.refl w')) tail

omit [DecidableEq U] [Fintype U] in
theorem retroactivelyStop_eq (add : AddJobFunction U) (w : World U) (x : U) :
    retroactivelyStopDependencies E add w x = (do
      let w ← addForEach add (fun w other => !(w.manager.activeState other).isInactiveOrDeactivating) .stop
        .replace true w (E.dependencies .boundBy x)
      checkUnneededEach E add w (requirements E x)) := by
  simp [retroactivelyStopDependencies, checkUnneededEach, requirements, foldlM_append]

theorem retroactively_checked {x : U} (resting : Resting w.manager) (required : u ∈ requirements E x)
    (unneeded : Unneeded E w.manager u) (granted : Granted E (w'.entered.drop w.entered.length))
    (ran : retroactivelyStopDependencies E (managerAddJob E fuel) w x = .ok w') :
    unitHasStopLikeJob w'.manager u = true := by
  rw [retroactivelyStop_eq] at ran
  obtain ⟨w1, bound, checked⟩ := bind_ok ran
  have first := (boundLoop_stops resting bound).1
  have later : Stops w1 w' := .checkUnneededEach checked
  exact checkUnneededEach_stops (first.resting resting) required
    (unneeded.of_state (first.activeState resting.settled))
    (granted.within first.toRests later.toRests (.refl w')) checked

theorem notify_checked {x : U} {ns : UnitActiveState} {reloadSuccess : Bool} {triggered : Nat}
    (resting : Resting w.manager) (reading : w.manager.nReloading = 0)
    (unneeded : Unneeded E (Turn.told w.manager (.notify x ns reloadSuccess triggered)) u)
    (checks : Turn.Checks E w.manager (.notify x ns reloadSuccess triggered) u)
    (granted : Granted E (w'.entered.drop w.entered.length))
    (calm : ¬Isolated E (w'.entered.drop w.entered.length))
    (ran : perform E fuel (.notify x ns reloadSuccess triggered) w = .ok w') :
    ∃ y, Concerns E u y ∧ unitHasJob w'.manager y = true := by
  rw [perform, exec] at ran
  obtain ⟨w0, same⟩ : ∃ w0, w0 = w.set (Turn.told w.manager (.notify x ns reloadSuccess triggered)) := ⟨_, rfl⟩
  change unitNotify E _ _ (w.set (Turn.told w.manager (.notify x ns reloadSuccess triggered))) x _ ns reloadSuccess
    triggered = _ at ran
  rw [← same] at ran
  have entered0 : w0.entered = w.entered := by rw [same]; rfl
  rw [← entered0] at granted calm
  have unneeded0 : Unneeded E w0.manager u := by rwa [same]
  have resting0 : Resting w0.manager := by
    rw [same]
    exact resting.told (.notify x ns reloadSuccess triggered)
  obtain ⟨v0, w1, unexpected, w2, w3, again, notified, retroactive, onFailure, checked, stopped⟩ :=
    unitNotify_stages (fun _ => False) ran
  have restarts := triggersNotify_rests again
  have restingV := restarts.resting resting0
  obtain ⟨notifies, surprise⟩ := Outlasts.notifyJob triggered restingV notified
  have last : Outlasts E (fun _ => False) w3 w' := Outlasts.route.unitCheckUnneeded Outlasts.add checked
  have first := restarts.trans notifies.toRests
  have resting1 := first.resting resting0
  have resting2 := retroactive.resting resting1
  have state1 := first.activeState resting0.settled
  have state2 := retroactive.activeState resting1.settled
  have state3 := onFailure.activeState resting2.settled
  have before := first.trans retroactive.toRests
  have calmAfter {v : World U} (begun : Rests w0 v) (rest : Rests v w') :
      ¬Isolated E (w'.entered.drop v.entered.length) := fun ⟨e, mem, isolates⟩ =>
    calm ⟨e, entered_within begun rest (.refl w') mem, isolates⟩
  rcases checks with rfl | ⟨⟨required, unexpect, alive, gone⟩, needs⟩
  · have unneeded3 := ((unneeded0.of_state state1).of_state state2).of_state state3
    exact ⟨u, .inl rfl, unitHasJob_of_stopLike (checkUnneeded_stops (onFailure.resting resting2) unneeded3
      (granted.within (before.trans onFailure.toRests) last.toRests (.refl w')) checked)⟩
  · rcases triggersNotify_leaves resting0 again with keeps | ⟨starts, queued⟩
    · have reading1 : w1.manager.nReloading = 0 := by
        rw [first.nReloading resting0.settled, same]
        exact reading
      have unexpected1 : unexpected = true := by
        rw [surprise, keeps.unexpectedly, same]
        exact unexpect
      have stops := retroactively_checked resting1 required (unneeded0.of_state state1)
        (granted.within first retroactive.toRests (onFailure.toRests.trans last.toRests))
        (stopped reading1 unexpected1 alive gone)
      exact ⟨u, .inl rfl, (onFailure.trans last).kept resting2
        (calmAfter before (onFailure.toRests.trans last.toRests)) u id (unitHasJob_of_stopLike stops)⟩
    -- The start that is queued for the unit now keeps it concerned with what it needs.
    · obtain ⟨k, found, waiting, type⟩ := queued
      have later := notifies.trans ((retroactive.trans (onFailure.trans last)).weaken fun _ => False.elim)
      refine ⟨x, .inr (needs.resolve_left starts), later.kept restingV (calmAfter restarts later.toRests) x ?_
        (by simp [unitHasJob, found])⟩
      intro costs
      have up := (queued_costs restingV.wf ⟨k, found, waiting, type⟩ costs).2
      revert gone up
      cases ns <;> decide

end

structure Turn.Attends (E : Units U) (fuel : Nat) (turn : Turn U) (w : World U) : Prop where
  /-- Where a unit gets unneeded or loses a job, unit_check_unneeded() looks at the unneeded unit, or one
  that it concerns keeps a job. -/
  covered : ∀ u, Unneeded E (turn.told w.manager) u -> turn.Checks E w.manager u ∨
    Unneeded E w.manager u ∧ turn.ends E w.manager = none ∨
      ∃ y, Concerns E u y ∧ unitHasJob w.manager y = true ∧ ¬turn.Costs E w.manager y
  /-- Nothing is isolated where a unit is unneeded, unless the isolation leaves it somebody with a job. -/
  isolated : ∀ w', perform E fuel turn w = .ok w' -> Isolated E (w'.entered.drop w.entered.length) ->
    (∀ u, ¬Unneeded E (turn.told w.manager) u) ∨
      ∃ request, turn = .addJob request ∧ ∀ m, ApplyCall E ⟨w.manager, request⟩ m ->
        Undisturbed E m ∧
          ∀ u, Unneeded E w.manager u -> ∃ y, Concerns E u y ∧ m.transactionGet y ≠ none

section

variable {E : Units U} {fuel : Nat} {w w' : World U} {turn : Turn U}

theorem isolate_attended {request : JobRequest U} {result : Except (RequestError U) JobId}
    (resting : Resting w.manager) (attended : Attended E w.manager)
    (spares : ∀ m, ApplyCall E ⟨w.manager, request⟩ m -> Undisturbed E m ∧
      ∀ u, Unneeded E w.manager u -> ∃ y, Concerns E u y ∧ m.transactionGet y ≠ none)
    (ran : managerAddJob E fuel w request = .ok (w', result)) : Attended E w'.manager := by
  have same := ((Rests.engine E fuel).2 w request w' result ran).activeState resting.settled
  intro u unneeded
  have unneeded0 := unneeded.of_state same.symm
  cases result with
  | error e =>
    obtain ⟨y, concerns, has⟩ := attended u unneeded0
    exact ⟨y, concerns, by rwa [refused_hasJob resting ran]⟩
  | ok ret =>
    obtain ⟨m1, m, m', stages⟩ := managerAddJob_succeeded w' resting.wf resting.quiet ran
    obtain ⟨undisturbed, spared⟩ := spares m' stages.applyCall
    obtain ⟨y, concerns, involved⟩ := spared u unneeded0
    obtain ⟨j, found⟩ := ne_none_iff_exists'.mp involved
    have placed := (stages.applied fun _ => undisturbed).placed y j found
    exact ⟨y, concerns, by simp [unitHasJob, placed]⟩

omit [Fintype U] in
-- The unit that is up then is the unneeded one itself, or nobody that needs it.
theorem Concerns.not_startDone {u y : U} (concerns : Concerns E u y) (unneeded : Unneeded E (turn.told w.manager) u)
    (unchecked : ¬turn.Checks E w.manager u) : ¬turn.StartDone y := by
  cases turn with
  | notify x ns reloadSuccess triggered =>
    rintro ⟨-, rfl, up⟩
    rcases concerns with rfl | needs
    · exact unchecked (.inl rfl)
    · have down := unneeded.nobody y needs
      simp only [Turn.told, Function.update_self] at down
      revert down up
      cases ns <;> decide
  | _ => exact id

theorem perform_attended (resting : Resting w.manager) (reading : w.manager.nReloading = 0)
    (attended : Attended E w.manager) (attends : turn.Attends E fuel w) (granted : (∃ x ns reloadSuccess
      triggered, turn = .notify x ns reloadSuccess triggered) -> Granted E (w'.entered.drop
      w.entered.length)) (ran : perform E fuel turn w = .ok w') : Attended E w'.manager := by
  have outlasts := perform_outlasts resting ran
  have resting0 : Resting (turn.told w.manager) := resting.told turn
  have same : w'.manager.activeState = (turn.told w.manager).activeState := outlasts.activeState resting0.settled
  by_cases isolated : Isolated E (w'.entered.drop w.entered.length)
  · rcases attends.isolated w' ran isolated with nobody | ⟨request, rfl, spares⟩
    · exact fun u unneeded => absurd (unneeded.of_state same.symm) (nobody u)
    · rw [perform, exec] at ran
      obtain ⟨⟨w1, result⟩, added, rest⟩ := bind_ok ran
      obtain rfl : w1 = w' := Except.ok.inj rest
      exact isolate_attended resting attended spares added
  · intro u unneeded
    have unneeded0 : Unneeded E (turn.told w.manager) u := unneeded.of_state same.symm
    by_cases checks : turn.Checks E w.manager u
    · cases turn with
      | notify x ns reloadSuccess triggered =>
        exact notify_checked resting reading unneeded0 checks (granted ⟨x, ns, reloadSuccess, triggered, rfl⟩)
          isolated ran
      | _ => cases checks
    · have table (y : U) (concerns : Concerns E u y) (spared : ¬turn.Costs E w.manager y)
          (has : unitHasJob w.manager y = true) : unitHasJob w'.manager y = true := by
        refine outlasts.kept resting0 isolated y ?_ (by cases turn <;> exact has)
        rintro (costs | done)
        · exact spared costs
        · exact concerns.not_startDone unneeded0 checks done
      rcases attends.covered u unneeded0 with looked | ⟨before, nothing⟩ | ⟨y, concerns, has, spared⟩
      · exact absurd looked checks
      · obtain ⟨y, concerns, has⟩ := attended u before
        refine ⟨y, concerns, table y concerns ?_ has⟩
        rintro ⟨j, result, ends, -⟩
        rw [nothing] at ends
        cases ends
      · exact ⟨y, concerns, table y concerns spared has⟩

theorem perform_reading (resting : Resting w.manager) (ran : perform E fuel turn w = .ok w') :
    Resting w'.manager ∧ w'.manager.nReloading = w.manager.nReloading := by
  have outlasts := perform_outlasts resting ran
  have resting0 := resting.told turn
  refine ⟨outlasts.resting resting0, (outlasts.nReloading resting0.settled).trans ?_⟩
  cases turn <;> rfl

end

section

variable {E : Units U}

def turnTaken (E : Units U) (step : Nat × Turn U) (w : World U) : Option (World U) :=
  (perform E step.1 step.2 w).toOption

theorem turnTaken_iff {step : Nat × Turn U} {w w' : World U} :
    turnTaken E step w = some w' ↔ perform E step.1 step.2 w = .ok w' := by
  rw [turnTaken]
  cases perform E step.1 step.2 w <;> simp [Except.toOption]

/-- Every stop that the step makes unit_check_unneeded() request of a unit that is up is granted. -/
def GrantsStops (E : Units U) (step : Nat × Turn U) (w : World U) : Prop :=
  ∀ w', perform E step.1 step.2 w = .ok w' ->
    (∃ x ns reloadSuccess triggered, step.2 = .notify x ns reloadSuccess triggered) ->
      Granted E (w'.entered.drop w.entered.length)

/-- StopWhenUnneeded= in a run where no need is left open with nobody's job to settle it. -/
theorem unneeded_units_stopped {start w : World U} (initial : Initial start.manager)
    (reading : start.manager.nReloading = 0) (needed : ∀ u, ¬Unneeded E start.manager u) (run :
      Steps.Reached start (turnTaken E) (fun step w => GrantsStops E step w ∧ step.2.Attends E step.1 w)
      w) (idle : w.manager.jobs = []) (u : U) (stopWhenUnneeded : E.stopWhenUnneeded u = true)
    (active : (w.manager.activeState u).isActiveOrReloading = true) :
    ∃ v, NeededBy E u v ∧ (w.manager.activeState v).isInactiveOrDeactivating = false := by
  have invariant : Resting w.manager ∧ w.manager.nReloading = 0 ∧ Attended E w.manager := by
    refine run.invariant (fun w => Resting w.manager ∧ w.manager.nReloading = 0 ∧ Attended E w.manager) ?_ ?_
    · exact ⟨⟨initial.wellFormed, initial.quiescent⟩, reading, fun u unneeded => absurd unneeded (needed u)⟩
    · rintro ⟨fuel, turn⟩ w w' ⟨resting, reading, attended⟩ ⟨grants, attends⟩ taken
      have ran : perform E fuel turn w = .ok w' := turnTaken_iff.mp taken
      obtain ⟨resting', same⟩ := perform_reading resting ran
      exact ⟨resting', same.trans reading, perform_attended resting reading attended attends (grants w' ran) ran⟩
  obtain ⟨resting, -, attended⟩ := invariant
  by_contra nobody
  push Not at nobody
  have unneeded : Unneeded E w.manager u :=
    ⟨stopWhenUnneeded, active, fun v needs => by simpa using nobody v needs⟩
  obtain ⟨y, -, has⟩ := attended u unneeded
  obtain ⟨j, found⟩ := isSome_iff_exists.mp has
  have mem := (resting.wf.metaJobs y j found).1
  rw [idle] at mem
  cases mem

end

def wantedPair : Units (Fin 2) :=
  { loadedUnits 2 fun kind u =>
      match kind with
      | .wants => if u = 0 then [1] else []
      | .wantedBy => if u = 1 then [0] else []
      | _ => [] with
    stopWhenUnneeded := fun u => u == 1 }

def wantedUp : List (Nat × Turn (Fin 2)) :=
  [(9, .notify 0 .active true), (9, .notify 1 .active true)]

def asksNoStop (w w' : World (Fin 2)) : Bool :=
  (w'.entered.drop w.entered.length).all fun e => decide (e.request.type ≠ .stop)

theorem grantsStops_of_none {step : Nat × Turn (Fin 2)} {w w' : World (Fin 2)}
    (ran : perform wantedPair step.1 step.2 w = .ok w') (asks : asksNoStop w w' = true) :
    GrantsStops wantedPair step w := by
  intro w1 ran1 _ e mem same
  obtain rfl : w' = w1 := Except.ok.inj (ran.symm.trans ran1)
  have plain := of_decide_eq_true (all_eq_true.mp asks e mem)
  rw [same] at plain
  exact absurd rfl plain

theorem unneeded_units_stopped_pair :
    ∃ w : World (Fin 2), w.manager.jobs = [] ∧ (w.manager.activeState 1).isActiveOrReloading = true ∧
      ∃ v, NeededBy wantedPair 1 v ∧ (w.manager.activeState v).isInactiveOrDeactivating = false := by
  let check (step : Nat × Turn (Fin 2)) (w w' : World (Fin 2)) : Bool :=
    asksNoStop w w' && decide (((step.2.told w.manager).activeState 1).isActiveOrReloading = true ->
      (step.2.told w.manager).activeState 0 = .active)
  let start : World (Fin 2) := ⟨startupManager 0, []⟩
  have each : Steps.EachStep (turnTaken wantedPair)
      (fun step w => GrantsStops wantedPair step w ∧ step.2.Attends wantedPair step.1 w) wantedUp start := by
    refine .of_checked (c := check) (fun step w w' taken passes => ?_) (by decide)
    obtain ⟨asks, needed⟩ := (Bool.and_eq_true _ _).mp passes
    have nobody (u : Fin 2) (unneeded : Unneeded wantedPair (step.2.told w.manager) u) : False := by
      obtain rfl : u = 1 := by simpa [wantedPair] using unneeded.stopWhenUnneeded
      have down := unneeded.nobody 0 (by simp [NeededBy, wantedPair, loadedUnits])
      rw [of_decide_eq_true needed unneeded.active] at down
      cases down
    exact ⟨grantsStops_of_none (turnTaken_iff.mp taken) asks,
      ⟨fun u unneeded => (nobody u unneeded).elim, fun _ _ _ => .inl nobody⟩⟩
  let last (w : World (Fin 2)) : Bool :=
    decide (w.manager.jobs = [] ∧ (w.manager.activeState 1).isActiveOrReloading = true)
  have reached := Steps.Reached.of_run (P := last) each (by decide)
  obtain ⟨w, run, facts⟩ := reached
  obtain ⟨idle, active⟩ := of_decide_eq_true facts
  exact ⟨w, idle, active, unneeded_units_stopped (startupManager_initial 0) rfl
    (fun u unneeded => by cases unneeded.active) run idle 1 rfl active⟩

def wantedStopped : List (Nat × Turn (Fin 2)) :=
  wantedUp ++
    [(9, .addJob { type := .stop, unit := 0, mode := .replace, override := false }), (9, .beginJob 2),
      (9, .notify 0 .inactive true)]

theorem expected_stop_overlooks :
    ∃ w, Steps.Reached ⟨startupManager 0, []⟩ (turnTaken wantedPair) (GrantsStops wantedPair) w ∧
      w.manager.jobs = [] ∧ wantedPair.stopWhenUnneeded 1 = true ∧ w.manager.activeState 1 = .active ∧
      ∀ v, NeededBy wantedPair 1 v -> (w.manager.activeState v).isInactiveOrDeactivating = true := by
  have each : Steps.EachStep (turnTaken wantedPair) (GrantsStops wantedPair) wantedStopped
      ⟨startupManager 0, []⟩ := by
    let check (step : Nat × Turn (Fin 2)) (w w' : World (Fin 2)) : Bool :=
      asksNoStop w w' || decide (step.2 matches .addJob _)
    refine .of_checked (c := check) (fun step w w' taken passes => ?_) (by decide +kernel)
    rcases (Bool.or_eq_true _ _).mp passes with asks | added
    · exact grantsStops_of_none (turnTaken_iff.mp taken) asks
    · rintro w1 - ⟨x, ns, reloadSuccess, triggered, told⟩
      simp [told] at added
  let last (w : World (Fin 2)) : Bool :=
    decide (w.manager.jobs = [] ∧ w.manager.activeState 1 = .active ∧ w.manager.activeState 0 = .inactive)
  have reached := Steps.Reached.of_run (P := last) each (by decide +kernel)
  obtain ⟨w, run, facts⟩ := reached
  obtain ⟨idle, active, down⟩ := of_decide_eq_true facts
  refine ⟨w, run, idle, rfl, active, fun v needs => ?_⟩
  obtain rfl : v = 0 := by simpa [NeededBy, wantedPair, loadedUnits] using needs
  rw [down]
  rfl

end Systemd
