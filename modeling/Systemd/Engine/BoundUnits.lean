import Systemd.Engine.Triggered

set_option autoImplicit false

namespace Systemd

open Loop List Function

variable {U : Type}

def boundStop (other : U) : JobRequest U where
  type := .stop
  unit := other
  mode := .replace
  override := true

def IsUp (m : Manager U) (u : U) : Prop :=
  (m.activeState u).isInactiveOrDeactivating = false

variable [DecidableEq U] [Fintype U]

def StopGranted (E : Units U) (w w' : World U) (other : U) : Prop :=
  ∀ e ∈ w'.entered.drop w.entered.length, e.request = boundStop other -> ∃ m, ApplyCall E e m

def BoundStopped (E : Units U) (u : U) (w w' : World U) : Prop :=
  ∀ other ∈ E.dependencies .boundBy u, IsUp w'.manager other -> StopGranted E w w' other ->
    unitHasStopLikeJob w'.manager other = true

def Excused (m : Manager U) (u : U) : Prop :=
  ∃ j, m.metaJob u = some j ∧ ((m.job j).type.isStopLike = true ∨ (m.job j).state = .waiting)

/-- A timer or path that watches the unit may give it a start job that has not begun. -/
def StartedAgain (E : Units U) (m : Manager U) (u : U) (triggered : Nat) : Prop :=
  triggered ≠ 0 ∧ refusal E .start u = none ∧
    ¬ ((∃ j, m.metaJob u = some j ∧ (m.job j).type = .start ∧ (m.job j).state = .running) ∧
      ∀ type, Brought E (startRequest .replace u).call type u -> type = .start)

def Overlooked (E : Units U) (m : Manager U) (u : U) (triggered : Nat) : Prop :=
  (Excused m u ∨ StartedAgain E m u triggered) ∧ ∃ other ∈ E.dependencies .boundBy u, other ≠ u ∧ IsUp m other ∧
    ¬ (unitHasStopLikeJob m other = true ∧ (triggered ≠ 0 ->
      ∀ type, Brought E (startRequest .replace u).call type other -> type.isStopLike = true))

def FailureSpares (E : Units U) (m : Manager U) (u : U) : Prop :=
  ∀ f ∈ E.dependencies .onFailure u, E.onFailureIsolate u = false ∧
    ∀ other ∈ E.dependencies .boundBy u, other ≠ u -> IsUp m other ->
      ∀ type, Brought E (startRequest .replace f).call type other -> type.isStopLike = true

structure Stops (w w' : World U) : Prop extends Rests w w' where
  kept : Resting w.manager -> ∀ v, unitHasStopLikeJob w.manager v = true -> unitHasStopLikeJob w'.manager v = true

namespace Stops

variable {E : Units U} {fuel : Nat} {w w' w'' : World U} {request : JobRequest U}
  {result : Except (RequestError U) JobId}

omit [DecidableEq U] [Fintype U] in
theorem refl (w : World U) : Stops w w :=
  ⟨.refl w, fun _ _ stops => stops⟩

omit [DecidableEq U] [Fintype U] in
theorem trans (first : Stops w w') (second : Stops w' w'') : Stops w w'' :=
  ⟨first.toRests.trans second.toRests, fun resting v stops =>
    second.kept (first.resting resting) v (first.kept resting v stops)⟩

theorem add (stop : request.type = .stop) (keeping : request.mode ≠ .isolate)
    (ran : managerAddJob E fuel w request = .ok (w', result)) : Stops w w' := by
  refine ⟨(Rests.engine E fuel).2 w request w' result ran, fun resting v stops => ?_⟩
  exact stopLike_kept resting keeping (fun type pulled => by rw [pulled.stop stop]; rfl) ran stops

theorem checkUnneeded {u : U} (ran : unitCheckUnneeded E (managerAddJob E fuel) w u = .ok w') : Stops w w' := by
  unfold unitCheckUnneeded at ran
  simp only at ran
  split at ran
  · obtain ⟨⟨w1, result⟩, added, rest⟩ := bind_ok ran
    obtain rfl : w1 = w' := Except.ok.inj rest
    exact add rfl (by simp) added
  · exact Except.ok.inj ran ▸ refl w

theorem checkUnneededEach {others : List U}
    (ran : checkUnneededEach E (managerAddJob E fuel) w others = .ok w') : Stops w w' := by
  refine foldlM_steps _ Stops refl (fun _ _ _ => trans) ?_ others w w' ran
  intro w other w' step
  split at step
  · exact checkUnneeded step
  · exact Except.ok.inj step ▸ refl w

end Stops

section

variable {E : Units U} {fuel : Nat} {w w' w1 w2 : World U} {request : JobRequest U}
  {result : Except (RequestError U) JobId}

theorem request_entered (ran : managerAddJob E fuel w request = .ok (w', result)) :
    ⟨w.manager, request⟩ ∈ w'.entered.drop w.entered.length := by
  cases fuel with
  | zero =>
    rw [managerAddJob] at ran
    cases ran
  | succ fuel =>
    rw [managerAddJob] at ran
    cases addJobBody_cases ran with
    | refused => simp [World.enter]
    | unbuilt => simp [World.enter, World.set]
    | rejected => simp [World.enter, World.set]
    | applied m1 m2 ret _ _ _ _ applied =>
      obtain ⟨w1, rfl, rest⟩ := transactionApply_cases applied
      have cancels : Rests ((w.enter request).set m2) w1 := by
        rcases rest with ⟨-, cancelled⟩ | ⟨-, rfl⟩
        · exact Rests.route.cancelOthers (Rests.engine E fuel).1 cancelled
        · exact .refl _
      obtain ⟨new, entered⟩ := cancels.entered
      simp [World.set, entered, World.enter]

theorem granted_succeeds {m : Manager U} (granted : ApplyCall E ⟨w.manager, request⟩ m)
    (ran : managerAddJob E fuel w request = .ok (w', result)) : ∃ ret, result = .ok ret := by
  obtain ⟨m1, ret, admitted, built, check⟩ := granted
  cases fuel with
  | zero =>
    rw [managerAddJob] at ran
    cases ran
  | succ fuel =>
    rw [managerAddJob] at ran
    cases addJobBody_cases ran with
    | refused e refused => exact absurd (refused.symm.trans admitted) (by simp)
    | unbuilt m1 e _ failed => exact absurd (congrArg Prod.snd (failed.symm.trans built)) (by simp)
    | rejected m1' m2 ret e _ built' failed =>
      obtain rfl : m1' = m1 := congrArg Prod.fst (built'.symm.trans built)
      exact absurd (congrArg Prod.snd (failed.symm.trans check)) (by simp)
    | applied => exact ⟨_, rfl⟩

omit [DecidableEq U] [Fintype U] in
theorem entered_within (first : Rests w w1) (between : Rests w1 w2) (last : Rests w2 w') {e : Entry U}
    (mem : e ∈ w2.entered.drop w1.entered.length) : e ∈ w'.entered.drop w.entered.length := by
  obtain ⟨front, entered⟩ := first.entered
  obtain ⟨middle, entered'⟩ := between.entered
  obtain ⟨back, entered''⟩ := last.entered
  rw [entered', drop_left] at mem
  rw [entered'', entered', entered, append_assoc, append_assoc, drop_left]
  exact mem_append_right _ (mem_append_left _ mem)

omit [Fintype U] in
theorem StopGranted.within {other : U} [Fintype U] (granted : StopGranted E w w' other) (first : Rests w w1)
    (between : Rests w1 w2) (last : Rests w2 w') : StopGranted E w1 w2 other :=
  fun e mem => granted e (entered_within first between last mem)

theorem boundLoop_stops {others : List U} (resting : Resting w.manager)
    (ran : addForEach (managerAddJob E fuel)
      (fun w other => !(w.manager.activeState other).isInactiveOrDeactivating) .stop .replace true w others = .ok w') :
    Stops w w' ∧ ∀ other ∈ others, IsUp w.manager other -> StopGranted E w w' other ->
      unitHasStopLikeJob w'.manager other = true := by
  induction others generalizing w with
  | nil =>
    obtain rfl : w = w' := Except.ok.inj ran
    exact ⟨.refl w, fun other mem => absurd mem not_mem_nil⟩
  | cons first rest ih =>
    rw [addForEach, foldlM_cons] at ran
    obtain ⟨w1, head, tail⟩ := bind_ok ran
    have step : Stops w w1 ∧ (IsUp w.manager first -> StopGranted E w w1 first ->
        unitHasStopLikeJob w1.manager first = true) := by
      split at head
      · obtain ⟨⟨w2, result⟩, added, done⟩ := bind_ok head
        obtain rfl : w2 = w1 := Except.ok.inj done
        refine ⟨.add rfl (by simp) added, fun _ granted => ?_⟩
        obtain ⟨m, apply⟩ := granted _ (request_entered added) rfl
        obtain ⟨ret, rfl⟩ := granted_succeeds apply added
        exact stop_requested resting (by simp) rfl added
      · rename_i down
        refine ⟨Except.ok.inj head ▸ .refl w, fun up _ => ?_⟩
        rw [IsUp] at up
        simp [up] at down
    obtain ⟨stops, here⟩ := step
    obtain ⟨later, others⟩ := ih (stops.resting resting) tail
    refine ⟨stops.trans later, fun other mem up granted => ?_⟩
    have same : w1.manager.activeState = w.manager.activeState := stops.activeState resting.settled
    rcases mem_cons.mp mem with rfl | mem
    · exact later.kept (stops.resting resting) _
        (here up (granted.within (.refl w) stops.toRests later.toRests))
    · exact others other mem (by rwa [IsUp, same])
        (granted.within stops.toRests later.toRests (.refl w'))

theorem retroactive_stops {u : U} (resting : Resting w.manager)
    (ran : retroactivelyStopDependencies E (managerAddJob E fuel) w u = .ok w') :
    Stops w w' ∧ ∀ other ∈ E.dependencies .boundBy u, IsUp w.manager other -> StopGranted E w w' other ->
      unitHasStopLikeJob w'.manager other = true := by
  obtain ⟨w1, ran1, ran⟩ := bind_ok ran
  obtain ⟨w2, ran2, ran⟩ := bind_ok ran
  obtain ⟨w3, ran3, ran⟩ := bind_ok ran
  obtain ⟨w4, ran4, ran⟩ := bind_ok ran
  obtain ⟨w5, ran5, ran⟩ := bind_ok ran
  obtain ⟨w6, ran6, ran7⟩ := bind_ok ran
  obtain ⟨stops, bound⟩ := boundLoop_stops resting ran1
  have unneeded : Stops w1 w' :=
    ((((Stops.checkUnneededEach ran2).trans (.checkUnneededEach ran3)).trans (.checkUnneededEach ran4)).trans
      (.checkUnneededEach ran5)).trans (.trans (.checkUnneededEach ran6) (.checkUnneededEach ran7))
  refine ⟨stops.trans unneeded, fun other mem up granted => ?_⟩
  exact unneeded.kept (stops.resting resting) other
    (bound other mem up (granted.within (.refl w) stops.toRests unneeded.toRests))

omit [DecidableEq U] [Fintype U] in
theorem stopLike_congr {m m' : Manager U} {v : U} (table : m'.metaJob v = m.metaJob v)
    (types : ∀ k, m.metaJob v = some k -> (m'.job k).type = (m.job k).type) :
    unitHasStopLikeJob m' v = unitHasStopLikeJob m v := by
  unfold unitHasStopLikeJob
  rw [table]
  cases found : m.metaJob v with
  | none => rfl
  | some k => simp only [types k found]

theorem finish_done {j : JobId} (wf : WellFormed w.manager) (mem : j ∈ w.manager.jobs)
    (ran : jobFinishAndInvalidate E fuel w j .done = .ok w') :
    w'.entered = w.entered ∧ ∀ other, other ≠ (w.manager.job j).unit ->
      unitHasStopLikeJob w'.manager other = unitHasStopLikeJob w.manager other := by
  have apart {other : U} {k : JobId} (ne : other ≠ (w.manager.job j).unit)
      (found : w.manager.metaJob other = some k) : k ≠ j := by
    rintro rfl
    exact ne (wf.metaJobs other k found).2.symm
  cases fuel with
  | zero =>
    rw [jobFinishAndInvalidate] at ran
    cases ran
  | succ fuel =>
    rw [jobFinishAndInvalidate] at ran
    cases finishBody_cases ran with
    | restarted _ =>
      let restart : Job U -> Job U := fun job => { job with state := .waiting, type := .start }
      obtain ⟨queue, queued⟩ := jobAddToRunQueue_frame (w.manager.setJob j restart) j
      obtain ⟨queue', woken⟩ := wakeNeighbours_frame E (jobAddToRunQueue (w.manager.setJob j restart) j)
        (w.manager.job j).unit
      refine ⟨rfl, fun other ne => ?_⟩
      change unitHasStopLikeJob (wakeNeighbours E (jobAddToRunQueue (w.manager.setJob j restart) j) _) other = _
      rw [woken, queued]
      refine stopLike_congr rfl fun k found => ?_
      simp [Manager.setJob, update_of_ne (apart ne found)]
    | freed w1 w2 failed triggered =>
      obtain rfl : w.set (jobFree w.manager j) = w1 := by simpa using failed
      obtain rfl : w.set (jobFree w.manager j) = w2 := by simpa using triggered
      obtain ⟨queue, woken⟩ := wakeNeighbours_frame E (jobFree w.manager j) (w.manager.job j).unit
      obtain ⟨gone, -, freed⟩ := wf.jobFree_installed mem
      refine ⟨rfl, fun other ne => ?_⟩
      change unitHasStopLikeJob (wakeNeighbours E (jobFree w.manager j) _) other = _
      rw [woken, freed]
      refine stopLike_congr (by simp [update_of_ne ne]) fun k found => ?_
      simp [update_of_ne (apart ne found)]

omit [DecidableEq U] [Fintype U] in
theorem notifiedJob_gone {job : Job U} {ns : UnitActiveState} {reloadSuccess : Bool}
    (gone : ns.isInactiveOrDeactivating = true) :
    ((notifiedJob job ns reloadSuccess).2 = false ↔ job.type.isStopLike = true ∨ job.state = .waiting) ∧
      ((notifiedJob job ns reloadSuccess).2 = false ->
        (notifiedJob job ns reloadSuccess).1 = none ∨ (notifiedJob job ns reloadSuccess).1 = some .done) := by
  cases type : job.type <;> cases state : job.state <;> cases ns <;>
    simp_all [notifiedJob, JobType.isStopLike, UnitActiveState.isInactiveOrDeactivating,
      UnitActiveState.isActiveOrReloading, UnitActiveState.isInactiveOrFailed]

theorem notifyJob_gone {u : U} {ns : UnitActiveState} {reloadSuccess unexpected : Bool} (wf : WellFormed w.manager)
    (gone : ns.isInactiveOrDeactivating = true)
    (ran : notifyJob (jobFinishAndInvalidate E fuel) w u ns reloadSuccess = .ok (w', unexpected)) :
    (unexpected = false ↔ Excused w.manager u) ∧
      (unexpected = false -> w'.entered = w.entered ∧
        ∀ other, other ≠ u -> unitHasStopLikeJob w'.manager other = unitHasStopLikeJob w.manager other) := by
  unfold notifyJob at ran
  cases found : w.manager.metaJob u with
  | none =>
    simp only [found] at ran
    obtain ⟨rfl, rfl⟩ := Prod.mk.inj (Except.ok.inj ran)
    simp [Excused, found]
  | some j =>
    simp only [found] at ran
    obtain ⟨mem, unit⟩ := wf.metaJobs u j found
    obtain ⟨m, woken, wf', table, jobs⟩ : ∃ m, (if (w.manager.job j).state = .waiting then
        jobAddToRunQueue w.manager j else w.manager) = m ∧ WellFormed m ∧ m.metaJob = w.manager.metaJob ∧
        m.job = w.manager.job := by
      obtain ⟨queue, same⟩ := jobAddToRunQueue_frame w.manager j
      split
      · exact ⟨_, rfl, wf.jobAddToRunQueue j mem, by rw [same], by rw [same]⟩
      · exact ⟨_, rfl, wf, rfl, rfl⟩
    rw [woken, jobs] at ran
    obtain ⟨expected, settled⟩ := @notifiedJob_gone U (w.manager.job j) ns reloadSuccess gone
    have excused : Excused w.manager u ↔ (notifiedJob (w.manager.job j) ns reloadSuccess).2 = false := by
      simp [Excused, found, expected]
    have same (other : U) : unitHasStopLikeJob m other = unitHasStopLikeJob w.manager other :=
      stopLike_congr (by rw [table]) fun k _ => by rw [jobs]
    rw [excused]
    rcases outcome : notifiedJob (w.manager.job j) ns reloadSuccess with ⟨answer, flag⟩
    rw [outcome] at ran settled
    cases answer with
    | none =>
      obtain ⟨rfl, rfl⟩ := Prod.mk.inj (Except.ok.inj ran)
      exact ⟨Iff.rfl, fun _ => ⟨rfl, fun other _ => same other⟩⟩
    | some answer =>
      obtain ⟨w1, finished, rest⟩ := bind_ok ran
      obtain ⟨rfl, rfl⟩ := Prod.mk.inj (Except.ok.inj rest)
      refine ⟨Iff.rfl, fun calm => ?_⟩
      obtain rfl : answer = .done := by simpa using settled calm
      obtain ⟨entered, others⟩ := finish_done wf' (wf'.metaJobs u j (by rw [table, found])).1 finished
      refine ⟨entered, fun other ne => ?_⟩
      rw [others other (by simpa [World.set, jobs, unit] using ne)]
      exact same other

theorem unitNotify_gone {u : U} {os ns : UnitActiveState} {reloadSuccess : Bool} {triggered : Nat}
    (resting : Resting w.manager) (reading : w.manager.nReloading = 0) (alive : os.isActiveOrActivating = true)
    (gone : ns.isInactiveOrDeactivating = true)
    (ran : unitNotify E (jobFinishAndInvalidate E fuel) (managerAddJob E fuel) w u os ns reloadSuccess triggered =
      .ok w') :
    ∃ w0 w1 unexpected w2 w3, triggersNotify (managerAddJob E fuel) w u triggered = .ok w0 ∧
      notifyJob (jobFinishAndInvalidate E fuel) w0 u ns reloadSuccess = .ok (w1, unexpected) ∧ Rests w0 w1 ∧
        (if unexpected then retroactivelyStopDependencies E (managerAddJob E fuel) w1 u else .ok w1) = .ok w2 ∧
        (if ns = .failed then unitTriggerOnFailure E (managerAddJob E fuel) w2 u else .ok w2) = .ok w3 ∧
        unitCheckUnneeded E (managerAddJob E fuel) w3 u = .ok w' := by
  unfold unitNotify at ran
  obtain ⟨w0, again, ran⟩ := bind_ok ran
  obtain ⟨⟨w1, unexpected⟩, notified, ran⟩ := bind_ok ran
  have before := triggersNotify_rests again
  have rests := Rests.route.notifyJob (Rests.engine E fuel).1 Rests.queue notified
  have started : (os.isInactiveOrFailed && ns.isActiveOrActivating) = false := by
    have living : os.isInactiveOrFailed = false := by
      revert alive
      cases os <;> decide
    rw [living, Bool.false_and]
  have changed : (ns ≠ os ∧ ns = .failed) ↔ ns = .failed := by
    refine ⟨And.right, fun failed => ⟨?_, failed⟩⟩
    rintro rfl
    rw [failed] at alive
    cases alive
  have idle : w1.manager.nReloading = 0 := ((before.trans rests).nReloading resting.settled).trans reading
  simp only [idle, if_true, started, alive, gone, changed, Bool.false_eq_true, if_false, Bool.and_self] at ran
  have ending (w2 : World U) (rest : (if ns = .failed then do
        let w ← unitTriggerOnFailure E (managerAddJob E fuel) w2 u
        unitCheckUnneeded E (managerAddJob E fuel) w u
      else do
        let w ← Except.ok w2
        unitCheckUnneeded E (managerAddJob E fuel) w u) = .ok w') :
      ∃ w3, (if ns = .failed then unitTriggerOnFailure E (managerAddJob E fuel) w2 u else .ok w2) = .ok w3 ∧
        unitCheckUnneeded E (managerAddJob E fuel) w3 u = .ok w' := by
    by_cases failed : ns = .failed
    · simp only [failed, if_true] at rest ⊢
      exact bind_ok rest
    · simp only [failed, if_false] at rest ⊢
      exact ⟨w2, rfl, rest⟩
  cases unexpected with
  | true =>
    simp only [if_true] at ran
    obtain ⟨w2, stopped, rest⟩ := bind_ok ran
    obtain ⟨w3, triggered, checked⟩ := ending w2 rest
    exact ⟨w0, w1, true, w2, w3, again, notified, rests, stopped, triggered, checked⟩
  | false =>
    obtain ⟨w3, triggered, checked⟩ := ending w1 ran
    exact ⟨w0, w1, false, w1, w3, again, notified, rests, rfl, triggered, checked⟩

theorem failure_spares {u other : U} {others : List U} (resting : Resting w.manager)
    (spares : ∀ f ∈ others, E.onFailureIsolate u = false ∧
      ∀ type, Brought E (startRequest .replace f).call type other -> type.isStopLike = true)
    (ran : others.foldlM (fun w f => do
      let (w, _) ← managerAddJob E fuel w (startRequest (if E.onFailureIsolate u then .isolate else .replace) f)
      .ok w) w = .ok w')
    (stops : unitHasStopLikeJob w.manager other = true) : unitHasStopLikeJob w'.manager other = true := by
  induction others generalizing w with
  | nil =>
    obtain rfl : w = w' := Except.ok.inj ran
    exact stops
  | cons f rest ih =>
    rw [foldlM_cons] at ran
    obtain ⟨w1, head, tail⟩ := bind_ok ran
    obtain ⟨⟨w2, result⟩, added, done⟩ := bind_ok head
    obtain rfl : w2 = w1 := Except.ok.inj done
    obtain ⟨alone, nothing⟩ := spares f mem_cons_self
    rw [alone] at added
    have kept := stopLike_kept resting (by simp [startRequest]) nothing added stops
    exact ih (((Rests.engine E fuel).2 w _ w2 result added).resting resting)
      (fun f mem => spares f (mem_cons_of_mem _ mem)) tail kept

theorem startedAgain_of_changed {u : U} {triggered : Nat} (resting : Resting w.manager)
    (ran : triggersNotify (managerAddJob E fuel) w u triggered = .ok w')
    (changed : ¬ KeepsJob w.manager w'.manager u) : StartedAgain E w.manager u triggered := by
  have same := KeepsJob.refl w.manager u
  refine ⟨?_, ?_, ?_⟩
  · rintro rfl
    refine changed (triggersNotify_zero ran ▸ same)
  · by_contra refused
    refine changed (triggersNotify_induction (fun w' => KeepsJob w.manager w'.manager u) ?_ resting same ran)
    intro w1 w2 result resting1 kept added
    cases result with
    | error e => exact kept.trans (refused_keeps resting1 added u)
    | ok ret =>
      obtain ⟨m1, m, m', stages⟩ := managerAddJob_succeeded w2 resting1.wf resting1.quiet added
      refine absurd ?_ refused
      rcases stages.asked (stages.requested_busy ret).1 with brought | isolates
      · exact brought.admitted
      · cases isolates.1
  · rintro ⟨⟨j, found, starts, -⟩, only⟩
    refine changed (triggersNotify_induction (fun w' => KeepsJob w.manager w'.manager u) ?_ resting same ran)
    intro w1 w2 result resting1 kept added
    cases result with
    | error e => exact kept.trans (refused_keeps resting1 added u)
    | ok ret =>
      obtain ⟨m1, m, m', stages⟩ := managerAddJob_succeeded w2 resting1.wf resting1.quiet added
      exact kept.trans (stages.start_met (by simp [startRequest]) rfl (kept.1.trans found)
        ((kept.2 j found).1.trans starts) only)

theorem triggers_spare {u other : U} {triggered : Nat} (resting : Resting w.manager)
    (spares : triggered ≠ 0 -> ∀ type, Brought E (startRequest .replace u).call type other -> type.isStopLike = true)
    (ran : triggersNotify (managerAddJob E fuel) w u triggered = .ok w')
    (stops : unitHasStopLikeJob w.manager other = true) : unitHasStopLikeJob w'.manager other = true := by
  by_cases none : triggered = 0
  · subst none
    exact triggersNotify_zero ran ▸ stops
  · exact triggersNotify_induction (fun w => unitHasStopLikeJob w.manager other = true)
      (fun _ _ _ resting stops added => stopLike_kept resting (by simp [startRequest]) (spares none) added stops)
      resting stops ran

end

def boundPair : Units (Fin 2) :=
  loadedUnits 2 fun kind u =>
    match kind with
    | .bindTo => if u = 1 then [0] else []
    | .boundBy => if u = 0 then [1] else []
    | _ => []

def bothUp : List (Action (Fin 2)) :=
  [.notify 1 .active true, .notify 0 .active true]

end Systemd
