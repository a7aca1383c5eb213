import Systemd.Engine.BoundUnits

set_option autoImplicit false

namespace Systemd

open Loop Relation

variable {U : Type}

def FailsWith (E : Units U) (a b : U) : Prop :=
  b ∈ E.dependencies .requiredBy a ∨ b ∈ E.dependencies .boundBy a ∨
    b ∈ E.dependencies .requiredByOverridable a

def FailsFirst (E : Units U) (type : JobType) (u b : U) : Prop :=
  type.isStartLike = true ∧ FailsWith E u b ∨ type = .stop ∧ b ∈ E.dependencies .conflictedBy u

def MayLose (E : Units U) (type : JobType) (u : U) (result : JobResult) (v : U) : Prop :=
  if result = .done then v = u ∧ type ≠ .restart ∧ type ≠ .tryRestart
  else v = u ∨ ∃ b, FailsFirst E type u b ∧ ReflTransGen (FailsWith E) b v

section

variable [DecidableEq U] [Fintype U]

def Isolated (E : Units U) (entries : List (Entry U)) : Prop :=
  ∃ e ∈ entries, e.request.mode = .isolate ∧ ∃ m, ApplyCall E e m

theorem refused_hasJob {E : Units U} {fuel : Nat} {w w' : World U} {request : JobRequest U}
    {e : RequestError U} (resting : Resting w.manager)
    (ran : managerAddJob E fuel w request = .ok (w', .error e)) (v : U) :
    unitHasJob w'.manager v = unitHasJob w.manager v := by
  rw [unitHasJob, unitHasJob, (refused_keeps resting ran v).1]

structure Outlasts (E : Units U) (lost : U -> Prop) (w w' : World U) : Prop extends Rests w w' where
  kept : Resting w.manager -> ¬Isolated E (w'.entered.drop w.entered.length) -> ∀ v, ¬lost v ->
    unitHasJob w.manager v = true -> unitHasJob w'.manager v = true

namespace Outlasts

variable {E : Units U} {lost lost' : U -> Prop} {fuel : Nat} {w w' w'' : World U} {request : JobRequest U}
  {result : Except (RequestError U) JobId}

theorem refl (w : World U) : Outlasts E lost w w :=
  ⟨.refl w, fun _ _ _ _ has => has⟩

theorem trans (first : Outlasts E lost w w') (second : Outlasts E lost w' w'') : Outlasts E lost w w'' := by
  refine ⟨first.toRests.trans second.toRests, fun resting calm v safe has => ?_⟩
  have before : ¬Isolated E (w'.entered.drop w.entered.length) := fun ⟨e, mem, isolates⟩ =>
    calm ⟨e, entered_within (.refl w) first.toRests second.toRests mem, isolates⟩
  have after : ¬Isolated E (w''.entered.drop w'.entered.length) := fun ⟨e, mem, isolates⟩ =>
    calm ⟨e, entered_within first.toRests second.toRests (.refl w'') mem, isolates⟩
  exact second.kept (first.resting resting) after v safe (first.kept resting before v safe has)

theorem route : Route (Outlasts E lost) :=
  ⟨refl, trans⟩

theorem weaken (outlasts : Outlasts E lost w w') (more : ∀ v, lost v -> lost' v) : Outlasts E lost' w w' :=
  ⟨outlasts.toRests, fun resting calm v safe has =>
    outlasts.kept resting calm v (fun gone => safe (more v gone)) has⟩

theorem add : Adds (Outlasts E lost) (managerAddJob E fuel) := by
  intro w request w' result ran
  refine ⟨(Rests.engine E fuel).2 w request w' result ran, fun resting calm v _ has => ?_⟩
  cases result with
  | error e => rwa [refused_hasJob resting ran]
  | ok ret =>
    obtain ⟨m1, m, m', stages⟩ := managerAddJob_succeeded w' resting.wf resting.quiet ran
    have keeping : request.mode ≠ .isolate := fun isolate =>
      calm ⟨_, request_entered ran, isolate, m', stages.applyCall⟩
    have undisturbed : request.mode = .isolate -> Undisturbed E m' := fun isolate => absurd isolate keeping
    have same (kept : w'.manager.metaJob v = m.metaJob v) : unitHasJob w'.manager v = true := by
      rwa [unitHasJob, kept, stages.metaJob]
    by_cases involved : m.chain v = []
    · exact same (by rw [stages.uninvolved undisturbed v involved, if_neg keeping])
    · obtain ⟨s, survivor⟩ := mergeSurvivor_exists m involved
      obtain ⟨busy, idle⟩ := stages.installed undisturbed v s survivor
      by_cases dropped : DroppedMerged m v s
      · exact same (by rw [idle dropped, if_neg keeping])
      · simp [unitHasJob, (busy dropped).1]

theorem of_table (rests : Rests w w') (table : Resting w.manager -> ∀ v, ¬lost v -> unitHasJob w.manager v
      = true -> unitHasJob w'.manager v = true) : Outlasts E lost w w' :=
  ⟨rests, fun resting _ => table resting⟩

theorem wake (w : World U) (u : U) : Outlasts E lost w (w.set (wakeNeighbours E w.manager u)) := by
  refine of_table (Rests.wake w u) fun _ v _ has => ?_
  obtain ⟨queue, same⟩ := wakeNeighbours_frame E w.manager u
  rw [World.set, same]
  exact has

theorem queue (w : World U) (u : U) (j : JobId) (found : w.manager.metaJob u = some j) :
    Outlasts E lost w (w.set (jobAddToRunQueue w.manager j)) := by
  refine of_table (Rests.queue w u j found) fun _ v _ has => ?_
  obtain ⟨queue, same⟩ := jobAddToRunQueue_frame w.manager j
  rw [World.set, same]
  exact has

theorem free {j : JobId} (present : Present w.manager j) (unit : lost (w.manager.job j).unit) :
    Outlasts E lost w (w.set (jobFree w.manager j)) := by
  refine of_table (Rests.free present) fun resting v safe has => ?_
  obtain ⟨gone, -, freed⟩ := resting.wf.jobFree_installed (resting.wf.present present)
  have other : v ≠ (w.manager.job j).unit := by
    rintro rfl
    exact safe unit
  simpa [World.set, unitHasJob, freed, Function.update_of_ne other] using has

end Outlasts

section finishing

variable {E : Units U} {S : U -> Prop} {fuel : Nat} {w w' : World U}

def FinishOutlasts (E : Units U) (S : U -> Prop) (finish : FinishFunction U) : Prop :=
  ∀ w j result w', Resting w.manager -> Present w.manager j ->
    (∀ b, FailsFirst E (w.manager.job j).type (w.manager.job j).unit b -> S b) ->
    finish w j result = .ok w' -> Outlasts E (fun v => v = (w.manager.job j).unit ∨ S v) w w'

variable {finish : FinishFunction U}

theorem failEach_outlasts (finishes : FinishOutlasts E S finish)
    (closed : ∀ a b, S a -> FailsWith E a b -> S b) (fails : Job U -> Bool) {others : List U}
    (resting : Resting w.manager) (inside : ∀ other ∈ others, S other)
    (ran : failEach finish fails w others = .ok w') : Outlasts E S w w' := by
  induction others generalizing w with
  | nil => exact Except.ok.inj ran ▸ .refl w
  | cons other rest ih =>
    rw [failEach, List.foldlM_cons] at ran
    obtain ⟨w1, head, tail⟩ := bind_ok ran
    have first : Outlasts E S w w1 := by
      cases found : w.manager.metaJob other with
      | none =>
        simp only [found] at head
        exact Except.ok.inj head ▸ .refl w
      | some k =>
        simp only [found] at head
        split at head
        · rename_i failing
          have startLike := ((Bool.and_eq_true _ _).mp failing).2
          have unit := (resting.wf.metaJobs other k found).2
          have here := inside other List.mem_cons_self
          have ended := finishes w k .dependency w1 resting (.inr ⟨other, found⟩) (fun b reached => by
            rcases reached with ⟨-, near⟩ | ⟨stop, -⟩
            · exact closed other b here (unit ▸ near)
            · rw [stop] at startLike
              cases startLike) head
          refine ended.weaken fun v gone => ?_
          rcases gone with rfl | gone
          · rwa [unit]
          · exact gone
        · exact Except.ok.inj head ▸ .refl w
    exact first.trans (ih (first.resting resting)
      (fun other mem => inside other (List.mem_cons_of_mem _ mem)) tail)

theorem failDependents_outlasts (finishes : FinishOutlasts E S finish)
    (closed : ∀ a b, S a -> FailsWith E a b -> S b) {u : U} {type : JobType} (resting : Resting w.manager)
    (inside : ∀ b, FailsFirst E type u b -> S b) (ran : failDependents E finish w u type = .ok w') :
    Outlasts E S w w' := by
  unfold failDependents at ran
  split at ran
  · rename_i startLike
    obtain ⟨w1, ran1, ran⟩ := bind_ok ran
    obtain ⟨w2, ran2, ran3⟩ := bind_ok ran
    have first := failEach_outlasts finishes closed _ resting
      (fun b mem => inside b (.inl ⟨startLike, .inl mem⟩)) ran1
    have second := failEach_outlasts finishes closed _ (first.resting resting)
      (fun b mem => inside b (.inl ⟨startLike, .inr (.inl mem)⟩)) ran2
    have third := failEach_outlasts finishes closed _ (second.resting (first.resting resting))
      (fun b mem => inside b (.inl ⟨startLike, .inr (.inr mem)⟩)) ran3
    exact (first.trans second).trans third
  · split at ran
    · rename_i stop
      exact failEach_outlasts finishes closed _ resting (fun b mem => inside b (.inr ⟨stop, mem⟩)) ran
    · exact Except.ok.inj ran ▸ .refl w

omit [DecidableEq U] [Fintype U] in
theorem restart_hasJob (m : Manager U) (j : JobId) (change : Job U -> Job U) (u v : U) :
    unitHasJob (wakeNeighbours E (jobAddToRunQueue (m.setJob j change) j) u) v = unitHasJob m v := by
  obtain ⟨queue, queued⟩ := jobAddToRunQueue_frame (m.setJob j change) j
  obtain ⟨queue', woken⟩ := wakeNeighbours_frame E (jobAddToRunQueue (m.setJob j change) j) u
  rw [woken, queued]
  rfl

theorem finish_outlasts (closed : ∀ a b, S a -> FailsWith E a b -> S b) (fuel : Nat) :
    FinishOutlasts E S (jobFinishAndInvalidate E fuel) := by
  induction fuel with
  | zero =>
    intro w j result w' _ _ _ ran
    rw [jobFinishAndInvalidate] at ran
    cases ran
  | succ fuel ih =>
    intro w j result w' resting present inside ran
    have rests := (Rests.engine E (fuel + 1)).1 w j result w' present ran
    rw [jobFinishAndInvalidate] at ran
    cases finishBody_cases ran with
    | restarted _ =>
      refine .of_table rests fun _ v _ has => ?_
      exact (restart_hasJob w.manager j _ _ v).trans has
    | freed w1 w2 failed triggered =>
      have freed : Outlasts E (fun v => v = (w.manager.job j).unit ∨ S v) w (w.set (jobFree w.manager j)) :=
        .free present (.inl rfl)
      have afterFail : Outlasts E S (w.set (jobFree w.manager j)) w1 := by
        split at failed
        · exact failDependents_outlasts ih closed (freed.resting resting) inside failed
        · exact Except.ok.inj failed ▸ .refl _
      have afterTrigger : Outlasts E S w1 w2 := by
        split at triggered
        · exact Outlasts.route.unitTriggerOnFailure Outlasts.add triggered
        · exact Except.ok.inj triggered ▸ .refl _
      have rest := (afterFail.trans afterTrigger).trans (.wake w2 (w.manager.job j).unit)
      exact freed.trans (rest.weaken fun _ => .inr)

theorem finish_mayLose {j : JobId} {result : JobResult} (resting : Resting w.manager)
    (present : Present w.manager j) (ran : jobFinishAndInvalidate E fuel w j result = .ok w') :
    Outlasts E (MayLose E (w.manager.job j).type (w.manager.job j).unit result) w w' := by
  by_cases done : result = .done
  · subst done
    have rests := (Rests.engine E fuel).1 w j .done w' present ran
    refine .of_table rests fun resting v safe has => ?_
    cases fuel with
    | zero =>
      rw [jobFinishAndInvalidate] at ran
      cases ran
    | succ fuel =>
      rw [jobFinishAndInvalidate] at ran
      unfold finishBody at ran
      simp only [true_and, ne_eq, not_true_eq_false, if_false, reduceCtorEq, or_self] at ran
      split at ran
      · rw [← Except.ok.inj ran]
        exact (restart_hasJob w.manager j _ _ v).trans has
      · rename_i plain
        have other : v ≠ (w.manager.job j).unit := fun same => safe ⟨same, not_or.mp plain⟩
        obtain ⟨gone, -, freed⟩ := resting.wf.jobFree_installed (resting.wf.present present)
        obtain ⟨queue, woken⟩ := wakeNeighbours_frame E (jobFree w.manager j) (w.manager.job j).unit
        rw [← Except.ok.inj ran]
        change unitHasJob (wakeNeighbours E (jobFree w.manager j) _) v = true
        rw [woken, freed]
        simpa [unitHasJob, Function.update_of_ne other] using has
  · let reach (v : U) : Prop :=
      ∃ b, FailsFirst E (w.manager.job j).type (w.manager.job j).unit b ∧ ReflTransGen (FailsWith E) b v
    have closed (a b : U) (inside : reach a) (near : FailsWith E a b) : reach b := by
      obtain ⟨first, fails, path⟩ := inside
      exact ⟨first, fails, path.tail near⟩
    have ended := finish_outlasts closed fuel w j result w' resting present
      (fun b first => ⟨b, first, .refl⟩) ran
    exact ended.weaken fun v gone => by rwa [MayLose, if_neg done]

end finishing

end

end Systemd
