import Systemd.Engine.Activate

set_option autoImplicit false

namespace Systemd

open Loop

variable {U : Type} [DecidableEq U]

def JobType.isStartLike (type : JobType) : Bool :=
  type == .start || type == .verifyActive || type == .reloadOrStart

def unitTriggerOnFailure (E : Units U) (add : AddJobFunction U) (w : World U) (u : U) :
    Except Fault (World U) :=
  (E.dependencies .onFailure u).foldlM (fun w other => do
    let (w, _) ← add w
      { type := .start, unit := other,
        mode := if E.onFailureIsolate u then .isolate else .replace, override := true }
    .ok w) w

def failEach (finish : FinishFunction U) (fails : Job U -> Bool) (w : World U) (others : List U) :
    Except Fault (World U) :=
  others.foldlM (fun w other =>
    match w.manager.metaJob other with
    | some k =>
      if fails (w.manager.job k) && (w.manager.job k).type.isStartLike then finish w k .dependency
      else .ok w
    | none => .ok w) w

def failDependents (E : Units U) (finish : FinishFunction U) (w : World U) (u : U)
    (type : JobType) : Except Fault (World U) :=
  if type.isStartLike then do
    let w ← failEach finish (fun _ => true) w (E.dependencies .requiredBy u)
    let w ← failEach finish (fun _ => true) w (E.dependencies .boundBy u)
    failEach finish (fun job => !job.override) w (E.dependencies .requiredByOverridable u)
  else if type = .stop then
    failEach finish (fun _ => true) w (E.dependencies .conflictedBy u)
  else .ok w

def wakeUnits (m : Manager U) (others : List U) : Manager U :=
  others.foldl (fun m other =>
    match m.metaJob other with
    | some k => jobAddToRunQueue m k
    | none => m) m

def wakeNeighbours (E : Units U) (m : Manager U) (u : U) : Manager U :=
  wakeUnits (wakeUnits m (E.dependencies .after u)) (E.dependencies .before u)

section

omit [DecidableEq U]

theorem jobAddToRunQueue_frame (m : Manager U) (j : JobId) :
    ∃ queue, jobAddToRunQueue m j = { m with runQueue := queue } := by
  unfold jobAddToRunQueue
  split
  · exact ⟨m.runQueue, rfl⟩
  · exact ⟨_, rfl⟩

theorem wakeUnits_frame (m : Manager U) (others : List U) :
    ∃ queue, wakeUnits m others = { m with runQueue := queue } := by
  unfold wakeUnits
  refine List.foldlRecOn (motive := fun m' : Manager U => ∃ queue, m' = { m with runQueue := queue })
    others _ ⟨m.runQueue, rfl⟩ ?_
  rintro _ ⟨queue, rfl⟩ other _
  cases m.metaJob other with
  | none => exact ⟨queue, rfl⟩
  | some k =>
    obtain ⟨queue', woken⟩ := jobAddToRunQueue_frame { m with runQueue := queue } k
    exact ⟨queue', woken⟩

theorem wakeNeighbours_frame (E : Units U) (m : Manager U) (u : U) :
    ∃ queue, wakeNeighbours E m u = { m with runQueue := queue } := by
  obtain ⟨queue, first⟩ := wakeUnits_frame m (E.dependencies .after u)
  obtain ⟨queue', second⟩ := wakeUnits_frame (wakeUnits m (E.dependencies .after u))
    (E.dependencies .before u)
  refine ⟨queue', second.trans ?_⟩
  rw [first]

end

def finishBody (E : Units U) (finish : FinishFunction U) (add : AddJobFunction U) :
    FinishFunction U := fun w j result =>
  let u := (w.manager.job j).unit
  let type := (w.manager.job j).type
  if result = .done ∧ (type = .restart ∨ type = .tryRestart) then
    let m := w.manager.setJob j fun job => { job with state := .waiting, type := .start }
    .ok (w.set (wakeNeighbours E (jobAddToRunQueue m j) u))
  else do
    let w := w.set (jobFree w.manager j)
    let w ← if result ≠ .done then failDependents E finish w u type else .ok w
    let w ← if result = .timeout ∨ result = .dependency then unitTriggerOnFailure E add w u
      else .ok w
    .ok (w.set (wakeNeighbours E w.manager u))

/-- The ways a job can end: a restart job whose stop is done becomes a start job, any other is freed. -/
inductive FinishCase (E : Units U) (finish : FinishFunction U) (add : AddJobFunction U)
    (w : World U) (j : JobId) (result : JobResult) : World U -> Prop where
  | restarted : result = .done ->
      FinishCase E finish add w j result (w.set (wakeNeighbours E
        (jobAddToRunQueue
          (w.manager.setJob j fun job => { job with state := .waiting, type := .start }) j)
        (w.manager.job j).unit))
  | freed (w1 w2 : World U) :
      (if result ≠ .done then failDependents E finish (w.set (jobFree w.manager j))
          (w.manager.job j).unit (w.manager.job j).type
        else .ok (w.set (jobFree w.manager j))) = .ok w1 ->
      (if result = .timeout ∨ result = .dependency then
          unitTriggerOnFailure E add w1 (w.manager.job j).unit
        else .ok w1) = .ok w2 ->
      FinishCase E finish add w j result
        (w2.set (wakeNeighbours E w2.manager (w.manager.job j).unit))

theorem finishBody_cases {E : Units U} {finish : FinishFunction U} {add : AddJobFunction U}
    {w w' : World U} {j : JobId} {result : JobResult}
    (ran : finishBody E finish add w j result = .ok w') : FinishCase E finish add w j result w' := by
  unfold finishBody at ran
  simp only at ran
  split at ran
  · rename_i restarts
    exact Except.ok.inj ran ▸ .restarted restarts.1
  · by_cases done : result = .done
    · have settled : ¬ (result = .timeout ∨ result = .dependency) := by simp [done]
      simp only [done, ne_eq, not_true_eq_false, if_false, reduceCtorEq, or_self] at ran
      let freed := w.set (jobFree w.manager j)
      exact Except.ok.inj ran ▸ .freed freed freed (by simp [done, freed]) (by simp [settled])
    · simp only [done, ne_eq, not_false_eq_true, if_true] at ran
      obtain ⟨w1, failed, ran⟩ := bind_ok ran
      split at ran
      · rename_i triggers
        obtain ⟨w2, triggered, ran⟩ := bind_ok ran
        exact Except.ok.inj ran ▸ .freed w1 w2 (by simpa [done] using failed)
          (by simpa [triggers] using triggered)
      · rename_i settled
        exact Except.ok.inj ran ▸ .freed w1 w1 (by simpa [done] using failed) (by simp [settled])

mutual

-- Cancelling jobs while isolating fails their dependents, which may trigger OnFailure= units, whose
-- requests run inside the transaction being applied. Nothing bounds that recursion.
def jobFinishAndInvalidate [Fintype U] (E : Units U) : Nat -> FinishFunction U
  | 0 => fun _ _ _ => .error .fuel
  | fuel + 1 => finishBody E (jobFinishAndInvalidate E fuel) (managerAddJob E fuel)

def managerAddJob [Fintype U] (E : Units U) : Nat -> AddJobFunction U
  | 0 => fun _ _ => .error .fuel
  | fuel + 1 => addJobBody E (jobFinishAndInvalidate E fuel) fuel

end

-- Induction on the fuel the two functions share.
theorem engine_induction [Fintype U] {E : Units U} {F : FinishFunction U -> Prop} {A : AddJobFunction U -> Prop}
    (noFinish : F fun _ _ _ => .error .fuel) (noAdd : A fun _ _ => .error .fuel)
    (finishes : ∀ fuel, F (jobFinishAndInvalidate E fuel) -> A (managerAddJob E fuel) ->
      F (finishBody E (jobFinishAndInvalidate E fuel) (managerAddJob E fuel)))
    (adds : ∀ fuel, F (jobFinishAndInvalidate E fuel) -> A (addJobBody E (jobFinishAndInvalidate E fuel) fuel))
    (fuel : Nat) : F (jobFinishAndInvalidate E fuel) ∧ A (managerAddJob E fuel) := by
  induction fuel with
  | zero =>
    rw [jobFinishAndInvalidate, managerAddJob]
    exact ⟨noFinish, noAdd⟩
  | succ fuel ih =>
    rw [jobFinishAndInvalidate, managerAddJob]
    exact ⟨finishes fuel ih.1 ih.2, adds fuel ih.1⟩

end Systemd
