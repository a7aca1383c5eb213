import Systemd.Engine.Returned
import Systemd.Engine.StopRequests

set_option autoImplicit false

namespace Systemd

open Loop List

variable {U : Type}

def startRequest (mode : JobMode) (u : U) : JobRequest U where
  type := .start
  unit := u
  mode := mode
  override := true

/-- The unit has the same job, or none, as before. -/
def KeepsJob (m m' : Manager U) (u : U) : Prop :=
  m'.metaJob u = m.metaJob u ∧
    ∀ k, m.metaJob u = some k -> (m'.job k).type = (m.job k).type ∧ (m'.job k).state = (m.job k).state

/-- The unit has a job that starts it and has not begun. -/
def StartQueued (m : Manager U) (u : U) : Prop :=
  ∃ k, m.metaJob u = some k ∧ (m.job k).state = .waiting ∧ jobTypeIsSuperset (m.job k).type .start = true

theorem KeepsJob.refl (m : Manager U) (u : U) : KeepsJob m m u :=
  ⟨rfl, fun _ _ => ⟨rfl, rfl⟩⟩

variable {u : U} {m m' : Manager U} {triggered : Nat}

theorem KeepsJob.trans {m'' : Manager U} (first : KeepsJob m m' u) (second : KeepsJob m' m'' u) :
    KeepsJob m m'' u := by
  refine ⟨second.1.trans first.1, fun k found => ?_⟩
  obtain ⟨type, state⟩ := first.2 k found
  obtain ⟨type', state'⟩ := second.2 k (first.1.trans found)
  exact ⟨type'.trans type, state'.trans state⟩

theorem KeepsJob.queued (keeps : KeepsJob m m' u) (queued : StartQueued m u) : StartQueued m' u := by
  obtain ⟨k, found, waiting, starts⟩ := queued
  obtain ⟨type, state⟩ := keeps.2 k found
  exact ⟨k, keeps.1.trans found, state.trans waiting, by rw [type, starts]⟩

variable [DecidableEq U] [Fintype U] {E : Units U} {fuel : Nat} {w w' : World U}

namespace Succeeded

variable {e : Entry U} {ret : JobId} {m1 m m' final : Manager U}

section

variable (stages : Succeeded E e ret m1 m m' final)
include stages

theorem survivor_kept (calm : e.request.mode = .isolate -> Undisturbed E m') {s : JobId}
    (survivor : mergeSurvivor m (m.chain u) = some s) (installed : (m.job s).installed = true) :
    e.manager.metaJob u = some s ∧ (final.job s).type = (e.manager.job s).type ∧
      (final.job s).state = (e.manager.job s).state := by
  have found := stages.accepted.wfMerge.chainInstalled u s (mergeSurvivor_mem survivor) installed
  rw [stages.metaJob] at found
  have same := (stages.oldJob (stages.wf.metaJobs u s found).1).trans (stages.accepted.frame.kept s installed).1
  rw [(stages.applied calm).job s]
  exact ⟨found, same.type, same.state⟩

theorem survivor_waiting (calm : e.request.mode = .isolate -> Undisturbed E m') {s : JobId}
    (survivor : mergeSurvivor m (m.chain u) = some s) (new : (m.job s).installed = false) :
    (final.job s).state = .waiting := by
  obtain ⟨gone, pruned⟩ := stages.accepted.pruned
  have inBuilt := ((pruned.mem_chain u s).mp (mergeSurvivor_mem survivor)).1
  have waiting : (m.job s).state = .waiting := by
    rw [(pruned.same s).installed] at new
    rw [(pruned.same s).state]
    exact (stages.built.1.growth.waiting u s inBuilt (by simp [stages.quiet.chain])).resolve_left
      (by simp [new])
  obtain ⟨m'', -, all, rfl⟩ := stages.accepted.merged
  obtain ⟨dropped, same, -⟩ := transactionDropRedundant_whole m'' all.step.wf
  rw [(stages.applied calm).job s, same]
  exact (all.step.state s).elim (fun kept => kept.trans waiting) id

/-- A granted start leaves the unit the job it had, or one that waits to start it. -/
theorem start_placed (keeping : e.request.mode ≠ .isolate) (start : e.request.type = .start) :
    KeepsJob e.manager final e.request.unit ∨ StartQueued final e.request.unit := by
  have calm : e.request.mode = .isolate -> Undisturbed E m' := fun isolate => absurd isolate keeping
  obtain ⟨inChain, -⟩ := stages.requested_busy ret
  obtain ⟨s, survivor⟩ := mergeSurvivor_exists m (ne_nil_of_mem inChain)
  obtain ⟨placed, type⟩ := (stages.installed calm e.request.unit s survivor).1 (stages.requested_busy s).2
  cases installed : (m.job s).installed with
  | true =>
    obtain ⟨found, kept⟩ := stages.survivor_kept calm survivor installed
    refine .inl ⟨placed.trans found.symm, fun k had => ?_⟩
    obtain rfl : s = k := Option.some.inj (found.symm.trans had)
    exact kept
  | false =>
    obtain ⟨gone, pruned⟩ := stages.accepted.pruned
    refine .inr ⟨s, placed, stages.survivor_waiting calm survivor installed, ?_⟩
    rw [type]
    refine mergedType_start stages.accepted.wfMerge (stages.accepted.mergeable _) inChain ?_ survivor
    rw [(pruned.same ret).type, stages.built.2.type]
    exact start

/-- A start that meets a start of the unit which is all the transaction asks of it leaves that one alone. -/
theorem start_met (keeping : e.request.mode ≠ .isolate) (start : e.request.type = .start) {k : JobId}
    (had : e.manager.metaJob e.request.unit = some k) (starts : (e.manager.job k).type = .start)
    (only : ∀ type, Brought E e.request.call type e.request.unit -> type = .start) :
    KeepsJob e.manager final e.request.unit := by
  have calm : e.request.mode = .isolate -> Undisturbed E m' := fun isolate => absurd isolate keeping
  obtain ⟨others, chain, new⟩ := stages.chain
  obtain rfl : others = [] := by
    refine eq_nil_iff_forall_not_mem.mpr fun j mem => (new j mem).2 ?_
    rw [start]
    exact (stages.asked (u := e.request.unit) (by simp [chain, mem])).elim (only _)
      fun isolates => absurd isolates.1 keeping
  have survivor : mergeSurvivor m (m.chain e.request.unit) = some ret := by simp [chain, mergeSurvivor]
  obtain ⟨built, placed⟩ := stages.built
  obtain ⟨gone, pruned⟩ := stages.accepted.pruned
  have mem := (stages.wf.metaJobs _ k had).1
  obtain rfl : ret = k := by
    refine built.growth.reused e.request.unit ret placed.mem ?_ k had ?_
    · simp [stages.quiet.chain]
    · rw [placed.type, (built.growth.kept k (stages.wf.jobFresh k mem)).type, starts]
      exact start
  have installed : (m.job ret).installed = true := by
    rw [(stages.oldJob mem).installed]
    exact stages.wf.jobInstalled ret mem
  obtain ⟨-, kept⟩ := stages.survivor_kept calm survivor installed
  obtain ⟨now, -⟩ := (stages.installed calm e.request.unit ret survivor).1 (stages.requested_busy ret).2
  refine ⟨now.trans had.symm, fun j found => ?_⟩
  obtain rfl : ret = j := Option.some.inj (had.symm.trans found)
  exact kept

end

end Succeeded

theorem refused_keeps {request : JobRequest U} {e : RequestError U} (resting : Resting w.manager)
    (ran : managerAddJob E fuel w request = .ok (w', .error e)) (u : U) : KeepsJob w.manager w'.manager u := by
  cases fuel with
  | zero =>
    rw [managerAddJob] at ran
    cases ran
  | succ fuel =>
    rw [managerAddJob] at ran
    have rolled := addJobBody_rollback w' resting.wf (.inr resting.quiet) ran
    exact ⟨by rw [rolled.metaJob], fun k found => rolled.installed k (resting.wf.metaJobs u k found).1⟩

/-- What holds before the timers and paths start the unit again holds after it, if each start keeps it. -/
theorem triggersNotify_induction (P : World U -> Prop) (step : ∀ w w' result, Resting w.manager -> P w ->
      managerAddJob E fuel w (startRequest .replace u) = .ok (w', result) -> P w')
    (resting : Resting w.manager) (holds : P w)
    (ran : triggersNotify (managerAddJob E fuel) w u triggered = .ok w') : P w' := by
  unfold triggersNotify at ran
  split at ran
  · induction triggered generalizing w with
    | zero => exact Except.ok.inj ran ▸ holds
    | succ triggered ih =>
      rw [replicate_succ, addForEach, foldlM_cons] at ran
      obtain ⟨w1, head, tail⟩ := bind_ok ran
      obtain ⟨⟨w2, result⟩, added, done⟩ := bind_ok head
      obtain rfl : w2 = w1 := Except.ok.inj done
      have rests := (Rests.engine E fuel).2 w _ w2 result added
      rename_i reading
      exact ih (rests.resting resting) (step w w2 result resting holds added)
        ((rests.nReloading resting.settled).trans reading) tail
  · exact Except.ok.inj ran ▸ holds

omit [DecidableEq U] [Fintype U] in
theorem triggersNotify_zero {add : AddJobFunction U} (ran : triggersNotify add w u 0 = .ok w') :
    w = w' := by
  unfold triggersNotify at ran
  split at ran <;> exact Except.ok.inj ran

/-- The unit is left the job it had, or one that waits to start it. -/
theorem triggersNotify_leaves (resting : Resting w.manager)
    (ran : triggersNotify (managerAddJob E fuel) w u triggered = .ok w') :
    KeepsJob w.manager w'.manager u ∨ triggered ≠ 0 ∧ StartQueued w'.manager u := by
  by_cases none : triggered = 0
  · subst none
    exact .inl (triggersNotify_zero ran ▸ .refl w.manager u)
  · refine triggersNotify_induction
      (fun w' => KeepsJob w.manager w'.manager u ∨ triggered ≠ 0 ∧ StartQueued w'.manager u) ?_ resting (.inl (.refl w.manager u)) ran
    intro w1 w2 result resting1 left added
    have step : KeepsJob w1.manager w2.manager u ∨ StartQueued w2.manager u := by
      cases result with
      | error e => exact .inl (refused_keeps resting1 added u)
      | ok ret =>
        obtain ⟨m1, m, m', stages⟩ := managerAddJob_succeeded w2 resting1.wf resting1.quiet added
        exact stages.start_placed (by simp [startRequest]) rfl
    rcases step with keeps | queued
    · exact left.imp (·.trans keeps) fun ⟨again, queued⟩ => ⟨again, keeps.queued queued⟩
    · exact .inr ⟨none, queued⟩

theorem triggersNotify_rests (ran : triggersNotify (managerAddJob E fuel) w u triggered = .ok w') :
    Rests w w' :=
  Rests.route.triggersNotify (Rests.engine E fuel).2 ran

end Systemd
