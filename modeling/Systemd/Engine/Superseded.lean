import Systemd.Engine.Resting

set_option autoImplicit false

namespace Systemd

/-- A queued job of type `t` may be succeeded by one of type `t'`: one that does all that `t` does, or a stop
job where `t` is none, or the other way round. -/
def Succeeds (t t' : JobType) : Prop :=
  jobTypeIsSuperset t' t = true ∨ jobTypeIsConflicting t' t = true

theorem Succeeds.refl (t : JobType) : Succeeds t t :=
  .inl (jobTypeIsSuperset_refl t)

theorem succeeds_merge (c t : JobType) : Succeeds t ((jobTypeMerge c t).getD c) := by
  cases merged : jobTypeMerge c t with
  | some both => exact .inl (jobTypeMerge_superset c t both merged).2
  | none =>
    refine .inr ?_
    by_contra same
    have mergeable := (jobTypeMerge_isSome_iff c t).mpr (by simpa using same)
    rw [merged] at mergeable
    cases mergeable

variable {U : Type} [DecidableEq U]

variable {m m' : Manager U} {E : Units U} {request : JobRequest U}

omit [DecidableEq U] in
theorem succeeds_mergedType (wf : WellFormed m) {u : U} {k s : JobId} (found : m.metaJob u = some k)
    (survivor : mergeSurvivor m (m.chain u) = some s) : Succeeds (m.job k).type (mergedType m u s) := by
  have mem := mergeSurvivor_mem survivor
  unfold mergedType
  split
  · rename_i installed
    have same := wf.chainInstalled u s mem installed
    obtain rfl : k = s := Option.some.inj (found.symm.trans same)
    exact .refl _
  · rw [mergeTypeOf_eq (List.ne_nil_of_mem mem), found]
    exact succeeds_merge _ _

omit [DecidableEq U] in
theorem transactionIsDestructive_false (wf : WellFormed m)
    (harmless : transactionIsDestructive m = false) {u : U} {j k : JobId}
    (inside : m.transactionGet u = some j) (found : m.metaJob u = some k) :
    jobTypeIsSuperset (m.job j).type (m.job k).type = true := by
  have unit := wf.chainUnit u j (WellFormed.transactionGet_mem inside)
  have head : j ∈ m.transactionHeads := (wf.mem_heads j).mpr (by rwa [unit])
  have spares := List.any_eq_false.mp harmless j head
  rw [unit, found] at spares
  by_cases same : k = j
  · rw [same]
    exact jobTypeIsSuperset_refl _
  · simpa [same] using spares

theorem transactionCheck_fail (check : transactionCheck E .fail m = (m', .ok ())) :
    transactionIsDestructive m' = false := by
  unfold transactionCheck at check
  simp only at check
  split at check
  · cases check
  · split at check
    · cases check
    · split at check
      · cases check
      · rename_i harmless
        obtain ⟨rfl, -⟩ := Prod.mk.inj check
        simpa using harmless

structure Screens (E : Units U) (start : Manager U) (mode : JobMode) (m' : Manager U) : Prop where
  wf : WellFormed m'
  metaJob : m'.metaJob = start.metaJob
  type : ∀ k ∈ start.jobs, (m'.job k).type = (start.job k).type
  placed : ∀ u k s, start.metaJob u = some k -> m'.transactionGet u = some s ->
    Succeeds (start.job k).type (m'.job s).type ∧
      (mode = .fail -> jobTypeIsSuperset (m'.job s).type (start.job k).type = true)

variable [Fintype U]

theorem screens_of_check {start m1 : Manager U} {ret : JobId} (wf : WellFormed start)
    (build : buildTransaction E start request = (m1, .ok ret))
    (check : transactionCheck E request.mode m1 = (m', .ok ())) : Screens E start request.mode m' := by
  obtain ⟨built, -⟩ := buildTransaction_spec wf build
  have checked : Checked m1 m' := transactionCheck_checked built.wf check
  have metaJob := checked.metaJob.trans built.growth.metaJob
  have type (k : JobId) (mem : k ∈ start.jobs) : (m'.job k).type = (start.job k).type := by
    have grown := built.growth.kept k (wf.jobFresh k mem)
    have installed : (m1.job k).installed = true := grown.installed.trans (wf.jobInstalled k mem)
    exact (checked.kept k installed).1.type.trans grown.type
  refine ⟨checked.wf, metaJob, type, fun u k s found inside => ⟨?_, fun fail => ?_⟩⟩
  · have result := transactionCheck_cases E request.mode m1
    rw [check] at result
    cases result with
    | done m m'' _ round merged _ =>
      obtain ⟨_, _, screened⟩ := round.screened built.wf.marked.wf
      have wfMerge := screened.pruned.wf
      have outcome := transactionMergeJobs_cases m wfMerge
      rw [merged] at outcome
      cases outcome with
      | merged _ _ all =>
        have marked := built.wf.marked
        have before : m.metaJob u = some k := by
          rw [screened.pruned.metaJob, marked.metaJob, built.growth.metaJob, found]
        have mem := (wf.metaJobs u k found).1
        have merging : (m.job k).type = (start.job k).type := by
          rw [(screened.pruned.same k).type, (marked.same k).type]
          exact (built.growth.kept k (wf.jobFresh k mem)).type
        obtain ⟨gone, dropped, -⟩ := transactionDropRedundant_spec m'' all.step.wf
        have inChain := WellFormed.transactionGet_mem inside
        rw [dropped, Manager.mem_without_chain, all.chain u] at inChain
        have survivor : mergeSurvivor m (m.chain u) = some s := by simpa using inChain.1
        have typed : ((transactionDropRedundant m'').job s).type = mergedType m u s := by
          rw [dropped]
          exact all.typed u s survivor
        rw [typed, ← merging]
        exact succeeds_mergedType wfMerge before survivor
  · rw [fail] at check
    have mem := (wf.metaJobs u k found).1
    rw [← type k mem]
    exact transactionIsDestructive_false checked.wf (transactionCheck_fail check) inside (by rw [metaJob, found])

/-- A request that is granted leaves each queued job in place, or one that succeeds it. -/
theorem queued_jobs_succeeded {fuel : Nat} {w w' : World U} {ret : JobId} (wf : WellFormed w.manager)
    (keeping : request.mode ≠ .isolate) (ran : managerAddJob E fuel w request = .ok (w', .ok ret))
    (u : U) (k : JobId) (queued : w.manager.metaJob u = some k) :
    ∃ k', w'.manager.metaJob u = some k' ∧ Succeeds (w.manager.job k).type (w'.manager.job k').type ∧
      (request.mode = .fail ->
        jobTypeIsSuperset (w'.manager.job k').type (w.manager.job k).type = true) := by
  cases fuel with
  | zero =>
    rw [managerAddJob] at ran
    cases ran
  | succ fuel =>
    rw [managerAddJob] at ran
    cases addJobBody_cases ran with
    | applied m1 m' _ _ admitted build check applied =>
      obtain ⟨built, -⟩ := buildTransaction_spec wf build
      have screens := screens_of_check wf build check
      have final := transactionApply_applied (transactionCheck_settled built.wf check)
        (fun isolate => absurd isolate keeping) applied
      have types (j : JobId) : (w'.manager.job j).type = (m'.job j).type := by
        rw [final.job j]
        rfl
      have mem := (wf.metaJobs u k queued).1
      cases inside : m'.transactionGet u with
      | none =>
        refine ⟨k, ?_, ?_, fun _ => ?_⟩
        · rw [final.others u inside, if_neg keeping]
          exact (congrFun screens.metaJob u).trans queued
        · rw [types, screens.type k mem]
          exact .refl _
        · rw [types, screens.type k mem]
          exact jobTypeIsSuperset_refl _
      | some s =>
        obtain ⟨succeeds, superset⟩ := screens.placed u k s queued inside
        exact ⟨s, final.placed u s inside, by rwa [types], fun fail => by rw [types]; exact superset fail⟩

/-- A restart job takes the place of the start job that is queued. -/
theorem queued_start_succeeded :
    ∃ w w' : World (Fin 1), ∃ k k', w.manager.metaJob 0 = some k ∧ w'.manager.metaJob 0 = some k' ∧
      Succeeds (w.manager.job k).type (w'.manager.job k').type := by
  let E := loadedUnits 1 fun _ _ => []
  obtain ⟨w, run, facts⟩ := reachable_of_run E 0 9
    [.addJob { type := .start, unit := 0, mode := .replace, override := false }]
    (fun w => decide (w.manager.metaJob 0 = some 1 ∧
      (managerAddJob E 9 w { type := .restart, unit := 0, mode := .fail, override := false }).toOption.any
        (fun result => result.2.toOption.isSome) = true)) (by decide +kernel)
  obtain ⟨queued, granted⟩ := of_decide_eq_true facts
  obtain ⟨w', ret, ran, -⟩ := success_of_eval E 9 w { type := .restart, unit := 0, mode := .fail, override := false }
    (fun _ _ => true) (by simpa using granted)
  obtain ⟨refused, reached⟩ := run.withRefusals
  obtain ⟨k', placed, succeeds, -⟩ := queued_jobs_succeeded reached.resting.wf (by decide) ran 0 1 queued
  exact ⟨w, w', 1, k', queued, placed, succeeds⟩

end Systemd
