import Systemd.Engine.Calm
import Systemd.Engine.Resting

set_option autoImplicit false

namespace Systemd

open Loop

variable {U : Type} [DecidableEq U] [Fintype U] {E : Units U} {fuel : Nat} {w w' : World U}
  {request : JobRequest U} {result : Except (RequestError U) JobId}

theorem isStopLike_merge {a b t : JobType} (first : a.isStopLike = true) (second : b.isStopLike = true)
    (merged : jobTypeMerge a b = some t) : t.isStopLike = true := by
  revert a b t
  decide

theorem merge_stop {b t : JobType} (merged : jobTypeMerge .stop b = some t) : t = .stop := by
  revert b t
  decide

theorem Succeeded.installed_type {e : Entry U} {ret : JobId} {m1 m m' final : Manager U}
    (stages : Succeeded E e ret m1 m m' final) (keeping : e.request.mode ≠ .isolate) {k : JobId}
    (mem : k ∈ e.manager.jobs) :
    (m.job k).type = (e.manager.job k).type ∧ (final.job k).type = (e.manager.job k).type := by
  have grown := stages.built.1.growth.kept k (stages.wf.jobFresh k mem)
  obtain ⟨gone, pruned⟩ := stages.accepted.pruned
  have merging := (pruned.same k).type.trans grown.type
  have installed : (m.job k).installed = true :=
    (pruned.same k).installed.trans (grown.installed.trans (stages.wf.jobInstalled k mem))
  refine ⟨merging, ?_⟩
  rw [(stages.applied fun isolate => absurd isolate keeping).job k]
  exact ((stages.accepted.frame.kept k installed).1.type).trans merging

theorem stopLike_kept {v : U} (resting : Resting w.manager) (keeping : request.mode ≠ .isolate)
    (spares : ∀ type, Brought E request.call type v -> type.isStopLike = true)
    (ran : managerAddJob E fuel w request = .ok (w', result))
    (stops : unitHasStopLikeJob w.manager v = true) : unitHasStopLikeJob w'.manager v = true := by
  obtain ⟨k, found, type⟩ := (unitHasStopLikeJob_iff _ _).mp stops
  have mem := (resting.wf.metaJobs v k found).1
  rw [unitHasStopLikeJob_iff]
  cases result with
  | error e =>
    cases fuel with
    | zero =>
      rw [managerAddJob] at ran
      cases ran
    | succ fuel =>
      rw [managerAddJob] at ran
      have rolled := addJobBody_rollback w' resting.wf (.inr resting.quiet) ran
      exact ⟨k, by rw [rolled.metaJob, found], by rw [(rolled.installed k mem).1, type]⟩
  | ok ret =>
    obtain ⟨m1, m, m', stages⟩ := managerAddJob_succeeded w' resting.wf resting.quiet ran
    have calm : request.mode = .isolate -> Undisturbed E m' := fun isolate => absurd isolate keeping
    have types := stages.installed_type keeping mem
    have kept : w'.manager.metaJob v = m.metaJob v -> ∃ j, w'.manager.metaJob v = some j ∧
        (w'.manager.job j).type.isStopLike = true := by
      intro same
      refine ⟨k, ?_, by rw [types.2, type]⟩
      rw [same, stages.metaJob]
      exact found
    by_cases involved : m.chain v = []
    · apply kept
      rw [stages.uninvolved calm v involved, if_neg keeping]
    · obtain ⟨s, survivor⟩ := mergeSurvivor_exists m involved
      obtain ⟨busy, idle⟩ := stages.installed calm v s survivor
      by_cases dropped : DroppedMerged m v s
      · apply kept
        rw [idle dropped, if_neg keeping]
      · obtain ⟨placed, merged⟩ := busy dropped
        refine ⟨s, placed, ?_⟩
        have asked {j : JobId} (inChain : j ∈ m.chain v) : (m.job j).type.isStopLike = true :=
          (stages.asked inChain).elim (spares _) fun isolates => absurd isolates.1 keeping
        have chained : (chainType m v).isStopLike = true :=
          chainType_closed (fun type => type.isStopLike = true)
            (fun a b first second t merged => isStopLike_merge first second merged) (fun j inChain => asked inChain)
            involved
        rw [merged, mergedType]
        split
        · exact asked (mergeSurvivor_mem survivor)
        · have installed : m.metaJob v = some k := by rw [stages.metaJob, found]
          have stopping : (m.job k).type.isStopLike = true := by rw [types.1, type]
          have merges := mergeTypeOf_eq involved
          rw [installed] at merges
          rw [merges]
          cases both : jobTypeMerge (chainType m v) (m.job k).type with
          | none => simpa [both] using chained
          | some t => simpa [both] using isStopLike_merge chained stopping both

theorem stop_requested {ret : JobId} (resting : Resting w.manager) (keeping : request.mode ≠ .isolate)
    (stop : request.type = .stop) (ran : managerAddJob E fuel w request = .ok (w', .ok ret)) :
    unitHasStopLikeJob w'.manager request.unit = true := by
  obtain ⟨m1, m, m', stages⟩ := managerAddJob_succeeded w' resting.wf resting.quiet ran
  have calm : request.mode = .isolate -> Undisturbed E m' := fun isolate => absurd isolate keeping
  have involved : m.chain request.unit ≠ [] := List.ne_nil_of_mem (stages.requested_busy ret).1
  obtain ⟨s, survivor⟩ := mergeSurvivor_exists m involved
  obtain ⟨placed, merged⟩ := (stages.installed calm request.unit s survivor).1 (stages.requested_busy s).2
  have asked {j : JobId} (inChain : j ∈ m.chain request.unit) : (m.job j).type = .stop :=
    (stages.asked inChain).elim (Brought.stop stop) fun isolates => absurd isolates.1 keeping
  have chained : chainType m request.unit = .stop :=
    chainType_closed (fun type => type = .stop) (fun a b first _ t merged => merge_stop (first ▸ merged))
      (fun j inChain => asked inChain) involved
  have type : mergedType m request.unit s = .stop := by
    rw [mergedType]
    split
    · exact asked (mergeSurvivor_mem survivor)
    · have merges := mergeTypeOf_eq involved
      rw [chained] at merges
      rw [merges]
      cases installed : m.metaJob request.unit with
      | none => rfl
      | some k =>
        cases both : jobTypeMerge .stop (m.job k).type with
        | none => simp [both]
        | some t => simp [both, merge_stop both]
  exact (unitHasStopLikeJob_iff _ _).mpr ⟨s, placed, by rw [merged, type]; rfl⟩

end Systemd
