import Systemd.Engine.Check
import Systemd.Engine.Run

set_option autoImplicit false

namespace Systemd

variable {U : Type} [DecidableEq U]

inductive Pass where
  | minimizeImpact
  | dropRedundant
  | collectGarbage
  | verifyOrder
  | resolveConflict
  deriving DecidableEq

/-- Every call of a deleting pass that transaction_activate makes, with the states before and after,
given the state `m` after the jobs that matter were marked. Merging as such is not a deletion:
the job it removes lives on in the one it is merged into. -/
inductive PassCall (E : Units U) (mode : JobMode) (m : Manager U) :
    Pass -> Manager U -> Manager U -> Prop where
  | minimizeImpact : mode = .fail ->
      PassCall E mode m .minimizeImpact m (transactionMinimizeImpact m)
  | dropRedundant : PassCall E mode m .dropRedundant
      (if mode = .fail then transactionMinimizeImpact m else m) (thinned mode m)
  | collectGarbage : mode ≠ .isolate -> PassCall E mode m .collectGarbage (thinned mode m)
      (transactionCollectGarbage (thinned mode m))
  | verifyOrder (m' : Manager U) (generation : Nat) : OrderRound E mode m m' generation ->
      PassCall E mode m .verifyOrder m' (transactionVerifyOrder E m' generation).1
  | collectGarbageBroken (m' m'' : Manager U) (generation : Nat) :
      OrderRound E mode m m' generation ->
      transactionVerifyOrder E m' generation = (m'', .error .again) -> mode ≠ .isolate ->
      PassCall E mode m .collectGarbage m'' (transactionCollectGarbage m'')
  | resolveConflict (m' m'' : Manager U) (e : RequestError U) : MergeRound E mode m m' ->
      transactionMergeJobs m' = (m'', .error e) -> PassCall E mode m .resolveConflict m' m''
  | collectGarbageResolved (m' m'' : Manager U) : MergeRound E mode m m' ->
      transactionMergeJobs m' = (m'', .error .again) -> mode ≠ .isolate ->
      PassCall E mode m .collectGarbage m'' (transactionCollectGarbage m'')
  | dropRedundantMerged (m' m'' : Manager U) : MergeRound E mode m m' ->
      transactionMergeJobs m' = (m'', .ok ()) ->
      PassCall E mode m .dropRedundant m'' (transactionDropRedundant m'')

variable {m : Manager U} {gone : List JobId}

omit [DecidableEq U] in
theorem mem_gone_of_deleted {j : JobId} (mem : m.InTransaction j)
    (deleted : ¬ (m.without gone).InTransaction j) : j ∈ gone := by
  by_contra kept
  obtain ⟨u, inChain⟩ := mem
  exact deleted ⟨u, (m.mem_without_chain gone u j).mpr ⟨inChain, kept⟩⟩

omit [DecidableEq U] in
theorem not_inTransaction_of_gone {j : JobId} (inGone : j ∈ gone) :
    ¬ (m.without gone).InTransaction j :=
  fun ⟨u, inChain⟩ => ((m.mem_without_chain gone u j).mp inChain).2 inGone

theorem dropRedundant_spares (m : Manager U) (wf : WellFormed m) (j : JobId) (mem : m.InTransaction j)
    (deleted : ¬ (transactionDropRedundant m).InTransaction j) : jobIsAnchor m j = false := by
  obtain ⟨gone, dropped, noops⟩ := transactionDropRedundant_whole m wf
  rw [dropped] at deleted
  have noop := (noops j (mem_gone_of_deleted mem deleted)).1
  simp only [jobIsNoop, Bool.and_eq_true, Bool.not_eq_true'] at noop
  exact noop.1.1

theorem collectGarbage_spares (m : Manager U) (wf : WellFormed m) (j : JobId)
    (mem : m.InTransaction j) (deleted : ¬ (transactionCollectGarbage m).InTransaction j) :
    jobIsAnchor m j = false ∧ ∀ link ∈ m.links, link.object = j ->
      ∃ s, link.subject = some s ∧ ¬ (transactionCollectGarbage m).InTransaction s := by
  obtain ⟨gone, collected, _, anchors, linked⟩ := transactionCollectGarbage_spec m wf
  rw [collected] at deleted ⊢
  have inGone := mem_gone_of_deleted mem deleted
  refine ⟨anchors j inGone, fun link inLinks object => ?_⟩
  obtain ⟨s, goneS, subject⟩ := linked link inLinks (object ▸ inGone)
  exact ⟨s, subject, not_inTransaction_of_gone goneS⟩

theorem verifyOrder_spares (E : Units U) (m : Manager U) (wf : WellFormed m) (generation : Nat)
    (closed : MattersClosed m) (j : JobId) (mem : m.InTransaction j)
    (matters : (m.job j).mattersToAnchor = true) :
    (transactionVerifyOrder E m generation).1.InTransaction j := by
  have result := transactionVerifyOrder_cases E m generation
  generalize transactionVerifyOrder E m generation = outcome at result ⊢
  cases result with
  | clear => exact mem
  | cyclic => exact mem
  | broken marks u _ idle =>
    have wf' : WellFormed (withMarks m marks) := wf.withJob _ (fun _ => rfl) (fun _ => rfl)
    have closed' : MattersClosed (withMarks m marks) := closed
    obtain ⟨gone, deleted, _, all, _⟩ := transactionDeleteUnit_spec (withMarks m marks) wf' u
      (fun k => (m.job k).mattersToAnchor = false)
      (fun k inChain => by simpa using List.any_eq_false.mp idle k inChain) closed'.back
    by_contra missing
    rw [deleted] at missing
    have idleJ := all j (mem_gone_of_deleted (m := withMarks m marks) mem missing)
    simp [matters] at idleJ

theorem resolveConflict_spares (m m' : Manager U) (wf : WellFormed m) (e : RequestError U)
    (resolved : transactionMergeJobs m = (m', .error e)) (closed : MattersClosed m) (j : JobId)
    (mem : m.InTransaction j) (matters : (m.job j).mattersToAnchor = true) : m'.InTransaction j := by
  have result := transactionMergeJobs_cases m wf
  rw [resolved] at result
  cases result with
  | refused => exact mem
  | conflict d gone idle _ cascade =>
    by_contra missing
    have inGone := mem_gone_of_deleted mem missing
    have idleJ : (m.job j).mattersToAnchor = false := by
      rcases cascade.reach j inGone with rfl | path
      · exact idle
      · exact Relation.TransGen.closed' (r := Needs m)
          (P := fun j => (m.job j).mattersToAnchor = false) (fun {a b} => closed.back a b) path idle
    simp [matters] at idleJ

-- The marking is closed under the links that matter, and from then on a marked job can only go as
-- redundant, or as garbage when everything that pointed to it has gone; an anchor job never goes.
theorem mattering_jobs_survive (E : Units U) (mode : JobMode) (m : Manager U) (wf : WellFormed m)
    (fresh : ∀ j, m.InTransaction j -> (m.job j).Unmarked) :
    MattersClosed (transactionFindJobsThatMatterToAnchor m 1) ∧
    ∀ pass before after,
      PassCall E mode (transactionFindJobsThatMatterToAnchor m 1) pass before after ->
      ∀ j, before.InTransaction j -> (before.job j).mattersToAnchor = true ->
        ¬ after.InTransaction j ->
        jobIsAnchor before j = false ∧
        (pass = .dropRedundant ∨
          pass = .collectGarbage ∧ ∀ link ∈ before.links, link.object = j ->
            ∃ s, link.subject = some s ∧ ¬ after.InTransaction s) := by
  have closed : MattersClosed (transactionFindJobsThatMatterToAnchor m 1) :=
    findJobsThatMatter_closed m 1 wf fun j mem =>
      ⟨by simp [(fresh j mem).1], (fresh j mem).2.2⟩
  have wfMarked := wf.marked.wf
  refine ⟨closed, ?_⟩
  intro pass before after call j mem matters deleted
  cases call with
  | minimizeImpact =>
    obtain ⟨gone, minimized, _, idle⟩ := transactionMinimizeImpact_spec _ wfMarked closed
    rw [minimized] at deleted
    have idleJ := idle j (mem_gone_of_deleted mem deleted)
    simp [matters] at idleJ
  | dropRedundant =>
    refine ⟨dropRedundant_spares _ ?_ j mem deleted, .inl rfl⟩
    by_cases fail : mode = .fail
    · obtain ⟨_, minimized⟩ := (Screened.refl mode wfMarked).minimize
      rw [if_pos fail]
      exact minimized.pruned.wf
    · rw [if_neg fail]
      exact wfMarked
  | collectGarbage =>
    obtain ⟨_, _, screened⟩ := Screened.thinned mode wfMarked
    obtain ⟨anchor, links⟩ := collectGarbage_spares _ screened.pruned.wf j mem deleted
    exact ⟨anchor, .inr ⟨rfl, links⟩⟩
  | verifyOrder _ generation round =>
    obtain ⟨_, _, screened⟩ := round.screened wfMarked
    exact absurd (verifyOrder_spares E before screened.pruned.wf generation
      (screened.mattersClosed closed) j mem matters) deleted
  | collectGarbageBroken m' _ generation round verified =>
    obtain ⟨_, _, screened⟩ := round.screened wfMarked
    obtain ⟨_, broken⟩ := screened.verify E generation
    rw [verified] at broken
    obtain ⟨anchor, links⟩ := collectGarbage_spares before broken.pruned.wf j mem deleted
    exact ⟨anchor, .inr ⟨rfl, links⟩⟩
  | resolveConflict _ _ e round resolved =>
    obtain ⟨_, _, screened⟩ := round.screened wfMarked
    exact absurd (resolveConflict_spares before after screened.pruned.wf e resolved
      (screened.mattersClosed closed) j mem matters) deleted
  | collectGarbageResolved m' _ round resolved =>
    obtain ⟨_, _, screened⟩ := round.screened wfMarked
    have wf' := (transactionMergeJobs_checked screened.pruned.wf resolved).wf
    obtain ⟨anchor, links⟩ := collectGarbage_spares before wf' j mem deleted
    exact ⟨anchor, .inr ⟨rfl, links⟩⟩
  | dropRedundantMerged m' _ round merged =>
    obtain ⟨_, _, screened⟩ := round.screened wfMarked
    have wf' := (transactionMergeJobs_checked screened.pruned.wf merged).wf
    exact ⟨dropRedundant_spares before wf' j mem deleted, .inl rfl⟩

-- The first unit requires the second, which is up already and requires the third, which is not.
def requirementChain : Units (Fin 3) :=
  loadedUnits 3 fun kind u =>
    if kind = .requires ∧ u = 0 then [1] else if kind = .requires ∧ u = 1 then [2] else []

def chainManager : Manager (Fin 3) :=
  { startupManager (0 : Fin 3) with activeState := fun u => if u = 1 then .active else .inactive }

theorem chainManager_initial : Initial chainManager :=
  ⟨rfl, fun _ => rfl, rfl, fun _ => rfl, rfl, rfl⟩

def chainTransaction : Manager (Fin 3) :=
  (buildTransaction requirementChain chainManager ⟨.start, 0, .replace, false⟩).1

theorem chainTransaction_built :
    Built requirementChain chainManager ⟨.start, 0, .replace, false⟩ chainTransaction :=
  (buildTransaction_spec chainManager_initial.wellFormed rfl).1

theorem mattering_jobs_survive_chain :
    jobIsAnchor (transactionFindJobsThatMatterToAnchor chainTransaction 1) 2 = false := by
  have built := chainTransaction_built
  have fresh : ∀ j, chainTransaction.InTransaction j -> (chainTransaction.job j).Unmarked := by
    have all : ∀ u, ∀ j ∈ chainTransaction.chain u,
        (chainTransaction.job j).generation = 0 ∧ (chainTransaction.job j).marker = none ∧
          (chainTransaction.job j).mattersToAnchor = false := by
      decide
    rintro j ⟨u, mem⟩
    exact all u j mem
  have survive := (mattering_jobs_survive requirementChain .replace chainTransaction built.wf fresh).2
  refine (survive .dropRedundant _ _ .dropRedundant 2 ⟨1, by decide⟩ (by decide) ?_).1
  rintro ⟨u, mem⟩
  revert u
  decide

theorem mattering_job_collected :
    ∃ before after, PassCall requirementChain .replace
        (transactionFindJobsThatMatterToAnchor chainTransaction 1) .collectGarbage before after ∧
      before.InTransaction 3 ∧ (before.job 3).mattersToAnchor = true ∧ ¬ after.InTransaction 3 := by
  refine ⟨_, _, .collectGarbage (by decide), ⟨2, by decide⟩, by decide, ?_⟩
  rintro ⟨u, mem⟩
  revert u
  decide

end Systemd
