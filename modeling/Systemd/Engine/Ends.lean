import Systemd.Engine.Anchor

set_option autoImplicit false

namespace Systemd

open Loop Search List Option

variable {U : Type}

-- What delete_one_unmergeable_job() relies on: if a merged with b does not merge with c, either a or
-- b merge with c neither.
theorem jobTypeMerge_blames (a b c merged : JobType) (first : jobTypeMerge a b = some merged)
    (refused : jobTypeMerge merged c = none) : jobTypeMerge a c = none ∨ jobTypeMerge b c = none := by
  revert a b c merged
  decide

theorem mem_orderedPairs_split {A : Type} (earlier later : List A) (a b : A) (mem : a ∈ earlier) :
    (a, b) ∈ orderedPairs (earlier ++ b :: later) := by
  induction earlier with
  | nil => cases mem
  | cons x rest ih =>
    rw [cons_append, orderedPairs]
    rcases mem_cons.mp mem with rfl | inRest
    · exact mem_append_left _ (mem_map.mpr ⟨b, by simp, rfl⟩)
    · exact mem_append_right _ (ih inRest)

-- Induction on the rest of the list: whatever the type merged so far does not merge with, one of the
-- jobs merged into it does not either.
theorem firstUnmergeable_pair (m : Manager U) (type : JobType) (earlier chain : List JobId) (blames : ∀
      other, jobTypeMerge type other = none -> ∃ j ∈ earlier, jobTypeMerge (m.job j).type other = none)
    (conflict : (firstUnmergeable m type chain).isSome = true) :
    ∃ pair ∈ orderedPairs (earlier ++ chain),
      jobTypeIsMergeable (m.job pair.1).type (m.job pair.2).type = false := by
  induction chain generalizing type earlier with
  | nil => simp [firstUnmergeable] at conflict
  | cons k rest ih =>
    cases merged : jobTypeMerge type (m.job k).type with
    | none =>
      obtain ⟨j, mem, refused⟩ := blames _ merged
      exact ⟨(j, k), mem_orderedPairs_split earlier rest j k mem, by simp [jobTypeIsMergeable, refused]⟩
    | some type' =>
      have blames' : ∀ other, jobTypeMerge type' other = none ->
          ∃ j ∈ earlier ++ [k], jobTypeMerge (m.job j).type other = none := by
        intro other refused
        rcases jobTypeMerge_blames _ _ _ _ merged refused with before | here
        · obtain ⟨j, mem, unmergeable⟩ := blames other before
          exact ⟨j, mem_append_left _ mem, unmergeable⟩
        · exact ⟨k, by simp, here⟩
      have found := ih type' (earlier ++ [k]) blames' (by simpa [firstUnmergeable, merged] using conflict)
      rwa [append_assoc, singleton_append] at found

theorem chainConflict_pair (m : Manager U) (u : U) (conflict : (chainConflict m u).isSome = true) :
    ∃ pair ∈ orderedPairs (m.chain u),
      jobTypeIsMergeable (m.job pair.1).type (m.job pair.2).type = false := by
  unfold chainConflict at conflict
  cases chain : m.chain u with
  | nil => simp [chain] at conflict
  | cons j rest =>
    simp only [chain] at conflict
    exact firstUnmergeable_pair m (m.job j).type [j] rest (fun other refused => ⟨j, by simp, refused⟩)
      conflict

section

variable [DecidableEq U]

theorem transactionMergeJobs_valid (m : Manager U) (merged type : JobType) (u : U) :
    (transactionMergeJobs m).2 ≠ .error (.jobsConflicting merged type u .einval) := by
  unfold transactionMergeJobs
  cases picked : m.transactionUnits.find? fun u => (chainConflict m u).isSome with
  | none => simp
  | some v =>
    have conflict : (chainConflict m v).isSome = true := by simpa using find?_some picked
    obtain ⟨pair, mem, unmergeable⟩ := chainConflict_pair m v conflict
    obtain ⟨⟨type, k⟩, found⟩ := isSome_iff_exists.mp conflict
    simp only [found]
    unfold deleteOneUnmergeableJob
    cases first : (orderedPairs (m.chain v)).find? fun pair =>
        !jobTypeIsMergeable (m.job pair.1).type (m.job pair.2).type with
    | none => simpa [unmergeable] using find?_eq_none.mp first pair mem
    | some pair =>
      cases victim : unmergeableVictim m pair.1 pair.2 with
      | none => simp [victim]
      | some d => simp [victim]

def minimizeTurn (m : Manager U) : Option (Manager U) :=
  (m.transactionList.find? fun j =>
    !(m.job j).mattersToAnchor && (stopsRunningService m j || changesExistingJob m j)).map
    fun j => transactionDeleteJob m j true

def dropTurn (m : Manager U) : Option (Manager U) :=
  (m.transactionUnits.findSome? fun u =>
    if (m.chain u).all (jobIsNoop m) then m.transactionGet u else none).map
    fun j => transactionDeleteJob m j false

def collectTurn (m : Manager U) : Option (Manager U) :=
  (m.transactionHeads.find? fun j => (m.objectList j).isEmpty).map
    fun j => transactionDeleteJob m j true

def orderTurn (E : Units U) (mode : JobMode) (state : Manager U × Nat) : Option (Manager U × Nat) :=
  match transactionVerifyOrder E (collectUnlessIsolating mode state.1) state.2 with
  | (m, .error .again) => some (m, state.2 + 1)
  | _ => none

def mergeTurn (mode : JobMode) (m : Manager U) : Option (Manager U) :=
  match transactionMergeJobs m with
  | (m, .error .again) => some (collectUnlessIsolating mode m)
  | _ => none

variable {m' m : Manager U} {generation : Nat} {next : Manager U × Nat} {mode : JobMode}

variable (E : Units U)

-- The job a cycle is broken at was reached by this search and is not installed, so it is one of the
-- transaction.
theorem transactionVerifyOrder_deletes (wf : WellFormed m) (generation : Nat)
    (again : transactionVerifyOrder E m generation = (m', .error .again)) :
    WellFormed m' ∧ m'.transactionList.length < m.transactionList.length := by
  rw [transactionVerifyOrder_eq] at again
  cases outcome : orderSearch E m generation with
  | mk marks result =>
    rw [outcome] at again
    cases result with
    | ok => cases congrArg Prod.snd again
    | error met =>
      obtain ⟨target, origin⟩ := met
      obtain ⟨middle, j, head, _, stopped⟩ := searchEach_stops outcome
      have path := search_path (orderNodes_closed E wf) (transactionHeads_mem wf head) .outside stopped
      simp only [verifyResult, breakCycle, walkBack_eq] at again
      split at again
      · rename_i k picked
        obtain ⟨rfl, _⟩ := Prod.mk.inj again
        have spared := find?_some picked
        simp only [Bool.and_eq_true, Bool.not_eq_true'] at spared
        have inside : k ∈ m.transactionList := by
          have reached := path.walk target _ k (mem_of_find?_eq_some picked)
          refine (mem_append.mp reached).resolve_left fun inJobs => ?_
          have installed : (m.job k).installed = false := spared.1
          simp [wf.jobInstalled k inJobs] at installed
        have wfMarks : WellFormed (withMarks m marks) := wf.withJob _ (fun _ => rfl) (fun _ => rfl)
        obtain ⟨gone, deleted, _, _, all⟩ := transactionDeleteUnit_spec (withMarks m marks) wfMarks
          (m.job k).unit (fun _ => True) (fun _ _ => trivial) (fun _ _ _ _ => trivial)
        have inGone := all k (wf.inTransaction_chain ((wf.inTransaction_iff k).mpr inside))
        change WellFormed (transactionDeleteUnit (withMarks m marks) (m.job k).unit) ∧
          (transactionDeleteUnit (withMarks m marks) (m.job k).unit).transactionList.length < _
        rw [deleted]
        exact ⟨wfMarks.without gone, transactionList_without_length wfMarks gone k inside inGone⟩
      · cases congrArg Prod.snd again

theorem transactionMergeJobs_deletes (wf : WellFormed m)
    (again : transactionMergeJobs m = (m', .error .again)) :
    WellFormed m' ∧ m'.transactionList.length < m.transactionList.length := by
  have result := transactionMergeJobs_cases m wf
  rw [again] at result
  cases result with
  | conflict d gone _ inside cascade =>
    exact ⟨wf.without gone, transactionList_without_length wf gone d ((wf.inTransaction_iff d).mp inside)
      cascade.root⟩

theorem collectUnlessIsolating_shrinks (mode : JobMode) (wf : WellFormed m) :
    WellFormed (collectUnlessIsolating mode m) ∧
      (collectUnlessIsolating mode m).transactionList.length ≤ m.transactionList.length := by
  unfold collectUnlessIsolating
  split
  · exact ⟨wf, le_refl _⟩
  · obtain ⟨gone, collected, _⟩ := transactionCollectGarbage_spec m wf
    rw [collected]
    refine ⟨wf.without gone, ((transactionList_nodup (wf.without gone)).subperm ?_).length_le⟩
    exact fun j mem => ((mem_transactionList_without wf gone j).mp mem).1

theorem deletePass_ends (pick : Manager U -> Option JobId)
    (inside : ∀ m j, WellFormed m -> pick m = some j -> m.InTransaction j) (dd : Bool) (m : Manager U)
    (wf : WellFormed m) :
    Ends (fun m => (pick m).map fun j => transactionDeleteJob m j dd) m
      (repeatWhile pick (fun m j => transactionDeleteJob m j dd) m.transactionList.length m) ∧
    ∀ m', (pick m).map (fun j => transactionDeleteJob m j dd) = some m' ->
      m'.transactionList.length < m.transactionList.length := by
  have shrinks : ∀ m j, WellFormed m -> pick m = some j ->
      (transactionDeleteJob m j dd).transactionList.length < m.transactionList.length := by
    intro m j wf found
    obtain ⟨gone, deleted, cascade⟩ := wf.deleteJob_spec j dd
    rw [deleted]
    exact transactionList_without_length wf gone j ((wf.inTransaction_iff j).mp (inside m j wf found))
      cascade.root
  constructor
  · exact repeatWhile_ends pick _ WellFormed (fun m => m.transactionList.length)
      (fun m j wf _ => wf.deleteJob j dd) shrinks _ m wf (le_refl _)
  · intro m' turn
    obtain ⟨j, found, rfl⟩ := map_eq_some_iff.mp turn
    exact shrinks m j wf found

theorem orderRounds_stops (mode : JobMode) (rounds : Nat) {status : Status U}
    (verified : transactionVerifyOrder E (collectUnlessIsolating mode m) generation = (m', status))
    (final : status ≠ .error .again) :
    orderTurn E mode (m, generation) = none ∧
      orderRounds E mode (rounds + 1) m generation = (m', status) := by
  constructor
  · simp only [orderTurn, verified]
    split <;> simp_all
  · rw [orderRounds, verified]
    cases status with
    | ok => rfl
    | error e => cases e <;> simp_all

theorem mergeRounds_stops (mode : JobMode) (rounds : Nat) {status : Status U}
    (merged : transactionMergeJobs m = (m', status)) (final : status ≠ .error .again) :
    mergeTurn mode m = none ∧ mergeRounds mode (rounds + 1) m = (m', status) := by
  constructor
  · simp only [mergeTurn, merged]
    split <;> simp_all
  · rw [mergeRounds, merged]
    cases status with
    | ok => rfl
    | error e => cases e <;> simp_all

theorem orderTurn_some {E : Units U} (turn : orderTurn E mode (m, generation) = some next) :
    transactionVerifyOrder E (collectUnlessIsolating mode m) generation = (next.1, .error .again) ∧
      next.2 = generation + 1 := by
  unfold orderTurn at turn
  split at turn
  · rename_i m' verified
    obtain rfl := some.inj turn
    exact ⟨verified, rfl⟩
  · cases turn

theorem mergeTurn_some {next : Manager U} (turn : mergeTurn mode m = some next) :
    ∃ m', transactionMergeJobs m = (m', .error .again) ∧ next = collectUnlessIsolating mode m' := by
  unfold mergeTurn at turn
  split at turn
  · rename_i m' merged
    exact ⟨m', merged, (some.inj turn).symm⟩
  · cases turn

theorem orderTurn_shrinks {E : Units U} (wf : WellFormed m)
    (turn : orderTurn E mode (m, generation) = some next) :
    WellFormed next.1 ∧ next.1.transactionList.length < m.transactionList.length := by
  obtain ⟨wf', fewer⟩ := collectUnlessIsolating_shrinks mode wf
  obtain ⟨wf'', smaller⟩ := transactionVerifyOrder_deletes E wf' generation (orderTurn_some turn).1
  exact ⟨wf'', by omega⟩

theorem mergeTurn_shrinks {next : Manager U} (wf : WellFormed m) (turn : mergeTurn mode m = some next) :
    WellFormed next ∧ next.transactionList.length < m.transactionList.length := by
  obtain ⟨m', merged, rfl⟩ := mergeTurn_some turn
  obtain ⟨wf', smaller⟩ := transactionMergeJobs_deletes wf merged
  obtain ⟨wf'', fewer⟩ := collectUnlessIsolating_shrinks mode wf'
  exact ⟨wf'', by omega⟩

theorem orderRounds_ends (mode : JobMode) (rounds : Nat) (m : Manager U) (wf : WellFormed m)
    (generation : Nat) (bound : m.transactionList.length ≤ rounds) :
    ∃ last, Ends (orderTurn E mode) (m, generation) last ∧
      orderRounds E mode (rounds + 1) m generation =
        transactionVerifyOrder E (collectUnlessIsolating mode last.1) last.2 ∧
      (orderRounds E mode (rounds + 1) m generation).2 ≠ .error .again := by
  induction rounds generalizing m generation with
  | zero =>
    cases verified : transactionVerifyOrder E (collectUnlessIsolating mode m) generation with
    | mk m' status =>
      have final : status ≠ .error .again := by
        rintro rfl
        have turn : orderTurn E mode (m, generation) = some (m', generation + 1) := by
          simp [orderTurn, verified]
        have := (orderTurn_shrinks wf turn).2
        omega
      obtain ⟨stops, result⟩ := orderRounds_stops E mode 0 verified final
      exact ⟨(m, generation), .done _ stops, result.trans verified.symm, result ▸ final⟩
  | succ rounds ih =>
    cases verified : transactionVerifyOrder E (collectUnlessIsolating mode m) generation with
    | mk m' status =>
      by_cases again : status = .error .again
      · subst again
        have turn : orderTurn E mode (m, generation) = some (m', generation + 1) := by
          simp [orderTurn, verified]
        obtain ⟨wf', smaller⟩ := orderTurn_shrinks wf turn
        have fewer : m'.transactionList.length ≤ rounds := by
          simp only at smaller
          omega
        obtain ⟨last, ends, result, final⟩ := ih m' wf' (generation + 1) fewer
        have continues : orderRounds E mode (rounds + 2) m generation =
            orderRounds E mode (rounds + 1) m' (generation + 1) := by
          rw [orderRounds, verified]
        exact ⟨last, .turn _ _ _ turn ends, continues.trans result, continues ▸ final⟩
      · obtain ⟨stops, result⟩ := orderRounds_stops E mode (rounds + 1) verified again
        exact ⟨(m, generation), .done _ stops, result.trans verified.symm, result ▸ again⟩

theorem mergeRounds_ends (mode : JobMode) (rounds : Nat) (m : Manager U) (wf : WellFormed m)
    (bound : m.transactionList.length ≤ rounds) :
    ∃ last, Ends (mergeTurn mode) m last ∧
      mergeRounds mode (rounds + 1) m = transactionMergeJobs last ∧
      (mergeRounds mode (rounds + 1) m).2 ≠ .error .again := by
  induction rounds generalizing m with
  | zero =>
    cases merged : transactionMergeJobs m with
    | mk m' status =>
      have final : status ≠ .error .again := by
        rintro rfl
        have := (transactionMergeJobs_deletes wf merged).2
        omega
      obtain ⟨stops, result⟩ := mergeRounds_stops mode 0 merged final
      exact ⟨m, .done _ stops, result.trans merged.symm, result ▸ final⟩
  | succ rounds ih =>
    cases merged : transactionMergeJobs m with
    | mk m' status =>
      by_cases again : status = .error .again
      · subst again
        have turn : mergeTurn mode m = some (collectUnlessIsolating mode m') := by
          simp [mergeTurn, merged]
        obtain ⟨wf', smaller⟩ := mergeTurn_shrinks wf turn
        obtain ⟨last, ends, result, final⟩ := ih _ wf' (by omega)
        have continues : mergeRounds mode (rounds + 2) m =
            mergeRounds mode (rounds + 1) (collectUnlessIsolating mode m') := by
          rw [mergeRounds, merged]
        exact ⟨last, .turn _ _ _ turn ends, continues.trans result, continues ▸ final⟩
      · obtain ⟨stops, result⟩ := mergeRounds_stops mode (rounds + 1) merged again
        exact ⟨m, .done _ stops, result.trans merged.symm, result ▸ again⟩

theorem transactionCheck_final (mode : JobMode) (m : Manager U) (wf : WellFormed m) :
    (transactionCheck E mode m).2 ≠ .error .again := by
  have marked := wf.marked.wf
  obtain ⟨_, _, screened⟩ := Screened.thinned mode marked
  obtain ⟨_, _, _, ordered⟩ := orderRounds_ends E mode _ _ screened.pruned.wf 2 (le_refl _)
  change (checkMarked E mode (transactionFindJobsThatMatterToAnchor m 1)).2 ≠ _
  unfold checkMarked
  cases first : orderRounds E mode
      ((thinned mode (transactionFindJobsThatMatterToAnchor m 1)).transactionList.length + 1)
      (thinned mode (transactionFindJobsThatMatterToAnchor m 1)) 2 with
  | mk m1 status =>
    rw [first] at ordered
    cases status with
    | error e => exact ordered
    | ok =>
      obtain ⟨m0, g, round, verified⟩ := orderRounds_cases E mode
        (transactionFindJobsThatMatterToAnchor m 1) _ _ m1 2 _ .first first
      obtain ⟨_, _, clear⟩ := (MergeRound.first m0 m1 g round verified).screened marked
      obtain ⟨_, _, _, merged⟩ := mergeRounds_ends mode _ m1 clear.pruned.wf (le_refl _)
      simp only
      cases second : mergeRounds mode (m1.transactionList.length + 1) m1 with
      | mk m2 status =>
        rw [second] at merged
        cases status with
        | error e => exact merged
        | ok =>
          simp only
          split <;> simp

theorem activation_ends (mode : JobMode) (m : Manager U) (wf : WellFormed m) :
    Ends minimizeTurn m (transactionMinimizeImpact m) ∧
    Ends dropTurn m (transactionDropRedundant m) ∧
    Ends collectTurn m (transactionCollectGarbage m) ∧
    (∀ generation, ∃ last, Ends (orderTurn E mode) (m, generation) last ∧
      orderRounds E mode (m.transactionList.length + 1) m generation =
        transactionVerifyOrder E (collectUnlessIsolating mode last.1) last.2) ∧
    (∃ last, Ends (mergeTurn mode) m last ∧
      mergeRounds mode (m.transactionList.length + 1) m = transactionMergeJobs last) ∧
    (∀ m', minimizeTurn m = some m' ∨ dropTurn m = some m' ∨ collectTurn m = some m' ∨
        mergeTurn mode m = some m' ∨
        (∃ generation generation', orderTurn E mode (m, generation) = some (m', generation')) ->
      m'.transactionList.length < m.transactionList.length) ∧
    (transactionCheck E mode m).2 ≠ .error .again ∧
    (∀ u, (chainConflict m u).isSome = true -> ∃ pair ∈ orderedPairs (m.chain u),
      jobTypeIsMergeable (m.job pair.1).type (m.job pair.2).type = false) ∧
    ∀ merged type u, (transactionMergeJobs m).2 ≠ .error (.jobsConflicting merged type u .einval) := by
  have minimize := deletePass_ends
    (fun m => m.transactionList.find? fun j =>
      !(m.job j).mattersToAnchor && (stopsRunningService m j || changesExistingJob m j))
    (fun m j wf found => (wf.inTransaction_iff j).mpr (mem_of_find?_eq_some found)) true m wf
  have drop := deletePass_ends
    (fun m => m.transactionUnits.findSome? fun u =>
      if (m.chain u).all (jobIsNoop m) then m.transactionGet u else none)
    (fun _ _ _ => inTransaction_of_redundant) false m wf
  have collect := deletePass_ends
    (fun m => m.transactionHeads.find? fun j => (m.objectList j).isEmpty)
    (fun _ _ _ => inTransaction_of_head) true m wf
  refine ⟨minimize.1, drop.1, collect.1, fun generation => ?_, ?_, ?_,
    transactionCheck_final E mode m wf, chainConflict_pair m, transactionMergeJobs_valid m⟩
  · obtain ⟨last, ends, result, _⟩ := orderRounds_ends E mode _ m wf generation (le_refl _)
    exact ⟨last, ends, result⟩
  · obtain ⟨last, ends, result, _⟩ := mergeRounds_ends mode _ m wf (le_refl _)
    exact ⟨last, ends, result⟩
  · rintro m' (turn | turn | turn | turn | ⟨_, _, turn⟩)
    · exact minimize.2 m' turn
    · exact drop.2 m' turn
    · exact collect.2 m' turn
    · exact (mergeTurn_shrinks wf turn).2
    · exact (orderTurn_shrinks wf turn).2

end

theorem activation_ends_chain :
    (transactionCheck requirementChain .replace chainTransaction).2 ≠ .error .again ∧
      Ends collectTurn (thinned .replace chainTransaction)
        (transactionCollectGarbage (thinned .replace chainTransaction)) := by
  have built := chainTransaction_built
  obtain ⟨_, _, screened⟩ := Screened.thinned .replace built.wf
  exact ⟨(activation_ends requirementChain .replace chainTransaction built.wf).2.2.2.2.2.2.1,
    (activation_ends requirementChain .replace _ screened.pruned.wf).2.2.1⟩

end Systemd
