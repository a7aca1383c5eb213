import Systemd.Engine.Activate
import Systemd.Engine.Growth
import Systemd.Engine.Matters

set_option autoImplicit false

namespace Systemd

open Loop Search List

variable {U : Type}

structure Pruned (m m' : Manager U) (gone : List JobId) : Prop where
  wf : WellFormed m'
  frame : m' = { m.without gone with job := m'.job }
  job : ∀ j, m'.job j = { m.job j with
    generation := (m'.job j).generation
    marker := (m'.job j).marker
    mattersToAnchor := (m'.job j).mattersToAnchor }

namespace Pruned

variable {m m' m'' : Manager U} {gone gone' : List JobId}

section

variable (pruned : Pruned m m' gone)
include pruned

theorem jobs : m'.jobs = m.jobs := by rw [pruned.frame]; rfl
theorem metaJob : m'.metaJob = m.metaJob := by rw [pruned.frame]; rfl
theorem activeState : m'.activeState = m.activeState := by
  rw [pruned.frame]; rfl
theorem runQueue : m'.runQueue = m.runQueue := by rw [pruned.frame]; rfl
theorem currentJobId : m'.currentJobId = m.currentJobId := by
  rw [pruned.frame]; rfl
theorem nReloading : m'.nReloading = m.nReloading := by
  rw [pruned.frame]; rfl
theorem links : m'.links = (m.without gone).links := by
  rw [pruned.frame]
theorem chain : m'.chain = (m.without gone).chain := by
  rw [pruned.frame]

theorem mem_chain (u : U) (j : JobId) : j ∈ m'.chain u ↔ j ∈ m.chain u ∧ j ∉ gone := by
  rw [pruned.chain]
  exact m.mem_without_chain gone u j

theorem inTransaction {j : JobId} (mem : m'.InTransaction j) : m.InTransaction j := by
  obtain ⟨u, inChain⟩ := mem
  exact ⟨u, ((pruned.mem_chain u j).mp inChain).1⟩

variable (j : JobId)

theorem same : SameJob (m.job j) (m'.job j) := by
  rw [pruned.job j]
  exact ⟨rfl, rfl, rfl, rfl⟩

theorem override : (m'.job j).override = (m.job j).override := by
  rw [pruned.job j]

theorem ignoreOrder : (m'.job j).ignoreOrder = (m.job j).ignoreOrder := by
  rw [pruned.job j]

end

theorem refl (wf : WellFormed m) : Pruned m m [] :=
  ⟨wf, by rw [wf.without_nil], fun _ => rfl⟩

theorem trans (first : Pruned m m' gone) (second : Pruned m' m'' gone') :
    Pruned m m'' (gone ++ gone') where
  wf := second.wf
  frame := by
    have frame := second.frame
    rw [first.frame] at frame
    rw [frame, ← m.without_without]
    rfl
  job := by
    intro j
    rw [second.job j, first.job j]

section

variable (pruned : Pruned m m' gone)
include pruned

theorem without (gone' : List JobId) : Pruned m (m'.without gone') (gone ++ gone') :=
  pruned.trans ⟨pruned.wf.without gone', rfl, fun _ => rfl⟩

theorem withMarks (marks : JobId -> Mark JobId) : Pruned m (withMarks m' marks) gone := by
  have step : Pruned m' (Systemd.withMarks m' marks) [] :=
    ⟨pruned.wf.withJob _ (fun _ => rfl) (fun _ => rfl), by
      change _ = { m'.without [] with job := (Systemd.withMarks m' marks).job }
      rw [pruned.wf.without_nil]
      rfl, fun _ => rfl⟩
  simpa using pruned.trans step

theorem needs (a b : JobId) : Needs m' a b ↔ Needs m a b ∧ a ∉ gone ∧ b ∉ gone := by
  rw [← needs_without]
  simp only [Needs, pruned.links]

variable (j : JobId)

theorem changesExistingJob : changesExistingJob m' j = changesExistingJob m j := by
  unfold Systemd.changesExistingJob
  rw [(pruned.same j).unit, pruned.metaJob, (pruned.same j).type]
  cases m.metaJob (m.job j).unit with
  | none => rfl
  | some other => simp only [(pruned.same other).type]

theorem jobIsAnchor (kept : j ∉ gone) : jobIsAnchor m' j = jobIsAnchor m j := by
  rw [← jobIsAnchor_without m gone j kept]
  simp only [Systemd.jobIsAnchor, Manager.objectList, pruned.links]

theorem jobIsNoop (kept : j ∉ gone) : jobIsNoop m' j = jobIsNoop m j := by
  unfold Systemd.jobIsNoop
  rw [pruned.jobIsAnchor j kept, pruned.changesExistingJob, (pruned.same j).installed,
    (pruned.same j).type, (pruned.same j).unit, pruned.activeState]

end

end Pruned

variable {m : Manager U}

section

variable (wf : WellFormed m)
include wf

theorem MarkStep.pruned {generation : Nat} {m' : Manager U} (step : MarkStep generation m m') :
    Pruned m m' [] := by
  have job : ∀ j, m'.job j = { m.job j with
      generation := (m'.job j).generation
      marker := (m'.job j).marker
      mattersToAnchor := (m'.job j).mattersToAnchor } := by
    intro j
    rcases step.marks j with same | ⟨_, marked⟩
    · rw [same]
    · rw [marked]
      rfl
  refine ⟨?_, ?_, job⟩
  · rw [step.frame]
    exact wf.withJob _ (fun j => by rw [job j]) (fun j => by rw [job j])
  · rw [wf.without_nil]
    exact step.frame

theorem WellFormed.marked : Pruned m (transactionFindJobsThatMatterToAnchor m 1) [] :=
  (transactionFindJobsThatMatterToAnchor_spec m 1 wf).1.pruned wf

theorem WellFormed.marked_links : (transactionFindJobsThatMatterToAnchor m 1).links = m.links := by
  rw [wf.marked.links, wf.without_nil]

theorem WellFormed.marked_chain : (transactionFindJobsThatMatterToAnchor m 1).chain = m.chain := by
  rw [wf.marked.chain, wf.without_nil]

end

section

variable [DecidableEq U]

theorem transactionDropRedundant_whole (m : Manager U) (wf : WellFormed m) :
    ∃ gone, transactionDropRedundant m = m.without gone ∧
      ∀ d ∈ gone, jobIsNoop m d = true ∧ m.InTransaction d ∧
        ∀ k ∈ m.chain (m.job d).unit, k ∈ gone := by
  obtain ⟨gone, dropped, noops⟩ := transactionDropRedundant_spec m wf
  refine ⟨gone, dropped, fun d inGone => ?_⟩
  obtain ⟨inside, all⟩ := noops d inGone
  refine ⟨all d (wf.inTransaction_chain inside), inside, ?_⟩
  intro k mem
  by_contra kept
  have remains : (transactionDropRedundant m).chain (m.job d).unit ≠ [] := by
    rw [dropped]
    exact ne_nil_of_mem ((m.mem_without_chain gone _ k).mpr ⟨mem, kept⟩)
  obtain ⟨k', inChain, busy⟩ := transactionDropRedundant_exhausted m wf _ remains
  rw [dropped] at inChain busy
  obtain ⟨mem', kept'⟩ := (m.mem_without_chain gone _ k').mp inChain
  rw [jobIsNoop_without m gone k' kept', all k' mem'] at busy
  cases busy

/-- How far the transaction has been thinned out since its jobs were marked. `dropped` are the jobs
that went as redundant; every other deletion took along what needed the deleted job. -/
structure Screened (mode : JobMode) (m m' : Manager U) (gone dropped : List JobId) : Prop where
  pruned : Pruned m m' gone
  matters : ∀ j, (m'.job j).mattersToAnchor = (m.job j).mattersToAnchor
  droppedGone : ∀ d ∈ dropped, d ∈ gone
  noop : ∀ d ∈ dropped, jobIsNoop m d = true ∧ m.InTransaction d ∧
    ∀ k ∈ m.chain (m.job d).unit, k ∈ gone
  needs : ∀ a b, Needs m a b -> b ∈ gone -> b ∉ dropped -> a ∈ gone
  spared : MattersClosed m -> ∀ j ∈ gone, (m.job j).mattersToAnchor = true ->
    j ∈ dropped ∨ mode ≠ .isolate ∧ jobIsAnchor m j = false

namespace Screened

variable {mode : JobMode} {m m' : Manager U} {gone dropped : List JobId}

omit [DecidableEq U] in
theorem refl (mode : JobMode) (wf : WellFormed m) : Screened mode m m [] [] where
  pruned := .refl wf
  matters := fun _ => rfl
  droppedGone := by simp
  noop := by simp
  needs := by simp
  spared := by simp

section

variable (screened : Screened mode m m' gone dropped)
include screened

section

omit [DecidableEq U]

theorem mattersClosed (closed : MattersClosed m) : MattersClosed m' := by
  intro link mem matters subjects
  rw [screened.pruned.links] at mem
  rw [screened.matters]
  refine closed link ((m.mem_without_links gone link).mp mem).1 matters fun s subject => ?_
  rw [← screened.matters]
  exact subjects s subject

theorem delete (gone' : List JobId) (closed : NeedsClosed m' gone') (spared : MattersClosed m' -> ∀ j ∈
      gone', (m'.job j).mattersToAnchor = true -> mode ≠ .isolate ∧ jobIsAnchor m' j = false) :
    Screened mode m (m'.without gone') (gone ++ gone') dropped where
  pruned := screened.pruned.without gone'
  matters := screened.matters
  droppedGone := fun d h => mem_append_left _ (screened.droppedGone d h)
  noop := fun d h => ⟨(screened.noop d h).1, (screened.noop d h).2.1,
    fun k mem => mem_append_left _ ((screened.noop d h).2.2 k mem)⟩
  needs := by
    intro a b needs inGone notDropped
    by_cases first : b ∈ gone
    · exact mem_append_left _ (screened.needs a b needs first notDropped)
    · by_cases outA : a ∈ gone
      · exact mem_append_left _ outA
      · refine mem_append_right _ (closed a b ?_ ((mem_append.mp inGone).resolve_left first))
        exact (screened.pruned.needs a b).mpr ⟨needs, outA, first⟩
  spared := by
    intro mattersClosed j inGone busy
    by_cases first : j ∈ gone
    · exact screened.spared mattersClosed j first busy
    · obtain ⟨notIsolate, notAnchor⟩ := spared (screened.mattersClosed mattersClosed) j
        ((mem_append.mp inGone).resolve_left first) ((screened.matters j).trans busy)
      exact .inr ⟨notIsolate, by rwa [← screened.pruned.jobIsAnchor j first]⟩

theorem deleteIdle (gone' : List JobId) (closed : NeedsClosed m' gone')
    (idle : MattersClosed m' -> ∀ j ∈ gone', (m'.job j).mattersToAnchor = false) :
    Screened mode m (m'.without gone') (gone ++ gone') dropped :=
  screened.delete gone' closed fun mattersClosed j mem busy => by
    simp [idle mattersClosed j mem] at busy

end

theorem dropRedundant :
    ∃ gone' dropped', Screened mode m (transactionDropRedundant m') gone' dropped' := by
  obtain ⟨new, deleted, whole⟩ := transactionDropRedundant_whole m' screened.pruned.wf
  refine ⟨gone ++ new, dropped ++ new, ?_⟩
  have outside : ∀ d ∈ new, d ∉ gone := by
    intro d inNew inGone
    obtain ⟨u, inChain⟩ := (whole d inNew).2.1
    exact ((screened.pruned.mem_chain u d).mp inChain).2 inGone
  rw [deleted]
  refine ⟨screened.pruned.without new, screened.matters, ?_, ?_, ?_, ?_⟩
  · intro d inDropped
    rcases mem_append.mp inDropped with old | inNew
    · exact mem_append_left _ (screened.droppedGone d old)
    · exact mem_append_right _ inNew
  · intro d inDropped
    rcases mem_append.mp inDropped with old | inNew
    · obtain ⟨noop, inside, chain⟩ := screened.noop d old
      exact ⟨noop, inside, fun k mem => mem_append_left _ (chain k mem)⟩
    · obtain ⟨noop, inside, chain⟩ := whole d inNew
      refine ⟨by rwa [← screened.pruned.jobIsNoop d (outside d inNew)],
        screened.pruned.inTransaction inside, ?_⟩
      intro k mem
      by_cases inGone : k ∈ gone
      · exact mem_append_left _ inGone
      · refine mem_append_right _ (chain k ?_)
        rw [(screened.pruned.same d).unit]
        exact (screened.pruned.mem_chain _ k).mpr ⟨mem, inGone⟩
  · intro a b needs inGone notDropped
    rcases mem_append.mp inGone with old | inNew
    · exact mem_append_left _ (screened.needs a b needs old
        fun h => notDropped (mem_append_left _ h))
    · exact absurd (mem_append_right _ inNew) notDropped
  · intro closed j inGone busy
    rcases mem_append.mp inGone with old | inNew
    · exact (screened.spared closed j old busy).imp (mem_append_left _) id
    · exact .inl (mem_append_right _ inNew)

theorem collect : ∃ gone', Screened mode m (collectUnlessIsolating mode m') gone' dropped := by
  unfold collectUnlessIsolating
  by_cases isolate : mode = .isolate
  · exact ⟨gone, by rwa [if_pos isolate]⟩
  · obtain ⟨new, deleted, closed, anchors, linked⟩ :=
      transactionCollectGarbage_spec m' screened.pruned.wf
    rw [if_neg isolate, deleted]
    exact ⟨gone ++ new, screened.delete new closed fun _ j mem _ => ⟨isolate, anchors j mem⟩⟩

theorem minimize : ∃ gone', Screened mode m (transactionMinimizeImpact m') gone' dropped := by
  by_cases mattersClosed : MattersClosed m'
  · obtain ⟨new, deleted, closed, idle⟩ :=
      transactionMinimizeImpact_spec m' screened.pruned.wf mattersClosed
    rw [deleted]
    exact ⟨gone ++ new, screened.deleteIdle new closed fun _ => idle⟩
  · obtain ⟨new, deleted, closed⟩ := transactionMinimizeImpact_without m' screened.pruned.wf
    rw [deleted]
    exact ⟨gone ++ new, screened.deleteIdle new closed fun h => absurd h mattersClosed⟩

omit [DecidableEq U] in
theorem withMarks (marks : JobId -> Mark JobId) : Screened mode m (withMarks m' marks) gone dropped :=
  { screened with pruned := screened.pruned.withMarks marks }

theorem deleteUnit (u : U) (idle : unitMattersToAnchor m' u = false) :
    ∃ gone', Screened mode m (transactionDeleteUnit m' u) gone' dropped := by
  have idleChain : ∀ j ∈ m'.chain u, (m'.job j).mattersToAnchor = false := by
    intro j mem
    have := any_eq_false.mp idle j mem
    simpa using this
  by_cases mattersClosed : MattersClosed m'
  · obtain ⟨new, deleted, closed, all, _⟩ := transactionDeleteUnit_spec m' screened.pruned.wf u
      (fun j => (m'.job j).mattersToAnchor = false) idleChain mattersClosed.back
    rw [deleted]
    exact ⟨gone ++ new, screened.deleteIdle new closed fun _ => all⟩
  · obtain ⟨new, deleted, closed, _, _⟩ := transactionDeleteUnit_spec m' screened.pruned.wf u
      (fun _ => True) (fun _ _ => trivial) (fun _ _ _ _ => trivial)
    rw [deleted]
    exact ⟨gone ++ new, screened.deleteIdle new closed fun h => absurd h mattersClosed⟩

theorem verify (E : Units U) (generation : Nat) :
    ∃ gone', Screened mode m (transactionVerifyOrder E m' generation).1 gone' dropped := by
  have result := transactionVerifyOrder_cases E m' generation
  generalize transactionVerifyOrder E m' generation = outcome at result ⊢
  cases result with
  | clear marks _ => exact ⟨gone, screened.withMarks marks⟩
  | cyclic marks _ => exact ⟨gone, screened.withMarks marks⟩
  | broken marks u _ idle => exact (screened.withMarks marks).deleteUnit u idle

omit [DecidableEq U] in
theorem conflict (d : JobId) (new : List JobId) (idle : (m'.job d).mattersToAnchor = false)
    (cascade : Cascade m' d true new) : Screened mode m (m'.without new) (gone ++ new) dropped := by
  refine screened.deleteIdle new cascade.needsClosed fun closed j inNew => ?_
  rcases cascade.reach j inNew with rfl | path
  · exact idle
  · exact Relation.TransGen.closed' (r := Needs m')
      (P := fun j => (m'.job j).mattersToAnchor = false) (fun {a b} => closed.back a b) path idle

end

end Screened

-- The passes between marking the jobs that matter and the first look at the order.
def thinned (mode : JobMode) (m : Manager U) : Manager U :=
  transactionDropRedundant (if mode = .fail then transactionMinimizeImpact m else m)

/-- The states in which transaction_activate calls transaction_verify_order, with the generation it
passes, given the state `m` after the jobs that matter were marked. -/
inductive OrderRound (E : Units U) (mode : JobMode) (m : Manager U) : Manager U -> Nat -> Prop where
  | first : OrderRound E mode m (collectUnlessIsolating mode (thinned mode m)) 2
  | next (m' m'' : Manager U) (generation : Nat) : OrderRound E mode m m' generation ->
      transactionVerifyOrder E m' generation = (m'', .error .again) ->
      OrderRound E mode m (collectUnlessIsolating mode m'') (generation + 1)

inductive MergeRound (E : Units U) (mode : JobMode) (m : Manager U) : Manager U -> Prop where
  | first (m' m'' : Manager U) (generation : Nat) : OrderRound E mode m m' generation ->
      transactionVerifyOrder E m' generation = (m'', .ok ()) -> MergeRound E mode m m''
  | next (m' m'' : Manager U) : MergeRound E mode m m' ->
      transactionMergeJobs m' = (m'', .error .again) ->
      MergeRound E mode m (collectUnlessIsolating mode m'')

inductive CheckCase (E : Units U) (mode : JobMode) (m : Manager U) : Manager U × Status U -> Prop where
  | order (m' m'' : Manager U) (generation : Nat) (e : RequestError U) :
      OrderRound E mode m m' generation ->
      transactionVerifyOrder E m' generation = (m'', .error e) -> CheckCase E mode m (m'', .error e)
  | merge (m' m'' : Manager U) (e : RequestError U) : MergeRound E mode m m' ->
      transactionMergeJobs m' = (m'', .error e) -> CheckCase E mode m (m'', .error e)
  | again (m' : Manager U) : MergeRound E mode m m' -> CheckCase E mode m (m', .error .again)
  | done (m' m'' : Manager U) (status : Status U) : MergeRound E mode m m' ->
      transactionMergeJobs m' = (m'', .ok ()) ->
      status = .ok () ∨ status = .error .isDestructive ->
      CheckCase E mode m (transactionDropRedundant m'', status)

variable (E : Units U) (mode : JobMode)

theorem orderRounds_cases (m : Manager U) (rounds : Nat) (start m' : Manager U) (generation : Nat)
    (status : Status U) (round : OrderRound E mode m (collectUnlessIsolating mode start) generation)
    (ran : orderRounds E mode (rounds + 1) start generation = (m', status)) :
    ∃ m0 g, OrderRound E mode m m0 g ∧ transactionVerifyOrder E m0 g = (m', status) := by
  induction rounds generalizing start generation with
  | zero =>
    rw [orderRounds] at ran
    cases verified : transactionVerifyOrder E (collectUnlessIsolating mode start) generation with
    | mk m1 outcome =>
      refine ⟨_, generation, round, ?_⟩
      rw [verified]
      cases outcome with
      | ok => simpa [verified] using ran
      | error e => cases e <;> simpa [verified, orderRounds] using ran
  | succ rounds ih =>
    rw [orderRounds] at ran
    cases verified : transactionVerifyOrder E (collectUnlessIsolating mode start) generation with
    | mk m1 outcome =>
      by_cases again : outcome = .error .again
      · subst again
        simp only [verified] at ran
        exact ih m1 (generation + 1) (.next _ m1 generation round verified) ran
      · refine ⟨_, generation, round, ?_⟩
        rw [verified]
        cases outcome with
        | ok => simpa [verified] using ran
        | error e =>
          cases e with
          | again => exact absurd rfl again
          | _ => simpa [verified] using ran

theorem mergeRounds_cases (m : Manager U) (rounds : Nat) (start m' : Manager U) (status : Status U)
    (round : MergeRound E mode m start) (ran : mergeRounds mode rounds start = (m', status)) :
    (∃ m0, MergeRound E mode m m0 ∧ transactionMergeJobs m0 = (m', status)) ∨
    (MergeRound E mode m m' ∧ status = .error .again) := by
  induction rounds generalizing start with
  | zero =>
    obtain ⟨rfl, rfl⟩ := Prod.mk.inj ran
    exact .inr ⟨round, rfl⟩
  | succ rounds ih =>
    rw [mergeRounds] at ran
    cases merged : transactionMergeJobs start with
    | mk m1 outcome =>
      by_cases again : outcome = .error .again
      · subst again
        simp only [merged] at ran
        exact ih _ (.next start m1 round merged) ran
      · refine .inl ⟨start, round, ?_⟩
        rw [merged]
        cases outcome with
        | ok => simpa [merged] using ran
        | error e =>
          cases e with
          | again => exact absurd rfl again
          | _ => simpa [merged] using ran

-- transactionCheck() once the jobs that matter are marked.
def checkMarked (E : Units U) (mode : JobMode) (marked : Manager U) : Manager U × Status U :=
  match orderRounds E mode ((thinned mode marked).transactionList.length + 1) (thinned mode marked) 2 with
  | (m, .error e) => (m, .error e)
  | (m, .ok ()) =>
    match mergeRounds mode (m.transactionList.length + 1) m with
    | (m, .error e) => (m, .error e)
    | (m, .ok ()) =>
      if mode = .fail ∧ transactionIsDestructive (transactionDropRedundant m) then
        (transactionDropRedundant m, .error .isDestructive)
      else (transactionDropRedundant m, .ok ())

theorem transactionCheck_cases (m : Manager U) :
    CheckCase E mode (transactionFindJobsThatMatterToAnchor m 1) (transactionCheck E mode m) := by
  change CheckCase E mode _ (checkMarked E mode _)
  generalize transactionFindJobsThatMatterToAnchor m 1 = marked
  unfold checkMarked
  cases ordered : orderRounds E mode ((thinned mode marked).transactionList.length + 1)
      (thinned mode marked) 2 with
  | mk m1 outcome =>
    obtain ⟨m0, g, round, verified⟩ := orderRounds_cases E mode marked _ _ m1 2 outcome .first ordered
    cases outcome with
    | error e => exact .order m0 m1 g e round verified
    | ok =>
      simp only
      cases merged : mergeRounds mode (m1.transactionList.length + 1) m1 with
      | mk m2 outcome =>
        have cases := mergeRounds_cases E mode marked _ m1 m2 outcome (.first m0 m1 g round verified)
          merged
        cases outcome with
        | error e =>
          rcases cases with ⟨m3, mergeRound, failed⟩ | ⟨mergeRound, again⟩
          · exact .merge m3 m2 e mergeRound failed
          · obtain rfl := Except.error.inj again
            exact .again m2 mergeRound
        | ok =>
          rcases cases with ⟨m3, mergeRound, succeeded⟩ | ⟨_, again⟩
          · simp only
            split
            · exact .done m3 m2 _ mergeRound succeeded (.inr rfl)
            · exact .done m3 m2 _ mergeRound succeeded (.inl rfl)
          · cases again

variable {m m0 m' : Manager U} {dropped gone : List JobId} {E : Units U} {mode : JobMode}
  {generation : Nat} {u : U}

theorem Screened.thinned (mode : JobMode) (wf : WellFormed m) :
    ∃ gone dropped, Screened mode m (thinned mode m) gone dropped := by
  unfold Systemd.thinned
  by_cases fail : mode = .fail
  · obtain ⟨gone, minimized⟩ := (Screened.refl mode wf).minimize
    rw [if_pos fail]
    exact minimized.dropRedundant
  · rw [if_neg fail]
    exact (Screened.refl mode wf).dropRedundant

-- From any state the transaction was screened from before it was thinned.
theorem OrderRound.screened_from (thin : Screened mode m0 (Systemd.thinned mode m) gone dropped)
    (round : OrderRound E mode m m' generation) : ∃ gone, Screened mode m0 m' gone dropped := by
  induction round with
  | first => exact thin.collect
  | next m' m'' generation _ verified ih =>
    obtain ⟨_, screened⟩ := ih
    obtain ⟨_, broken⟩ := screened.verify E generation
    rw [verified] at broken
    exact broken.collect

theorem OrderRound.screened (wf : WellFormed m) (round : OrderRound E mode m m' generation) :
    ∃ gone dropped, Screened mode m m' gone dropped := by
  obtain ⟨_, dropped, thinned⟩ := Screened.thinned mode wf
  obtain ⟨gone, screened⟩ := round.screened_from thinned
  exact ⟨gone, dropped, screened⟩

theorem MergeRound.screened_from (thin : Screened mode m0 (Systemd.thinned mode m) gone dropped)
    (round : MergeRound E mode m m') : ∃ gone, Screened mode m0 m' gone dropped := by
  induction round with
  | first m' m'' generation round verified =>
    obtain ⟨_, screened⟩ := round.screened_from thin
    obtain ⟨gone, clear⟩ := screened.verify E generation
    rw [verified] at clear
    exact ⟨gone, clear⟩
  | next m' m'' _ merged ih =>
    obtain ⟨_, screened⟩ := ih
    have result := transactionMergeJobs_cases m' screened.pruned.wf
    rw [merged] at result
    cases result with
    | conflict d new idle _ cascade => exact (screened.conflict d new idle cascade).collect

theorem MergeRound.screened (wf : WellFormed m) (round : MergeRound E mode m m') :
    ∃ gone dropped, Screened mode m m' gone dropped := by
  obtain ⟨_, dropped, thinned⟩ := Screened.thinned mode wf
  obtain ⟨gone, screened⟩ := round.screened_from thinned
  exact ⟨gone, dropped, screened⟩

/-- A unit that still has jobs at the merge had one that was worth keeping when the redundant ones went. -/
theorem MergeRound.busy (wf : WellFormed m) (round : MergeRound E mode m m')
    (nonempty : m'.chain u ≠ []) : ∃ k ∈ m.chain u, jobIsNoop m k = false := by
  obtain ⟨gone, _, thinned⟩ := Screened.thinned mode wf
  obtain ⟨_, later⟩ := round.screened_from (Screened.refl mode thinned.pruned.wf)
  obtain ⟨j, mem⟩ := exists_mem_of_ne_nil _ nonempty
  have before : (Systemd.thinned mode m).chain u ≠ [] :=
    ne_nil_of_mem ((later.pruned.mem_chain u j).mp mem).1
  have minimized : WellFormed (if mode = .fail then transactionMinimizeImpact m else m) := by
    split
    · obtain ⟨_, minimized⟩ := (Screened.refl mode wf).minimize
      exact minimized.pruned.wf
    · exact wf
  obtain ⟨k, inChain, worth⟩ := transactionDropRedundant_exhausted _ minimized u before
  obtain ⟨inOld, kept⟩ := (thinned.pruned.mem_chain u k).mp inChain
  exact ⟨k, inOld, (thinned.pruned.jobIsNoop k kept).symm.trans worth⟩

theorem collectUnlessIsolating_headed (collecting : mode ≠ .isolate) (wf : WellFormed m) {head : JobId}
    (found : (collectUnlessIsolating mode m).transactionGet u = some head) :
    ∃ link ∈ (collectUnlessIsolating mode m).links, link.object = head := by
  rw [collectUnlessIsolating, if_neg collecting] at found ⊢
  exact transactionCollectGarbage_headed m wf found

/-- Garbage is collected before each merge, so whatever heads a unit's list then is asked for. -/
theorem MergeRound.headed (wf : WellFormed m) (collecting : mode ≠ .isolate)
    (round : MergeRound E mode m m') {head : JobId} (found : m'.transactionGet u = some head) :
    ∃ link ∈ m'.links, link.object = head := by
  obtain ⟨_, _, thinned⟩ := Screened.thinned mode wf
  cases round with
  | first m1 _ generation round verified =>
    have headed {head : JobId} (found : m1.transactionGet u = some head) :
        ∃ link ∈ m1.links, link.object = head := by
      cases round with
      | first => exact collectUnlessIsolating_headed collecting thinned.pruned.wf found
      | next m2 m3 generation round broke =>
        obtain ⟨_, _, screened⟩ := round.screened wf
        obtain ⟨_, broken⟩ := screened.verify E generation
        rw [broke] at broken
        exact collectUnlessIsolating_headed collecting broken.pruned.wf found
    have result := transactionVerifyOrder_cases E m1 generation
    rw [verified] at result
    cases result with
    | clear marks _ => exact headed found
  | next m1 m2 round merged =>
    obtain ⟨_, _, screened⟩ := round.screened wf
    have result := transactionMergeJobs_cases m1 screened.pruned.wf
    rw [merged] at result
    cases result with
    | conflict d gone _ _ _ =>
      exact collectUnlessIsolating_headed collecting (screened.pruned.wf.without gone) found

theorem collectUnlessIsolating_job (mode : JobMode) (m : Manager U) (wf : WellFormed m) :
    (collectUnlessIsolating mode m).job = m.job := by
  unfold collectUnlessIsolating
  split
  · rfl
  · obtain ⟨gone, collected, _⟩ := transactionCollectGarbage_spec m wf
    rw [collected]
    rfl

theorem thinned_job (mode : JobMode) (m : Manager U) (wf : WellFormed m) :
    (thinned mode m).job = m.job := by
  have drop : ∀ m : Manager U, WellFormed m -> (transactionDropRedundant m).job = m.job := by
    intro m wf
    obtain ⟨gone, dropped, _⟩ := transactionDropRedundant_spec m wf
    rw [dropped]
    rfl
  unfold thinned
  split
  · obtain ⟨gone, minimized, _⟩ := transactionMinimizeImpact_without m wf
    rw [minimized, drop _ (wf.without gone)]
    rfl
  · exact drop m wf

theorem OrderRound.marks (wf : WellFormed m) (round : OrderRound E mode m m' generation) :
    2 ≤ generation ∧ ∀ j, generation ≤ (m'.job j).generation -> marksOf m' j = marksOf m j := by
  induction round with
  | first =>
    refine ⟨le_refl _, fun j _ => ?_⟩
    obtain ⟨_, _, screened⟩ := Screened.thinned mode wf
    unfold marksOf
    rw [collectUnlessIsolating_job _ _ screened.pruned.wf, thinned_job _ _ wf]
  | next m' m'' generation round verified ih =>
    obtain ⟨atLeast, marks⟩ := ih
    refine ⟨by omega, fun j late => ?_⟩
    obtain ⟨_, _, screened⟩ := round.screened wf
    have result := transactionVerifyOrder_cases E m' generation
    rw [verified] at result
    have wf'' : WellFormed m'' := by
      obtain ⟨_, broken⟩ := screened.verify E generation
      rw [verified] at broken
      exact broken.pruned.wf
    have jobs : ∃ marks, Touched generation (marksOf m') marks ∧ m''.job = (withMarks m' marks).job := by
      cases result with
      | broken marks u touched _ =>
        refine ⟨marks, touched, ?_⟩
        obtain ⟨gone, deleted, _⟩ := transactionDeleteUnit_spec (withMarks m' marks)
          (screened.withMarks marks).pruned.wf u (fun _ => True) (fun _ _ => trivial)
          (fun _ _ _ _ => trivial)
        rw [deleted]
        rfl
    obtain ⟨new, touched, same⟩ := jobs
    have here : marksOf (collectUnlessIsolating mode m'') j = new j := by
      unfold marksOf
      rw [collectUnlessIsolating_job _ _ wf'', same]
      rfl
    have late' : generation + 1 ≤ (new j).generation := by
      have := congrArg Mark.generation here
      rw [← this]
      exact late
    rcases touched j with unchanged | now
    · rw [here, unchanged]
      refine marks j ?_
      have := congrArg Mark.generation unchanged
      change (new j).generation = (m'.job j).generation at this
      omega
    · omega

structure Checked (m m' : Manager U) : Prop where
  wf : WellFormed m'
  jobs : m'.jobs = m.jobs
  metaJob : m'.metaJob = m.metaJob
  activeState : m'.activeState = m.activeState
  runQueue : m'.runQueue = m.runQueue
  currentJobId : m'.currentJobId = m.currentJobId
  nReloading : m'.nReloading = m.nReloading
  unit : ∀ j, (m'.job j).unit = (m.job j).unit
  installed : ∀ j, (m'.job j).installed = (m.job j).installed
  kept : ∀ j, (m.job j).installed = true -> SameJob (m.job j) (m'.job j) ∧
    (m'.job j).override = (m.job j).override ∧ (m'.job j).ignoreOrder = (m.job j).ignoreOrder
  chain : ∀ u, m'.chain u ⊆ m.chain u

section

omit [DecidableEq U]

theorem Pruned.checked (pruned : Pruned m m' gone) : Checked m m' where
  wf := pruned.wf
  jobs := pruned.jobs
  metaJob := pruned.metaJob
  activeState := pruned.activeState
  runQueue := pruned.runQueue
  currentJobId := pruned.currentJobId
  nReloading := pruned.nReloading
  unit := fun j => (pruned.same j).unit
  installed := fun j => (pruned.same j).installed
  kept := fun j _ => ⟨pruned.same j, pruned.override j, pruned.ignoreOrder j⟩
  chain := fun u j mem => ((pruned.mem_chain u j).mp mem).1

theorem MergeStep.checked (step : MergeStep m m') : Checked m m' where
  wf := step.wf
  jobs := step.jobs
  metaJob := step.metaJob
  activeState := step.activeState
  runQueue := step.runQueue
  currentJobId := step.currentJobId
  nReloading := step.nReloading
  unit := step.unit
  installed := step.installed
  kept := fun j installed => by
    rw [step.untouched j installed]
    exact ⟨.refl _, rfl, rfl⟩
  chain := step.chain

theorem Checked.trans {m'' : Manager U} (first : Checked m m') (second : Checked m' m'') :
    Checked m m'' where
  wf := second.wf
  jobs := second.jobs.trans first.jobs
  metaJob := second.metaJob.trans first.metaJob
  activeState := second.activeState.trans first.activeState
  runQueue := second.runQueue.trans first.runQueue
  currentJobId := second.currentJobId.trans first.currentJobId
  nReloading := second.nReloading.trans first.nReloading
  unit := fun j => (second.unit j).trans (first.unit j)
  installed := fun j => (second.installed j).trans (first.installed j)
  kept := by
    intro j installed
    obtain ⟨same, override, order⟩ := first.kept j installed
    obtain ⟨same', override', order'⟩ := second.kept j ((first.installed j).trans installed)
    exact ⟨same.trans same', override'.trans override, order'.trans order⟩
  chain := fun u _ mem => first.chain u (second.chain u mem)

end

theorem transactionDropRedundant_checked (wf : WellFormed m) :
    Checked m (transactionDropRedundant m) := by
  obtain ⟨gone, dropped, _⟩ := transactionDropRedundant_spec m wf
  rw [dropped]
  have step := (Pruned.refl wf).without gone
  exact step.checked

theorem transactionMergeJobs_checked (wf : WellFormed m) {status : Status U}
    (merged : transactionMergeJobs m = (m', status)) : Checked m m' := by
  have result := transactionMergeJobs_cases m wf
  rw [merged] at result
  cases result with
  | conflict d gone _ _ _ => exact ((Pruned.refl wf).without gone).checked
  | refused => exact (Pruned.refl wf).checked
  | merged _ _ all => exact all.step.checked

theorem transactionCheck_checked {outcome : Status U} (wf : WellFormed m)
    (check : transactionCheck E mode m = (m', outcome)) : Checked m m' := by
  have marked := wf.marked
  refine marked.checked.trans ?_
  have result := transactionCheck_cases E mode m
  rw [check] at result
  cases result with
  | order m' m'' generation e round verified =>
    obtain ⟨_, _, screened⟩ := round.screened marked.wf
    obtain ⟨_, failed⟩ := screened.verify E generation
    rw [verified] at failed
    exact failed.pruned.checked
  | merge m' m'' e round merged =>
    obtain ⟨_, _, screened⟩ := round.screened marked.wf
    exact screened.pruned.checked.trans (transactionMergeJobs_checked screened.pruned.wf merged)
  | again m' round =>
    obtain ⟨_, _, screened⟩ := round.screened marked.wf
    exact screened.pruned.checked
  | done m' m'' status round merged _ =>
    obtain ⟨_, _, screened⟩ := round.screened marked.wf
    have step := transactionMergeJobs_checked screened.pruned.wf merged
    exact (screened.pruned.checked.trans step).trans (transactionDropRedundant_checked step.wf)

variable [Fintype U]

def Asked (E : Units U) (m : Manager U) (request : JobRequest U) (type : JobType) (u : U) : Prop :=
  Brought E request.call type u ∨ request.mode = .isolate ∧ IsolatePulled E m type u

structure Built (E : Units U) (m : Manager U) (request : JobRequest U) (m' : Manager U) : Prop where
  wf : WellFormed m'
  growth : Growth E (Asked E m request) m m'
  anchors : ∀ link ∈ m'.links, link.subject = none -> link ∈ m.links ∨
    (m'.job link.object).type = request.type ∧ (m'.job link.object).unit = request.unit ∨
    request.mode = .isolate ∧ (m'.job link.object).type = .stop

variable {request : JobRequest U}

theorem buildTransaction_spec {outcome : Except (RequestError U) JobId} (wf : WellFormed m)
    (built : buildTransaction E m request = (m', outcome)) :
    Built E m request m' ∧ ∀ ret, outcome = .ok ret -> Placed m' request.call ret := by
  have spec := transactionAddJobAndDependencies_spec E
  have valid := callFrom_none E m request.call rfl
  have wf1 := spec.wf m request.call wf valid
  have growth1 : Growth E (Asked E m request) m (transactionAddJobAndDependencies E m request.call).1 :=
    (spec.growth m request.call wf valid).mono fun _ _ => .inl
  have placed := spec.placed m request.call wf valid
  have anchors1 := spec.anchors m request.call wf valid
  unfold buildTransaction at built
  cases added : transactionAddJobAndDependencies E m request.call with
  | mk m1 result =>
    rw [added] at wf1 growth1 placed anchors1 built
    have roots : ∀ link ∈ m1.links, link.subject = none -> link ∈ m.links ∨
        (m1.job link.object).type = request.type ∧ (m1.job link.object).unit = request.unit ∨
        request.mode = .isolate ∧ (m1.job link.object).type = .stop :=
      fun link mem anchor => (anchors1 link mem anchor).imp id fun root => .inl root.2
    cases result with
    | error e =>
      obtain ⟨rfl, rfl⟩ := Prod.mk.inj built
      exact ⟨⟨wf1, growth1, roots⟩, fun ret failed => by cases failed⟩
    | ok ret =>
      obtain ⟨same, rfl⟩ := Prod.mk.inj built
      by_cases isolate : request.mode = .isolate
      · rw [if_pos isolate] at same
        obtain ⟨wf2, growth2, anchors2⟩ := transactionAddIsolateJobs_spec E m1 wf1
        rw [same] at wf2 growth2 anchors2
        have here : Growth E (Asked E m request) m1 m' := growth2.mono fun type u pulled => by
          obtain ⟨v, ⟨mem, kept, awake⟩, inside⟩ := pulled
          refine .inr ⟨isolate, v, ⟨mem, kept, ?_⟩, inside⟩
          rwa [growth1.activeState, growth1.metaJob] at awake
        refine ⟨⟨wf2, growth1.trans wf1 here, fun link mem anchor => ?_⟩, fun ret' result => ?_⟩
        · rcases anchors2 link mem anchor with old | stop
          · obtain ⟨v, inChain⟩ := wf1.linkObject link old
            have kept := growth2.kept _ (wf1.chainFresh v _ inChain)
            rw [kept.type, kept.unit]
            exact roots link old anchor
          · exact .inr (.inr ⟨isolate, stop⟩)
        · obtain rfl := Except.ok.inj result
          exact (placed ret rfl).grow wf1 here
      · rw [if_neg isolate] at same
        subst same
        refine ⟨⟨wf1, growth1, roots⟩, fun ret' result => ?_⟩
        obtain rfl := Except.ok.inj result
        exact placed ret rfl

def World.enter (w : World U) (request : JobRequest U) : World U :=
  { w with entered := w.entered ++ [⟨w.manager, request⟩] }

inductive AddCase (E : Units U) (finish : FinishFunction U) (fuel : Nat) (w : World U)
    (request : JobRequest U) : World U × Except (RequestError U) JobId -> Prop where
  | refused (e : RequestError U) : requestRefusal E request = some e ->
      AddCase E finish fuel w request (w.enter request, .error e)
  | unbuilt (m1 : Manager U) (e : RequestError U) : requestRefusal E request = none ->
      buildTransaction E w.manager request = (m1, .error e) ->
      AddCase E finish fuel w request ((w.enter request).set (transactionAbort m1), .error e)
  | rejected (m1 m2 : Manager U) (ret : JobId) (e : RequestError U) :
      requestRefusal E request = none -> buildTransaction E w.manager request = (m1, .ok ret) ->
      transactionCheck E request.mode m1 = (m2, .error e) ->
      AddCase E finish fuel w request ((w.enter request).set (transactionAbort m2), .error e)
  | applied (m1 m2 : Manager U) (ret : JobId) (w' : World U) :
      requestRefusal E request = none -> buildTransaction E w.manager request = (m1, .ok ret) ->
      transactionCheck E request.mode m1 = (m2, .ok ()) ->
      transactionApply finish fuel ((w.enter request).set m2) request.mode = .ok w' ->
      AddCase E finish fuel w request (w', .ok ret)

theorem addJobBody_cases {finish : FinishFunction U} {fuel : Nat} {w : World U}
    {result : World U × Except (RequestError U) JobId}
    (ran : addJobBody E finish fuel w request = .ok result) :
    AddCase E finish fuel w request result := by
  unfold addJobBody at ran
  cases refused : requestRefusal E request with
  | some e =>
    simp only [refused] at ran
    exact Except.ok.inj ran ▸ .refused e refused
  | none =>
    simp only [refused] at ran
    cases built : buildTransaction E w.manager request with
    | mk m1 outcome =>
      simp only [built] at ran
      cases outcome with
      | error e => exact Except.ok.inj ran ▸ .unbuilt m1 e refused built
      | ok ret =>
        simp only [transactionActivate, World.set] at ran
        cases check : transactionCheck E request.mode m1 with
        | mk m2 status =>
          simp only [check] at ran
          cases status with
          | error e => exact Except.ok.inj ran ▸ .rejected m1 m2 ret e refused built check
          | ok =>
            simp only [bind, Except.bind] at ran
            cases applied : transactionApply finish fuel ((w.enter request).set m2) request.mode with
            | error fault =>
              simp only [World.enter, World.set] at applied
              simp [applied] at ran
            | ok w' =>
              have same := applied
              simp only [World.enter, World.set] at same
              simp only [same] at ran
              exact Except.ok.inj ran ▸ .applied m1 m2 ret w' refused built check applied

end

end Systemd
