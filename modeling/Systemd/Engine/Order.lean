import Systemd.Engine.Runs

set_option autoImplicit false

namespace Systemd

open Cycles Search Relation List

variable {U : Type}

theorem hasJob_iff (m : Manager U) (u : U) : HasJob m u ↔ m.chain u ≠ [] ∨ m.metaJob u ≠ none := by
  unfold HasJob orderJob Manager.transactionGet
  cases m.chain u with
  | nil => simp [Option.ne_none_iff_exists']
  | cons j rest => simp

variable {m m' : Manager U} {E : Units U} {e : Entry U} {generation : Nat}

theorem HasJob.mono (chain : ∀ u, m'.chain u ⊆ m.chain u)
    (metaJob : ∀ u, m'.metaJob u ≠ none -> m.metaJob u ≠ none) {u : U} (busy : HasJob m' u) :
    HasJob m u := by
  rw [hasJob_iff] at busy ⊢
  refine busy.imp (fun nonempty empty => nonempty ?_) (metaJob u)
  exact subset_nil.mp (empty ▸ chain u)

variable [DecidableEq U]

theorem MergeRound.ordered {mode : JobMode} (wf : WellFormed m) (round : MergeRound E mode m m') :
    ∃ before after generation, OrderRound E mode m before generation ∧
      transactionVerifyOrder E before generation = (after, .ok ()) ∧ Checked before m' := by
  induction round with
  | first before after generation round verified =>
    obtain ⟨_, _, screened⟩ := round.screened wf
    obtain ⟨_, clear⟩ := (Screened.refl mode screened.pruned.wf).verify E generation
    rw [verified] at clear
    exact ⟨before, after, generation, round, verified, clear.pruned.checked⟩
  | next m' m'' round merged ih =>
    obtain ⟨before, after, generation, order, verified, checked⟩ := ih
    have step := transactionMergeJobs_checked checked.wf merged
    obtain ⟨_, collected⟩ := (Screened.refl mode step.wf).collect
    exact ⟨before, after, generation, order, verified,
      (checked.trans step).trans collected.pruned.checked⟩

variable [Fintype U]

/-- The calls of transaction_verify_order a request leads to, each with the state it is made in. -/
def VerifyCall (E : Units U) (e : Entry U) (m : Manager U) (generation : Nat) : Prop :=
  ∃ m1 ret, requestRefusal E e.request = none ∧
    buildTransaction E e.manager e.request = (m1, .ok ret) ∧
    OrderRound E e.request.mode (transactionFindJobsThatMatterToAnchor m1 1) m generation

section

variable (wf : WellFormed e.manager)
include wf

section

variable (call : VerifyCall E e m generation)
include call

theorem VerifyCall.frame : WellFormed m ∧ m.metaJob = e.manager.metaJob := by
  obtain ⟨m1, ret, _, built, round⟩ := call
  obtain ⟨⟨wf1, growth, _⟩, _⟩ := buildTransaction_spec wf built
  have marked := wf1.marked
  obtain ⟨_, _, screened⟩ := round.screened marked.wf
  exact ⟨screened.pruned.wf,
    (screened.pruned.metaJob.trans marked.metaJob).trans growth.metaJob⟩

theorem VerifyCall.chain_nil {u : U} (none : (buildTransaction E e.manager e.request).1.chain u = []) :
    m.chain u = [] := by
  obtain ⟨m1, ret, _, built, round⟩ := call
  obtain ⟨⟨wf1, _⟩, _⟩ := buildTransaction_spec wf built
  obtain ⟨_, _, screened⟩ := round.screened wf1.marked.wf
  rw [built, ← wf1.marked_chain] at none
  refine eq_nil_iff_forall_not_mem.mpr fun j mem => ?_
  have before := ((screened.pruned.mem_chain u j).mp mem).1
  rw [none] at before
  cases before

-- A job that already carries the generation of the call carried it, with the same marker, when the
-- request was entered.
theorem VerifyCall.stale (j : JobId) (mem : j ∈ orderNodes m)
    (visited : (m.job j).generation = generation) :
    j ∈ orderNodes e.manager ∧ marksOf m j = marksOf e.manager j := by
  obtain ⟨m1, ret, _, built, round⟩ := call
  obtain ⟨⟨wf1, growth, _⟩, _⟩ := buildTransaction_spec wf built
  have step := (transactionFindJobsThatMatterToAnchor_spec m1 1 wf1).1
  have marked := step.pruned wf1
  obtain ⟨atLeast, marks⟩ := round.marks marked.wf
  have atMark := marks j visited.ge
  have generationAtMark := congrArg Mark.generation atMark
  have unmarked : (transactionFindJobsThatMatterToAnchor m1 1).job j = m1.job j := by
    rcases step.marks j with same | ⟨_, now⟩
    · exact same
    · simp only [marksOf, now, Job.marked] at generationAtMark
      omega
  have notFresh : ¬ (m1.job j).Unmarked := by
    rintro ⟨zero, _⟩
    simp only [marksOf, unmarked] at generationAtMark
    omega
  obtain ⟨_, _, screened⟩ := round.screened marked.wf
  constructor
  · rcases mem_append.mp mem with inJobs | inList
    · rw [screened.pruned.jobs, marked.jobs, growth.jobs] at inJobs
      exact mem_append_left _ inJobs
    · obtain ⟨u, inChain⟩ := marked.inTransaction
        (screened.pruned.inTransaction ((screened.pruned.wf.inTransaction_iff j).mpr inList))
      obtain ⟨added, chain, fresh⟩ := growth.chain u
      rw [chain] at inChain
      rcases mem_append.mp inChain with new | old
      · exact absurd (fresh j new).2 notFresh
      · exact mem_append_right _ ((wf.inTransaction_iff j).mp ⟨u, old⟩)
  · have atBuild := (growth.marks j).resolve_left notFresh
    simp only [marksOf, unmarked, Mark.mk.injEq] at atMark ⊢
    exact ⟨atMark.1.trans atBuild.1, atMark.2.trans atBuild.2.1⟩

end

end

def HidesCycle (E : Units U) (e : Entry U) (m : Manager U) (generation : Nat) : Prop :=
  ∃ u k, TransGen (Within (HasJob m) (OrderedBefore E)) u u ∧ orderJob m u = some k ∧
    k ∈ orderNodes e.manager ∧ Closed generation (marksOf e.manager k)

def Ordered (E : Units U) (m : Manager U) : Prop :=
  Settled m ∧ Acyclic (Within (HasJob m) (OrderedBefore E))

omit [DecidableEq U] [Fintype U] in
theorem Ordered.fewer (ordered : Ordered E m) (settled : Settled m')
    (fewer : ∀ u, HasJob m' u -> HasJob m u) : Ordered E m' :=
  ⟨settled, ordered.2.within fewer⟩

theorem Ordered.check (ordered : Ordered E e.manager)
    (seen : ∀ m generation, VerifyCall E e m generation -> ¬ HidesCycle E e m generation)
    (accepted : requestRefusal E e.request = none) {m1 m2 : Manager U} {ret : JobId}
    (built : buildTransaction E e.manager e.request = (m1, .ok ret))
    (check : transactionCheck E e.request.mode m1 = (m2, .ok ())) : Ordered E m2 := by
  have wf := ordered.1.wf
  obtain ⟨⟨wf1, growth, _⟩, _⟩ := buildTransaction_spec wf built
  have marked := wf1.marked
  refine ⟨transactionCheck_settled wf1 check, ?_⟩
  have result := transactionCheck_cases E e.request.mode m1
  rw [check] at result
  cases result with
  | done m' m'' _ round merged _ =>
    obtain ⟨before, after, generation, order, verified, checked⟩ := round.ordered marked.wf
    have call : VerifyCall E e before generation := ⟨m1, ret, accepted, built, order⟩
    obtain ⟨wfBefore, metaJob⟩ := call.frame wf
    have step := transactionMergeJobs_checked checked.wf merged
    have all := (checked.trans step).trans (transactionDropRedundant_checked step.wf)
    have acyclic : Acyclic (Within (HasJob before) (OrderedBefore E)) := by
      intro u loop
      by_cases touched : ∃ v ∈ before.transactionUnits,
          TransGen (Within (HasJob before) (OrderedBefore E)) v v
      · obtain ⟨v, mem, loopV⟩ := touched
        obtain ⟨x, k, loopX, found, closed⟩ := transactionVerifyOrder_acyclic E wfBefore generation
          verified v mem loopV
        obtain ⟨live, same⟩ := call.stale wf k (orderJob_mem wfBefore found).1 closed.1
        exact seen before generation call ⟨x, k, loopX, found, live, same ▸ closed⟩
      · -- No unit on the cycle has a job in the transaction, so the cycle was there before.
        refine ordered.2 u (TransGen.mono ?_ _ _ (transGen_onLoop u loop))
        have old : ∀ v, TransGen (Within (HasJob before) (OrderedBefore E)) v v -> HasJob before v ->
            HasJob e.manager v := by
          intro v loopV busy
          have outside : before.chain v = [] := by
            by_contra nonempty
            exact touched ⟨v, (wfBefore.unitsChain v).mpr nonempty, loopV⟩
          rw [hasJob_iff] at busy ⊢
          rw [← metaJob]
          exact .inr (busy.resolve_left fun nonempty => nonempty outside)
        rintro a b ⟨loopA, loopB, busyA, busyB, edge⟩
        exact ⟨old a loopA busyA, old b loopB busyB, edge⟩
    refine acyclic.within fun u busy => busy.mono all.chain fun v installed => ?_
    rwa [all.metaJob] at installed

theorem ordered_kept (E : Units U) : Kept E (Ordered E) fun e =>
    ∀ m generation, VerifyCall E e m generation -> ¬ HidesCycle E e m generation := by
  refine Kept.of_checked (fun _ ordered => ordered.1.wf) ?_ ?_ ?_ ?_ ?_
  · intro m j ordered mem
    refine ordered.fewer (ordered.1.jobFree j mem) fun u busy => ?_
    obtain ⟨gone, _, freed⟩ := ordered.1.wf.jobFree_installed mem
    have chain : ∀ v, (jobFree m j).chain v ⊆ m.chain v := by
      intro v k inChain
      rw [freed] at inChain
      exact ((m.mem_without_chain gone v k).mp inChain).1
    refine busy.mono chain fun v installed => ?_
    rw [freed] at installed
    by_cases same : v = (m.job j).unit
    · simp [same] at installed
    · simpa [Function.update_of_ne same] using installed
  · intro m m' ordered wf touch
    refine ordered.fewer ⟨wf, by simpa only [touch.chain] using ordered.1.single⟩ ?_
    intro u busy
    refine busy.mono (fun v => ?_) fun v installed => ?_
    · rw [touch.chain]
      exact List.Subset.refl _
    · rwa [touch.metaJob] at installed
  · intro m m' ordered wf quiet same
    refine ordered.fewer (quiet.settled wf) fun u busy => ?_
    refine busy.mono (fun v => ?_) fun v installed => ?_
    · rw [quiet.chain]
      exact nil_subset _
    · rwa [same] at installed
  · intro m request m1 m2 ret ordered seen accepted built check
    exact Ordered.check (e := ⟨m, request⟩) ordered seen accepted built check
  · intro m ordered
    have installed := installTransaction_spec ordered.1
    refine ordered.fewer (installed.quiet.settled installed.wf) fun u busy => ?_
    rw [hasJob_iff, installed.quiet.chain, installed.metaJob] at busy
    rw [hasJob_iff]
    cases chain : m.chain u with
    | nil => simpa [Manager.transactionGet, chain] using busy
    | cons => simp

-- A run in which no call of transaction_verify_order meets a cycle through a job that earlier
-- transactions have left with the very generation of this call and no marker.
theorem installed_order_acyclic (E : Units U) (w : World U) (run : Reachable E w) (seen : ∀ e ∈
      w.entered, ∀ m generation, VerifyCall E e m generation -> ¬ HidesCycle E e m generation) :
    Acyclic (Within (fun u => w.manager.metaJob u ≠ none) (OrderedBefore E)) := by
  have initial : ∀ m : Manager U, Initial m -> Ordered E m := by
    intro m start
    refine ⟨start.quiescent.settled start.wellFormed, fun u loop => ?_⟩
    obtain ⟨_, ⟨busy, _⟩, _⟩ := TransGen.head'_iff.mp loop
    rw [hasJob_iff, start.chain, start.metaJob] at busy
    simp at busy
  have ordered := ((ordered_kept E).reachable initial w run seen).1
  exact ordered.2.within fun u installed => (hasJob_iff _ u).mpr (.inr installed)

-- The first unit requires the second, and the two are ordered before each other. The third is
-- ordered before the second.
def orderTrap : Units (Fin 3) :=
  loadedUnits 3 fun kind u =>
    match kind with
    | .requires => if u = 0 then [1] else []
    | .before => if u = 0 then [1] else if u = 1 then [0] else [1]
    | .after => if u = 0 then [1] else if u = 1 then [0, 2] else []
    | _ => []

theorem orderTrap_acyclic {m : Manager (Fin 3)} (idle : ¬ HasJob m 0) :
    Acyclic (Within (HasJob m) (OrderedBefore orderTrap)) := by
  have down : ∀ a b : Fin 3, a ≠ 0 -> b ≠ 0 -> b ∈ orderTrap.dependencies .before a -> b < a := by
    decide
  have step : ∀ a b, Within (HasJob m) (OrderedBefore orderTrap) a b -> b < a := by
    rintro a b ⟨busyA, busyB, edge⟩
    refine down a b ?_ ?_ edge
    · rintro rfl
      exact idle busyA
    · rintro rfl
      exact idle busyB
  have falls : ∀ a b, TransGen (Within (HasJob m) (OrderedBefore orderTrap)) a b -> b < a := by
    intro a b path
    induction path with
    | single edge => exact step _ _ edge
    | tail _ edge ih => exact (step _ _ edge).trans ih
  exact fun v loop => lt_irrefl v (falls v v loop)

-- The search of the second request comes upon the job of the first, which has the generation of that search and
-- no marker, but the unit is on no cycle of units with jobs.
theorem installed_order_acyclic_twice :
    ∃ w, Reachable orderTrap w ∧ w.manager.metaJob 1 = some 1 ∧ w.manager.metaJob 2 = some 2 ∧
      (∃ e ∈ w.entered, 1 ∈ orderNodes e.manager ∧ Closed 2 (marksOf e.manager 1)) ∧
      Acyclic (Within (fun u => w.manager.metaJob u ≠ none) (OrderedBefore orderTrap)) := by
  obtain ⟨w, run, state⟩ := reachable_of_run orderTrap 0 5
    [.addJob ⟨.start, 1, .replace, false⟩, .addJob ⟨.start, 2, .replace, false⟩]
    (fun w => decide (w.manager.metaJob 1 = some 1 ∧ w.manager.metaJob 2 = some 2 ∧
      (∃ e ∈ w.entered, 1 ∈ orderNodes e.manager ∧ (e.manager.job 1).generation = 2 ∧
        (e.manager.job 1).marker = none) ∧
      ∀ e ∈ w.entered, e.manager.metaJob 0 = none ∧
        (buildTransaction orderTrap e.manager e.request).1.chain 0 = [])) (by decide +kernel)
  obtain ⟨first, second, stale, entries⟩ := of_decide_eq_true state
  refine ⟨w, run, first, second, stale, installed_order_acyclic orderTrap w run ?_⟩
  rintro e mem m generation call ⟨u, k, cycle, -⟩
  obtain ⟨noJob, noChain⟩ := entries e mem
  have idle : ¬ HasJob m 0 := by
    have wf := (run.settled.2 e mem).wf
    rw [hasJob_iff, call.chain_nil wf noChain, (call.frame wf).2, noJob]
    simp
  exact orderTrap_acyclic idle u cycle

-- Two units that are each ordered before the other.
def orderLoop : Units (Fin 2) :=
  loadedUnits 2 fun kind u =>
    if kind = .before ∨ kind = .after then (if u = 0 then [1] else [0]) else []

theorem order_loop_installed :
    (∀ a b, b ∈ orderLoop.dependencies .before a ↔ a ∈ orderLoop.dependencies .after b) ∧
    ∃ w, Reachable orderLoop w ∧
      ¬ Acyclic (Within (fun u => w.manager.metaJob u ≠ none) (OrderedBefore orderLoop)) := by
  refine ⟨by decide, ?_⟩
  obtain ⟨w, run, state⟩ := reachable_of_run orderLoop 0 5
    [.addJob ⟨.start, 1, .replace, false⟩, .addJob ⟨.start, 0, .replace, false⟩]
    (fun w => decide (w.manager.metaJob 0 = some 2 ∧ w.manager.metaJob 1 = some 1))
    (by decide +kernel)
  obtain ⟨first, second⟩ := of_decide_eq_true state
  have forth : Within (fun u => w.manager.metaJob u ≠ none) (OrderedBefore orderLoop) 0 1 :=
    ⟨by simp [first], by simp [second], (by decide : (1 : Fin 2) ∈ orderLoop.dependencies .before 0)⟩
  have back : Within (fun u => w.manager.metaJob u ≠ none) (OrderedBefore orderLoop) 1 0 :=
    ⟨by simp [second], by simp [first], (by decide : (0 : Fin 2) ∈ orderLoop.dependencies .before 1)⟩
  exact ⟨w, run, fun acyclic => acyclic 0 (.tail (.single forth) back)⟩

/-- The states requests are entered in: reachable ones, and the ones inside a run in which a request
is made by the handling of another event. -/
inductive EntryState (E : Units U) : Entry U -> Prop where
  | called (w : World U) (request : JobRequest U) : Reachable E w -> EntryState E ⟨w.manager, request⟩
  | nested (w : World U) (e : Entry U) : Reachable E w -> e ∈ w.entered -> EntryState E e

theorem EntryState.settled (entered : EntryState E e) : Settled e.manager := by
  cases entered with
  | called w request run => exact run.settled.1
  | nested w _ run mem => exact run.settled.2 e mem

-- What transaction_verify_order reports is there, unless an earlier transaction has left a job with
-- the very generation of this call and a marker.
theorem reported_cycle_exists (E : Units U) (e : Entry U) (entered : EntryState E e)
    (m m' : Manager U) (generation : Nat) (call : VerifyCall E e m generation)
    (settled : ∀ j ∈ orderNodes e.manager, ¬ Opened generation (marksOf e.manager j))
    (error : RequestError U) (failed : transactionVerifyOrder E m generation = (m', .error error)) :
    (error = .orderIsCyclic ∧ ∃ u, TransGen (Within (Unbreakable m) (OrderedBefore E)) u u) ∨
    (error = .again ∧ ∃ u marks, TransGen (Within (HasJob m) (OrderedBefore E)) u u ∧
      m' = transactionDeleteUnit (withMarks m marks) u) := by
  have wf := entered.settled.wf
  refine transactionVerifyOrder_cycle E (call.frame wf).1 generation ?_ error failed
  intro j mem opened
  obtain ⟨live, same⟩ := call.stale wf j mem opened.1
  exact settled j live (same ▸ opened)

def firstVerifyState (E : Units U) (e : Entry U) : Manager U :=
  collectUnlessIsolating e.request.mode (thinned e.request.mode
    (transactionFindJobsThatMatterToAnchor (buildTransaction E e.manager e.request).1 1))

theorem firstVerifyState_call (E : Units U) (e : Entry U) (accepted : requestRefusal E e.request = none)
    (built : (buildTransaction E e.manager e.request).2.toBool = true) :
    VerifyCall E e (firstVerifyState E e) 2 := by
  unfold firstVerifyState
  cases outcome : buildTransaction E e.manager e.request with
  | mk m1 result =>
    rw [outcome] at built
    cases result with
    | error => cases built
    | ok ret => exact ⟨m1, ret, accepted, outcome, .first⟩

def startLoop : Entry (Fin 3) := ⟨startupManager 0, ⟨.start, 0, .replace, false⟩⟩

theorem reported_cycle_exists_loop :
    ∃ u, TransGen (Within (Unbreakable (firstVerifyState orderTrap startLoop))
      (OrderedBefore orderTrap)) u u := by
  have entered : EntryState orderTrap startLoop :=
    .called ⟨startupManager 0, []⟩ _ (.initial _ (startupManager_initial 0))
  have fails : (transactionVerifyOrder orderTrap (firstVerifyState orderTrap startLoop) 2).2 =
      .error .orderIsCyclic := by decide
  rcases reported_cycle_exists orderTrap startLoop entered (firstVerifyState orderTrap startLoop) _ 2
      (firstVerifyState_call _ _ rfl (by decide)) (by simp [startLoop, startupManager, orderNodes,
        Manager.transactionList]) .orderIsCyclic (Prod.ext rfl fails) with
    ⟨_, cycle⟩ | ⟨impossible, _⟩
  · exact cycle
  · cases impossible

theorem false_cycle_reported :
    ∃ w, Reachable orderTrap w ∧ ∃ m, VerifyCall orderTrap ⟨w.manager, ⟨.start, 2, .replace, false⟩⟩ m 2 ∧
      (transactionVerifyOrder orderTrap m 2).2 = .error .orderIsCyclic ∧
      Acyclic (Within (HasJob m) (OrderedBefore orderTrap)) := by
  obtain ⟨w, run, state⟩ := reachable_of_run orderTrap 0 5
    [.addJob ⟨.start, 1, .replace, false⟩, .addJob ⟨.start, 0, .replace, false⟩]
    (fun w => let e : Entry (Fin 3) := ⟨w.manager, ⟨.start, 2, .replace, false⟩⟩
      decide ((buildTransaction orderTrap e.manager e.request).2.toBool = true ∧
        (transactionVerifyOrder orderTrap (firstVerifyState orderTrap e) 2).2 =
          .error .orderIsCyclic ∧
        (firstVerifyState orderTrap e).chain 0 = [] ∧
        (firstVerifyState orderTrap e).metaJob 0 = none))
    (by decide +kernel)
  obtain ⟨built, fails, noChain, noJob⟩ := of_decide_eq_true state
  refine ⟨w, run, _, firstVerifyState_call _ _ rfl built, fails, ?_⟩
  refine orderTrap_acyclic ?_
  rw [hasJob_iff, noChain, noJob]
  simp

end Systemd
