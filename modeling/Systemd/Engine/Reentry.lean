import Systemd.Engine.Runs

set_option autoImplicit false

namespace Systemd

open Loop Relation List Function

variable {U : Type}

def Propagates (E : Units U) (m : Manager U) (a b : U) : Prop :=
  ∃ j k, m.metaJob a = some j ∧ m.metaJob b = some k ∧ (m.job k).type.isStartLike = true ∧
    ((m.job j).type.isStartLike = true ∧
        (b ∈ E.dependencies .requiredBy a ∨ b ∈ E.dependencies .boundBy a ∨
          b ∈ E.dependencies .requiredByOverridable a ∧ (m.job k).override = false) ∨
      (m.job j).type = .stop ∧ b ∈ E.dependencies .conflictedBy a)

/-- The units whose installed job may end while transaction_apply, called in the state `m`, cancels the
jobs outside the transaction. A freed job that is itself in the transaction takes the jobs that
need it out of it. -/
inductive Doomed (E : Units U) (m : Manager U) : U -> Prop where
  | outside (u : U) (j : JobId) : m.metaJob u = some j -> m.transactionGet u = none -> Doomed E m u
  | failed (a b : U) : Doomed E m a -> Propagates E m a b -> Doomed E m b
  | evicted (a b : U) (k d : JobId) : Doomed E m a -> m.metaJob a = some k ->
      k ∈ m.chain a -> d ∈ m.chain b -> TransGen (Needs m) d k -> Doomed E m b

def Evicted (E : Units U) (m : Manager U) (u : U) : Prop :=
  ∃ a k d, Doomed E m a ∧ m.metaJob a = some k ∧ k ∈ m.chain a ∧
    d ∈ m.chain u ∧ ReflTransGen (Needs m) d k

variable {m : Manager U} {E : Units U} {finish : FinishFunction U}

theorem Evicted.doomed (wf : WellFormed m) {u : U} (evicted : Evicted E m u) : Doomed E m u := by
  obtain ⟨a, k, d, doomed, found, inA, inU, path⟩ := evicted
  rcases reflTransGen_iff_eq_or_transGen.mp path with rfl | path
  · exact (wf.chainUnit a k inA).symm.trans (wf.chainUnit u k inU) ▸ doomed
  · exact .evicted a u k d doomed found inA inU path

structure Cancelling (E : Units U) (m m' : Manager U) : Prop where
  start : WellFormed m
  settled : Settled m'
  activeState : m'.activeState = m.activeState
  job : ∀ k, m'.job k = { m.job k with installed := (m'.job k).installed }
  metaJob : ∀ u, m'.metaJob u = m.metaJob u ∨ m'.metaJob u = none ∧ Doomed E m u
  chain : ∀ u, m'.chain u = m.chain u ∨
    m'.chain u = [] ∧ Evicted E m u
  links : ∀ link ∈ m'.links, link ∈ m.links

namespace Cancelling

variable {E : Units U} {m m' : Manager U}

theorem refl (settled : Settled m) : Cancelling E m m where
  start := settled.wf
  settled := settled
  activeState := rfl
  job := fun _ => rfl
  metaJob := fun _ => .inl rfl
  chain := fun _ => .inl rfl
  links := fun _ h => h

section

variable (cancelling : Cancelling E m m')
include cancelling

theorem metaJob_some {u : U} {j : JobId} (found : m'.metaJob u = some j) : m.metaJob u = some j := by
  rcases cancelling.metaJob u with same | ⟨freed, _⟩
  · exact same ▸ found
  · rw [freed] at found
    cases found

theorem propagates {a b : U} {j k : JobId} (foundA : m.metaJob a = some j)
    (foundB : m'.metaJob b = some k) (startLike : (m'.job k).type.isStartLike = true) (reason : (m.job
      j).type.isStartLike = true ∧ (b ∈ E.dependencies .requiredBy a ∨ b ∈ E.dependencies .boundBy a ∨ b
      ∈ E.dependencies .requiredByOverridable a ∧ (m'.job k).override = false) ∨ (m.job j).type = .stop
      ∧ b ∈ E.dependencies .conflictedBy a) : Propagates E m a b := by
  rw [cancelling.job k] at startLike reason
  exact ⟨j, k, foundA, cancelling.metaJob_some foundB, startLike, reason⟩

theorem queue (queue : List JobId) (wf : WellFormed { m' with runQueue := queue }) :
    Cancelling E m { m' with runQueue := queue } :=
  { cancelling with settled := ⟨wf, cancelling.settled.single⟩ }

end

section

variable [DecidableEq U]

theorem jobFree (cancelling : Cancelling E m m') (j : JobId) (mem : j ∈ m'.jobs)
    (doomed : Doomed E m (m'.job j).unit) : Cancelling E m (jobFree m' j) := by
  have wf := cancelling.settled.wf
  obtain ⟨gone, cascade, freed⟩ := wf.jobFree_installed mem
  have found := cancelling.metaJob_some (wf.jobMeta j mem)
  have subset : ∀ u, m'.chain u ⊆ m.chain u := by
    intro u d inChain
    rcases cancelling.chain u with same | ⟨empty, _⟩
    · rwa [← same]
    · simp [empty] at inChain
  -- Only a job of the transaction has links, so nothing goes with one that is outside.
  have lost : ∀ u d, d ∈ m'.chain u -> d ∈ gone -> Evicted E m u := by
    intro u d inChain inGone
    rcases cascade.reach d inGone with rfl | path
    · have unit := wf.chainUnit u d inChain
      rw [unit] at doomed found
      exact ⟨u, d, d, doomed, found, subset u inChain, subset u inChain, .refl⟩
    · obtain ⟨_, _, link, inLinks, _, _, rfl⟩ := TransGen.tail'_iff.mp path
      have inside := wf.inTransaction_chain (wf.linkObject link inLinks)
      exact ⟨_, link.object, d, doomed, found, subset _ inside, subset u inChain,
        (Needs.mono cancelling.links path).to_reflTransGen⟩
  refine ⟨cancelling.start, cancelling.settled.jobFree j mem, ?_, ?_, ?_, ?_, ?_⟩
  · rw [freed]
    exact cancelling.activeState
  · intro k
    rw [freed]
    by_cases same : k = j
    · subst same
      simp only [update_self]
      rw [cancelling.job k]
    · simp only [update_of_ne same]
      rw [cancelling.job k]
  · intro u
    rw [freed]
    by_cases same : u = (m'.job j).unit
    · exact .inr ⟨by simp [same], same ▸ doomed⟩
    · simpa [update_of_ne same] using cancelling.metaJob u
  · intro u
    rw [freed]
    rcases cancelling.chain u with same | ⟨empty, evicted⟩
    · cases chain : m'.chain u with
      | nil => exact .inl (by simp [Manager.without, chain, ← same])
      | cons d rest =>
        have single := cancelling.settled.single u d (by simp [chain])
        by_cases inGone : d ∈ gone
        · exact .inr ⟨by simp [Manager.without, single, inGone], lost u d (by simp [chain]) inGone⟩
        · exact .inl (by simp [Manager.without, single, inGone, ← same])
    · exact .inr ⟨by simp [Manager.without, empty], evicted⟩
  · intro link inLinks
    rw [freed] at inLinks
    exact cancelling.links link ((m'.mem_without_links gone link).mp inLinks).1

end

end Cancelling

theorem Cancelling.wakeNeighbours {m' : Manager U} (cancelling : Cancelling E m m') (u : U) :
    Cancelling E m (wakeNeighbours E m' u) := by
  obtain ⟨queue, woken⟩ := wakeNeighbours_frame E m' u
  have wf := (wakeNeighbours_touch cancelling.settled.wf E u).1
  rw [woken] at wf ⊢
  exact cancelling.queue queue wf

def Harmless (E : Units U) (m : Manager U) : Prop :=
  ∀ a b, Doomed E m a -> Propagates E m a b -> E.dependencies .onFailure b = []

def Quiet (E : Units U) (m : Manager U) (w w' : World U) : Prop :=
  Cancelling E m w.manager -> Cancelling E m w'.manager ∧ w'.entered = w.entered ∧
    w'.manager.jobs.Sublist w.manager.jobs

namespace Quiet

variable {E : Units U} {m : Manager U} {w w' w'' : World U}

theorem refl (w : World U) : Quiet E m w w := fun cancelling => ⟨cancelling, rfl, .refl _⟩

theorem trans (first : Quiet E m w w') (second : Quiet E m w' w'') : Quiet E m w w'' := by
  intro cancelling
  obtain ⟨cancelling', entered, fewer⟩ := first cancelling
  obtain ⟨cancelling'', entered', fewer'⟩ := second cancelling'
  exact ⟨cancelling'', entered'.trans entered, fewer'.trans fewer⟩

end Quiet

def FinishQuiet (E : Units U) (m : Manager U) (finish : FinishFunction U) : Prop :=
  ∀ w j result w', finish w j result = .ok w' -> j ∈ w.manager.jobs ->
    Doomed E m (w.manager.job j).unit ->
    result = .canceled ∨
      result = .dependency ∧ E.dependencies .onFailure (w.manager.job j).unit = [] ->
    Quiet E m w w' ∧ (Cancelling E m w.manager -> j ∉ w'.manager.jobs)

theorem failEach_quiet (quiet : FinishQuiet E m finish) (harmless : Harmless E m) (fails : Job U -> Bool)
    (others : List U) (a : U) (doomed : Doomed E m a) (reached : ∀ m' b k, Cancelling E m m' -> b ∈
      others -> m'.metaJob b = some k -> fails (m'.job k) = true -> (m'.job k).type.isStartLike = true ->
      Propagates E m a b) (w w' : World U) (ran : failEach finish fails w others = .ok w') :
    Quiet E m w w' := by
  induction others generalizing w with
  | nil => exact Except.ok.inj ran ▸ .refl w
  | cons b rest ih =>
    rw [failEach, foldlM_cons] at ran
    obtain ⟨w1, step, later⟩ := bind_ok ran
    refine Quiet.trans ?_ (ih (fun m' b k cancelling mem => reached m' b k cancelling
      (mem_cons_of_mem _ mem)) w1 later)
    cases found : w.manager.metaJob b with
    | none =>
      simp only [found] at step
      exact Except.ok.inj step ▸ .refl w
    | some k =>
      simp only [found] at step
      split at step
      · rename_i failing
        obtain ⟨chosen, startLike⟩ := (Bool.and_eq_true _ _).mp failing
        intro cancelling
        obtain ⟨mem, unit⟩ := cancelling.settled.wf.metaJobs b k found
        have edge := reached w.manager b k cancelling (by simp) found chosen startLike
        exact (quiet w k .dependency w1 step mem (unit ▸ .failed a b doomed edge)
          (.inr ⟨rfl, unit ▸ harmless a b doomed edge⟩)).1 cancelling
      · exact Except.ok.inj step ▸ .refl w

theorem failDependents_quiet (quiet : FinishQuiet E m finish) (harmless : Harmless E m) (a : U)
    (j : JobId) (doomed : Doomed E m a) (found : m.metaJob a = some j) (w w' : World U)
    (ran : failDependents E finish w a (m.job j).type = .ok w') : Quiet E m w w' := by
  unfold failDependents at ran
  split at ran
  · rename_i startLike
    obtain ⟨w1, first, ran⟩ := bind_ok ran
    obtain ⟨w2, second, third⟩ := bind_ok ran
    have required : Quiet E m w w1 := by
      refine failEach_quiet quiet harmless _ _ a doomed ?_ w w1 first
      intro m' b k cancelling mem foundB _ startLikeB
      exact cancelling.propagates found foundB startLikeB (.inl ⟨startLike, .inl mem⟩)
    have bound : Quiet E m w1 w2 := by
      refine failEach_quiet quiet harmless _ _ a doomed ?_ w1 w2 second
      intro m' b k cancelling mem foundB _ startLikeB
      exact cancelling.propagates found foundB startLikeB (.inl ⟨startLike, .inr (.inl mem)⟩)
    have overridable : Quiet E m w2 w' := by
      refine failEach_quiet quiet harmless _ _ a doomed ?_ w2 w' third
      intro m' b k cancelling mem foundB chosen startLikeB
      exact cancelling.propagates found foundB startLikeB
        (.inl ⟨startLike, .inr (.inr ⟨mem, by simpa using chosen⟩)⟩)
    exact (required.trans bound).trans overridable
  · split at ran
    · rename_i stop
      refine failEach_quiet quiet harmless _ _ a doomed ?_ w w' ran
      intro m' b k cancelling mem foundB _ startLikeB
      exact cancelling.propagates found foundB startLikeB (.inr ⟨stop, mem⟩)
    · exact Except.ok.inj ran ▸ .refl w

variable [DecidableEq U]

theorem finishBody_quiet (add : AddJobFunction U) (quiet : FinishQuiet E m finish)
    (harmless : Harmless E m) : FinishQuiet E m (finishBody E finish add) := by
  intro w j result w' ran mem doomed calm
  have notDone : result ≠ .done := by
    rintro rfl
    simp at calm
  cases finishBody_cases ran with
  | restarted done => exact absurd done notDone
  | freed w1 w2 failed triggered =>
    have all : Cancelling E m w.manager -> Cancelling E m w1.manager ∧ w1.entered = w.entered ∧
        w1.manager.jobs.Sublist (jobFree w.manager j).jobs := by
      intro cancelling
      have found := cancelling.metaJob_some (cancelling.settled.wf.jobMeta j mem)
      have sameType : (w.manager.job j).type = (m.job j).type := by rw [cancelling.job j]
      rw [if_pos notDone, sameType] at failed
      exact failDependents_quiet quiet harmless _ j doomed found _ w1 failed
        (cancelling.jobFree j mem doomed)
    have untriggered : w2 = w1 := by
      split at triggered
      · rename_i triggers
        have none : E.dependencies .onFailure (w.manager.job j).unit = [] := by
          rcases calm with rfl | ⟨_, none⟩
          · simp at triggers
          · exact none
        simp only [unitTriggerOnFailure, none, foldlM_nil] at triggered
        exact (Except.ok.inj triggered).symm
      · exact (Except.ok.inj triggered).symm
    subst untriggered
    obtain ⟨queue, woken⟩ := wakeNeighbours_frame E w2.manager (w.manager.job j).unit
    have sameJobs : (wakeNeighbours E w2.manager (w.manager.job j).unit).jobs = w2.manager.jobs := by
      rw [woken]
    have freed : WellFormed w.manager -> (jobFree w.manager j).jobs = w.manager.jobs.erase j := by
      intro wf
      obtain ⟨gone, _, freed⟩ := wf.jobFree_installed mem
      rw [freed]
    constructor
    · intro cancelling
      obtain ⟨cancelling2, entered2, fewer⟩ := all cancelling
      rw [freed cancelling.settled.wf] at fewer
      refine ⟨cancelling2.wakeNeighbours _, entered2, ?_⟩
      exact sameJobs ▸ fewer.trans erase_sublist
    · intro cancelling inJobs
      obtain ⟨_, _, fewer⟩ := all cancelling
      rw [freed cancelling.settled.wf] at fewer
      have inErased := fewer.subset (sameJobs ▸ inJobs)
      exact ((cancelling.settled.wf.jobsNodup.mem_erase_iff).mp inErased).1 rfl

omit [DecidableEq U] in
theorem cancelOthers_quiet (quiet : FinishQuiet E m finish) (fuel : Nat) (w w' : World U)
    (j : Option JobId) (ran : cancelOthers finish fuel w j = .ok w') : Quiet E m w w' := by
  induction fuel generalizing w j with
  | zero =>
    cases j with
    | none => exact Except.ok.inj ran ▸ .refl w
    | some j => cases ran
  | succ fuel ih =>
    cases j with
    | none => exact Except.ok.inj ran ▸ .refl w
    | some j =>
      rw [cancelOthers] at ran
      by_cases mem : j ∈ w.manager.jobs
      · simp only [mem, if_true] at ran
        by_cases outside : w.manager.transactionGet (w.manager.job j).unit = none
        · simp only [outside, if_true] at ran
          obtain ⟨w1, finished, rest⟩ := bind_ok ran
          refine Quiet.trans (fun cancelling => ?_) (ih w1 _ rest)
          have found := cancelling.metaJob_some (cancelling.settled.wf.jobMeta j mem)
          have doomed : Doomed E m (w.manager.job j).unit := by
            rcases cancelling.chain (w.manager.job j).unit with same | ⟨_, evicted⟩
            · refine .outside _ j found ?_
              simpa only [Manager.transactionGet, same] using outside
            · exact evicted.doomed cancelling.start
          exact (quiet w j .canceled w1 finished mem doomed (.inl rfl)).1 cancelling
        · simp only [outside, if_false] at ran
          exact ih w _ ran
      · simp only [mem, if_false] at ran
        cases ran

variable [Fintype U]

theorem jobFinishAndInvalidate_quiet (harmless : Harmless E m) (fuel : Nat) :
    FinishQuiet E m (jobFinishAndInvalidate E fuel) := by
  induction fuel with
  | zero =>
    intro w j result w' ran
    rw [jobFinishAndInvalidate] at ran
    cases ran
  | succ fuel ih =>
    rw [jobFinishAndInvalidate]
    exact finishBody_quiet _ ih harmless

def ApplyCall (E : Units U) (e : Entry U) (m : Manager U) : Prop :=
  ∃ m1 ret, requestRefusal E e.request = none ∧
    buildTransaction E e.manager e.request = (m1, .ok ret) ∧
    transactionCheck E e.request.mode m1 = (m, .ok ())

theorem ApplyCall.settled {e : Entry U} (wf : WellFormed e.manager) (call : ApplyCall E e m) :
    Settled m := by
  obtain ⟨m1, ret, _, built, check⟩ := call
  exact transactionCheck_settled (buildTransaction_spec wf built).1.wf check

omit [Fintype U] in
theorem Quiescent.jobFree (wf : WellFormed m) (quiet : Quiescent m) (j : JobId) (mem : j ∈ m.jobs) :
    Quiescent (jobFree m j) := by
  obtain ⟨gone, _, freed⟩ := wf.jobFree_installed mem
  rw [freed]
  refine ⟨?_, fun u => ?_, ?_⟩
  · simp [Manager.without, quiet.transactionUnits]
  · simp [Manager.without, quiet.chain]
  · simp [Manager.without, quiet.links]

theorem quiescent_kept (E : Units U) :
    Kept E (fun m => WellFormed m ∧ Quiescent m) fun e =>
      e.request.mode = .isolate -> ∀ m, ApplyCall E e m -> Harmless E m where
  wf := fun _ holds => holds.1
  free := fun _ j holds mem => ⟨holds.1.jobFree j mem, holds.2.jobFree holds.1 j mem⟩
  touch := by
    intro m m' holds wf touch
    refine ⟨wf, touch.transactionUnits.trans holds.2.transactionUnits, fun u => ?_,
      touch.links.trans holds.2.links⟩
    rw [touch.chain]
    exact holds.2.chain u
  clear := fun _ _ _ wf quiet _ => ⟨wf, quiet⟩
  apply := by
    intro fuel finishKeeps w w' request m1 m2 ret accepted built check applied
    obtain ⟨w1, rfl, rest⟩ := transactionApply_cases applied
    have call : ApplyCall E ⟨w.manager, request⟩ m2 := ⟨m1, ret, accepted, built, check⟩
    have installs : ∀ m : Manager U, Settled m -> WellFormed (installTransaction m) ∧
        Quiescent (installTransaction m) := fun m settled =>
      ⟨(installTransaction_spec settled).wf, (installTransaction_spec settled).quiet⟩
    rcases rest with ⟨isolate, cancelled⟩ | ⟨_, rfl⟩
    · obtain ⟨new, entered, _⟩ := (Steps.route _ _).cancelOthers
        (finishKeeps.finishes fun _ holds => holds.1) cancelled
      refine ⟨new, by simp [World.set, World.enter, entered], fun holds safe _ => ?_⟩
      have quiet := cancelOthers_quiet (jobFinishAndInvalidate_quiet (safe isolate m2 call) fuel) fuel
        _ w1 _ cancelled
      obtain ⟨cancelling, same, _⟩ := quiet (.refl (call.settled holds.1))
      have none : new = [] := by
        rw [entered] at same
        simpa using same
      exact ⟨installs _ cancelling.settled, by simp [none]⟩
    · exact ⟨[], by simp [World.set, World.enter],
        fun holds _ _ => ⟨installs _ (call.settled holds.1), by simp⟩⟩

theorem transactions_not_reentered (E : Units U) (w : World U) (run : Reachable E w)
    (safe : ∀ e ∈ w.entered, e.request.mode = .isolate -> ∀ m, ApplyCall E e m -> Harmless E m) :
    ∀ e ∈ w.entered, e.manager.transactionUnits = [] ∧ (∀ u, e.manager.chain u = []) ∧
      e.manager.transactionAnchor = [] := by
  intro e mem
  have quiet := (((quiescent_kept E).reachable
    (fun _ initial => ⟨initial.wellFormed, initial.quiescent⟩) w run safe).2 e mem).2
  exact ⟨quiet.transactionUnits, quiet.chain, by
    simp [Manager.transactionAnchor, quiet.links]⟩

-- The unit 1 requires the unit 2, and isolating the unit 0 cancels the jobs of both.
def isolateTrap (onFailure : List (Fin 5)) : Units (Fin 5) :=
  { loadedUnits 5 (fun kind u =>
      match kind with
      | .requires => if u = 1 then [2] else []
      | .requiredBy => if u = 2 then [1] else []
      | .onFailure => if u = 1 then onFailure else []
      | _ => []) with
    ignoreOnIsolate := fun u => u = 1 ∨ u = 2 ∨ u = 4 }

def isolateTrapRun : List (Action (Fin 5)) :=
  [.addJob ⟨.start, 2, .replace, false⟩, .addJob ⟨.start, 4, .replace, false⟩,
    .addJob ⟨.start, 1, .replace, false⟩, .addJob ⟨.start, 0, .isolate, false⟩]

theorem transactions_not_reentered_cancelled :
    ∃ w, Reachable (isolateTrap []) w ∧ w.entered.length = 4 ∧ w.manager.metaJob 1 = none ∧
      ∀ e ∈ w.entered, e.manager.transactionUnits = [] := by
  obtain ⟨w, run, state⟩ := reachable_of_run (isolateTrap []) 0 10 isolateTrapRun
    (fun w => decide (w.entered.length = 4 ∧ w.manager.metaJob 1 = none)) (by decide +kernel)
  obtain ⟨entries, cancelled⟩ := of_decide_eq_true state
  have noUnits : ∀ u, (isolateTrap []).dependencies .onFailure u = [] := by decide
  have quiet := transactions_not_reentered (isolateTrap []) w run
    fun e _ _ m _ a b _ _ => noUnits b
  exact ⟨w, run, entries, cancelled, fun e mem => (quiet e mem).1⟩

-- The job of the unit 2 is cancelled, that of the unit 1 fails with it, and the unit 3 is started
-- for that while the start job of the unit 0 is still in the transaction.
theorem transaction_reentered :
    ∃ w, Reachable (isolateTrap [3]) w ∧
      ∃ e ∈ w.entered, e.request.unit = 3 ∧ e.manager.transactionUnits = [0] ∧
        e.manager.transactionAnchor ≠ [] := by
  obtain ⟨w, run, state⟩ := reachable_of_run (isolateTrap [3]) 0 10 isolateTrapRun
    (fun w => decide (∃ e ∈ w.entered, e.request.unit = 3 ∧ e.manager.transactionUnits = [0] ∧
      e.manager.transactionAnchor ≠ [])) (by decide +kernel)
  exact ⟨w, run, of_decide_eq_true state⟩

end Systemd
