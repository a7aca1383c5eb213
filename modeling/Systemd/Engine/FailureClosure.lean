import Systemd.Engine.Resting

set_option autoImplicit false

namespace Systemd

open Loop List

variable {U : Type}

def DependsOn (E : Units U) (m : Manager U) (a k : JobId) : Prop :=
  m.metaJob (m.job k).unit = some k ∧ (m.job k).type.isStartLike = true ∧
    ((m.job k).unit ∈ E.dependencies .requiredBy (m.job a).unit ∨
      (m.job k).unit ∈ E.dependencies .boundBy (m.job a).unit ∨
      (m.job k).unit ∈ E.dependencies .requiredByOverridable (m.job a).unit ∧ (m.job k).override = false)

/-- The least set of jobs with `j` that contains with each job those that depend on it. -/
inductive FailsWithJob (E : Units U) (m : Manager U) (j : JobId) : JobId -> Prop where
  | ended : FailsWithJob E m j j
  | dependent (a k : JobId) : FailsWithJob E m j a -> DependsOn E m a k -> FailsWithJob E m j k

/-- From `m` to `m'` the jobs in `gone` have gone, and nothing else has changed about the installed jobs
but that some have been put in the run queue. -/
structure Loses (m m' : Manager U) (gone : JobId -> Prop) : Prop where
  jobs : ∀ k, k ∈ m'.jobs ↔ k ∈ m.jobs ∧ ¬gone k
  job : ∀ k ∈ m'.jobs, m'.job k = m.job k
  metaJob : ∀ u k, m'.metaJob u = some k ↔ m.metaJob u = some k ∧ ¬gone k
  activeState : m'.activeState = m.activeState
  queued : ∀ k ∈ m.runQueue, ¬gone k -> k ∈ m'.runQueue

namespace Loses

variable {m m' m'' : Manager U} {gone gone' : JobId -> Prop} {E : Units U}

theorem trans (first : Loses m m' gone) (second : Loses m' m'' gone') :
    Loses m m'' fun k => gone k ∨ gone' k where
  jobs := by
    intro k
    rw [second.jobs, first.jobs]
    tauto
  job := by
    intro k mem
    have before := ((second.jobs k).mp mem).1
    rw [second.job k mem, first.job k before]
  metaJob := by
    intro u k
    rw [second.metaJob, first.metaJob]
    tauto
  activeState := second.activeState.trans first.activeState
  queued := by
    intro k inQueue kept
    exact second.queued k (first.queued k inQueue fun lost => kept (.inl lost)) fun lost => kept (.inr lost)

theorem congr (loses : Loses m m' gone) (same : ∀ k, gone k ↔ gone' k) : Loses m m' gone' := by
  obtain rfl : gone = gone' := funext fun k => propext (same k)
  exact loses

theorem queue (loses : Loses m m' gone) {queue : List JobId} (kept : ∀ k ∈ m'.runQueue, k ∈ queue) :
    Loses m { m' with runQueue := queue } gone :=
  ⟨loses.jobs, loses.job, loses.metaJob, loses.activeState,
    fun k inQueue stays => kept k (loses.queued k inQueue stays)⟩

theorem free [DecidableEq U] (wf : WellFormed m) {j : JobId} (mem : j ∈ m.jobs) :
    Loses m (jobFree m j) fun k => k = j := by
  obtain ⟨gone, -, freed⟩ := wf.jobFree_installed mem
  rw [freed]
  constructor
  · intro k
    exact (wf.jobsNodup.mem_erase_iff).trans and_comm
  · intro k inJobs
    have other := ((wf.jobsNodup.mem_erase_iff).mp inJobs).1
    simp [Function.update_of_ne other]
  · intro u k
    by_cases same : u = (m.job j).unit
    · subst same
      simp [wf.jobMeta j mem, eq_comm]
    · simp only [Function.update_of_ne same]
      refine ⟨fun found => ⟨found, ?_⟩, And.left⟩
      rintro rfl
      exact same (wf.metaJobs u k found).2.symm
  · rfl
  · intro k inQueue other
    exact (wf.queueNodup.mem_erase_iff).mpr ⟨other, inQueue⟩

theorem dependsOn (loses : Loses m m' gone) (wf : WellFormed m) {a k : JobId} (mem : a ∈ m'.jobs) :
    DependsOn E m' a k ↔ DependsOn E m a k ∧ ¬gone k := by
  have same := loses.job a mem
  constructor
  · rintro ⟨found, depends⟩
    have inside := (loses.metaJob _ k).mp found
    have left : k ∈ m'.jobs := (loses.jobs k).mpr ⟨(wf.metaJobs _ k inside.1).1, inside.2⟩
    rw [loses.job k left] at inside depends
    rw [same] at depends
    exact ⟨⟨inside.1, depends⟩, inside.2⟩
  · rintro ⟨⟨found, depends⟩, stays⟩
    have left : k ∈ m'.jobs := (loses.jobs k).mpr ⟨(wf.metaJobs _ k found).1, stays⟩
    rw [DependsOn, loses.job k left, same]
    exact ⟨(loses.metaJob _ k).mpr ⟨found, stays⟩, depends⟩

theorem fewer (loses : Loses m m' gone) (wf : WellFormed m') {j : JobId} (mem : j ∈ m.jobs) (lost : gone j) :
    m'.jobs.length < m.jobs.length := by
  have distinct : (j :: m'.jobs).Nodup :=
    nodup_cons.mpr ⟨fun inside => ((loses.jobs j).mp inside).2 lost, wf.jobsNodup⟩
  have inside : (j :: m'.jobs) ⊆ m.jobs := by
    intro k listed
    rcases mem_cons.mp listed with rfl | listed
    · exact mem
    · exact ((loses.jobs k).mp listed).1
  exact (distinct.subperm inside).length_le

end Loses

/-- While the jobs that depend on `j` are being finished: the dependents of each job that is gone are gone
with it, as far as it is not `j` itself. -/
structure Failing (E : Units U) (m : Manager U) (j : JobId) (gone : JobId -> Prop) (m' : Manager U) : Prop where
  wf : WellFormed m'
  loses : Loses m m' gone
  root : gone j
  inside : ∀ k, gone k -> FailsWithJob E m j k
  closed : ∀ a k, gone a -> a ≠ j -> DependsOn E m a k -> gone k

theorem FailsWithJob.installed {E : Units U} {m : Manager U} {j k : JobId} (wf : WellFormed m)
    (mem : j ∈ m.jobs) (fails : FailsWithJob E m j k) : k ∈ m.jobs := by
  induction fails with
  | ended => exact mem
  | dependent a k _ depends _ => exact (wf.metaJobs _ k depends.1).1

namespace Failing

variable {E : Units U} {m m' m'' : Manager U} {j k : JobId} {gone : JobId -> Prop}

theorem step (failing : Failing E m j gone m') (wf : WellFormed m) (mem : k ∈ m'.jobs)
    (depends : DependsOn E m j k) (wf' : WellFormed m'') (loses : Loses m' m'' (FailsWithJob E m' k)) :
    Failing E m j (fun x => gone x ∨ FailsWithJob E m' k x) m'' where
  wf := wf'
  loses := failing.loses.trans loses
  root := .inl failing.root
  inside := by
    rintro x (old | new)
    · exact failing.inside x old
    · induction new with
      | ended => exact .dependent j k .ended depends
      | dependent a x fails near ih =>
        exact .dependent a x ih ((failing.loses.dependsOn wf (fails.installed failing.wf mem)).mp near).1
  closed := by
    rintro a x (old | new) other near
    · exact .inl (failing.closed a x old other near)
    · by_cases already : gone x
      · exact .inl already
      · have inside := new.installed failing.wf mem
        exact .inr (.dependent a x new ((failing.loses.dependsOn wf inside).mpr ⟨near, already⟩))

theorem least (failing : Failing E m j gone m') (all : ∀ k, DependsOn E m j k -> gone k) (k : JobId) :
    gone k ↔ FailsWithJob E m j k := by
  refine ⟨failing.inside k, fun fails => ?_⟩
  induction fails with
  | ended => exact failing.root
  | dependent a k _ depends ih =>
    by_cases same : a = j
    · exact all k (same ▸ depends)
    · exact failing.closed a k ih same depends

end Failing

def FinishLoses (E : Units U) (bound : Nat) (finish : FinishFunction U) : Prop :=
  ∀ w j result, WellFormed w.manager -> j ∈ w.manager.jobs -> (w.manager.job j).type.isStartLike = true ->
    result ≠ .done -> w.manager.jobs.length ≤ bound ->
      ∃ w', finish w j result = .ok w' ∧ w'.entered = w.entered ∧ WellFormed w'.manager ∧
        Loses w.manager w'.manager (FailsWithJob E w.manager j)

section

variable {E : Units U} {m : Manager U} {j : JobId} {finish : FinishFunction U} {bound : Nat}

theorem failEach_cons (finish : FinishFunction U) (fails : Job U -> Bool) (w : World U) (other : U) (rest : List U) :
    failEach finish fails w (other :: rest) = (do
      let w ← failEach finish fails w [other]
      failEach finish fails w rest) := by
  simp [failEach, foldlM_cons]

theorem failEach_loses (finishes : FinishLoses E bound finish) (wf : WellFormed m) (mem : j ∈ m.jobs)
    (few : m.jobs.length ≤ bound + 1) (fails : Job U -> Bool) (others : List U)
    (depend : ∀ other ∈ others, ∀ k, m.metaJob other = some k -> fails (m.job k) = true ->
      (m.job k).type.isStartLike = true -> DependsOn E m j k)
    {w : World U} {gone : JobId -> Prop} (failing : Failing E m j gone w.manager) :
    ∃ w' gone', failEach finish fails w others = .ok w' ∧ w'.entered = w.entered ∧
      Failing E m j gone' w'.manager ∧ (∀ k, gone k -> gone' k) ∧
      ∀ other ∈ others, ∀ k, m.metaJob other = some k -> fails (m.job k) = true ->
        (m.job k).type.isStartLike = true -> gone' k := by
  induction others generalizing w gone with
  | nil =>
    exact ⟨w, gone, rfl, rfl, failing, fun _ lost => lost, fun other inside => absurd inside not_mem_nil⟩
  | cons other rest ih =>
    have later (w1 : World U) (gone1 : JobId -> Prop) (failing1 : Failing E m j gone1 w1.manager)
        (grown : ∀ k, gone k -> gone1 k)
        (here : ∀ k, m.metaJob other = some k -> fails (m.job k) = true ->
          (m.job k).type.isStartLike = true -> gone1 k)
        (ran : failEach finish fails w [other] = .ok w1) (entered : w1.entered = w.entered) :
        ∃ w' gone', failEach finish fails w (other :: rest) = .ok w' ∧ w'.entered = w.entered ∧
          Failing E m j gone' w'.manager ∧ (∀ k, gone k -> gone' k) ∧
          ∀ other' ∈ other :: rest, ∀ k, m.metaJob other' = some k -> fails (m.job k) = true ->
            (m.job k).type.isStartLike = true -> gone' k := by
      obtain ⟨w', gone', ran', entered', failing', grown', all⟩ :=
        ih (fun other inside => depend other (mem_cons_of_mem _ inside)) failing1
      refine ⟨w', gone', ?_, entered'.trans entered, failing', fun k lost => grown' k (grown k lost), ?_⟩
      · rw [failEach_cons, ran]
        exact ran'
      · intro other' inside k found failed startLike
        rcases mem_cons.mp inside with rfl | inside
        · exact grown' k (here k found failed startLike)
        · exact all other' inside k found failed startLike
    cases found : w.manager.metaJob other with
    | none =>
      refine later w gone failing (fun _ lost => lost) (fun k before _ _ => ?_) (by simp [failEach, found]) rfl
      by_contra stays
      have left := (failing.loses.metaJob other k).mpr ⟨before, stays⟩
      rw [found] at left
      cases left
    | some k =>
      obtain ⟨before, stays⟩ := (failing.loses.metaJob other k).mp found
      have left : k ∈ w.manager.jobs := (failing.wf.metaJobs other k found).1
      have same := failing.loses.job k left
      by_cases failed : fails (w.manager.job k) = true ∧ (w.manager.job k).type.isStartLike = true
      · rw [same] at failed
        have depends := depend other mem_cons_self k before failed.1 failed.2
        have fewer := failing.loses.fewer failing.wf mem failing.root
        obtain ⟨w1, ran, entered, wf1, loses⟩ := finishes w k .dependency failing.wf left
          (by rw [same]; exact failed.2) (by simp) (by omega)
        refine later w1 _ (failing.step wf left depends wf1 loses) (fun _ lost => .inl lost) (fun k' before' _ _ => ?_)
          ?_ entered
        · obtain rfl : k = k' := Option.some.inj (before.symm.trans before')
          exact .inr .ended
        · simp [failEach, found, same, failed.1, failed.2, ran]
      · refine later w gone failing (fun _ lost => lost) (fun k' before' failed' startLike' => ?_) ?_ rfl
        · obtain rfl : k = k' := Option.some.inj (before.symm.trans before')
          exact absurd ⟨same ▸ failed', same ▸ startLike'⟩ failed
        · have stays : ¬(fails (w.manager.job k) && (w.manager.job k).type.isStartLike) = true := by
            simpa using failed
          rw [failEach, foldlM_cons]
          simp only [found]
          rw [if_neg stays]
          rfl

theorem failDependents_loses (finishes : FinishLoses E bound finish) (wf : WellFormed m) (mem : j ∈ m.jobs)
    (few : m.jobs.length ≤ bound + 1) (startLike : (m.job j).type.isStartLike = true)
    {w : World U} (failing : Failing E m j (fun k => k = j) w.manager) :
    ∃ w', failDependents E finish w (m.job j).unit (m.job j).type = .ok w' ∧ w'.entered = w.entered ∧
      WellFormed w'.manager ∧ Loses m w'.manager (FailsWithJob E m j) := by
  have loop (kind : UnitDependency) (fails : Job U -> Bool)
      (depend : ∀ k, (m.job k).unit ∈ E.dependencies kind (m.job j).unit -> fails (m.job k) = true ->
        m.metaJob (m.job k).unit = some k -> (m.job k).type.isStartLike = true -> DependsOn E m j k)
      {w : World U} {gone : JobId -> Prop} (failing : Failing E m j gone w.manager) :
      ∃ w' gone', failEach finish fails w (E.dependencies kind (m.job j).unit) = .ok w' ∧
        w'.entered = w.entered ∧ Failing E m j gone' w'.manager ∧ (∀ k, gone k -> gone' k) ∧
        ∀ k, (m.job k).unit ∈ E.dependencies kind (m.job j).unit -> fails (m.job k) = true ->
          m.metaJob (m.job k).unit = some k -> (m.job k).type.isStartLike = true -> gone' k := by
    obtain ⟨w', gone', ran, entered, failing', grown, all⟩ := failEach_loses finishes wf mem few fails
      (E.dependencies kind (m.job j).unit) (fun other inside k found failed starts => by
        obtain rfl := (wf.metaJobs other k found).2
        exact depend k inside failed found starts) failing
    exact ⟨w', gone', ran, entered, failing', grown,
      fun k inside failed found starts => all _ inside k found failed starts⟩
  obtain ⟨w1, gone1, ran1, entered1, failing1, -, all1⟩ := loop .requiredBy (fun _ => true)
    (fun k inside _ found starts => ⟨found, starts, .inl inside⟩) failing
  obtain ⟨w2, gone2, ran2, entered2, failing2, grown2, all2⟩ := loop .boundBy (fun _ => true)
    (fun k inside _ found starts => ⟨found, starts, .inr (.inl inside)⟩) failing1
  obtain ⟨w3, gone3, ran3, entered3, failing3, grown3, all3⟩ := loop .requiredByOverridable
    (fun job => !job.override)
    (fun k inside failed found starts => ⟨found, starts, .inr (.inr ⟨inside, by simpa using failed⟩)⟩) failing2
  have all (k : JobId) (depends : DependsOn E m j k) : gone3 k := by
    obtain ⟨found, starts, requires | binds | overridable⟩ := depends
    · exact grown3 k (grown2 k (all1 k requires rfl found starts))
    · exact grown3 k (all2 k binds rfl found starts)
    · exact all3 k overridable.1 (by simp [overridable.2]) found starts
  refine ⟨w3, ?_, (entered3.trans entered2).trans entered1, failing3.wf, failing3.loses.congr (failing3.least all)⟩
  rw [failDependents, if_pos startLike, ran1]
  change (do
    let w ← failEach finish (fun _ => true) w1 (E.dependencies .boundBy (m.job j).unit)
    failEach finish (fun job => !job.override) w (E.dependencies .requiredByOverridable (m.job j).unit)) = _
  rw [ran2]
  exact ran3

end

section

variable [DecidableEq U] [Fintype U] {E : Units U}

-- Induction on the fuel: each job that is finished is freed before those that depend on it.
theorem finish_loses (noFailure : ∀ u, E.dependencies .onFailure u = []) (fuel : Nat) :
    FinishLoses E fuel (jobFinishAndInvalidate E fuel) := by
  induction fuel with
  | zero =>
    intro w j result wf mem _ _ few
    have none := eq_nil_of_length_eq_zero (Nat.le_zero.mp few)
    rw [none] at mem
    cases mem
  | succ fuel ih =>
    intro w j result wf mem startLike failed few
    have freed := wf.jobFree j mem
    have start : Failing E w.manager j (fun k => k = j) (jobFree w.manager j) :=
      ⟨freed, .free wf mem, rfl, fun _ same => same ▸ .ended, fun _ _ same other => absurd same other⟩
    obtain ⟨w1, ran, entered, wf1, loses⟩ := failDependents_loses (w := w.set (jobFree w.manager j)) ih wf mem
      few startLike start
    have nobody (w : World U) (u : U) : unitTriggerOnFailure E (managerAddJob E fuel) w u = .ok w := by
      rw [unitTriggerOnFailure, noFailure]
      rfl
    refine ⟨w1.set (wakeNeighbours E w1.manager (w.manager.job j).unit), ?_, entered, ?_, ?_⟩
    · rw [jobFinishAndInvalidate, finishBody]
      simp only [failed, false_and, if_false, ne_eq, not_false_eq_true, if_true, nobody, ite_self]
      rw [ran]
      rfl
    · exact (wakeNeighbours_touch wf1 E _).1
    · obtain ⟨queue, woken⟩ := wakeNeighbours_frame E w1.manager (w.manager.job j).unit
      have kept (k : JobId) (inQueue : k ∈ w1.manager.runQueue) : k ∈ queue := by
        have still := (mem_wakeNeighbours E w1.manager (w.manager.job j).unit k).mpr (.inl inQueue)
        rwa [woken] at still
      rw [World.set, woken]
      exact loses.queue kept

/-- A start job that fails takes with it the jobs that depend on it, those that depend on these, and no
others. -/
theorem failure_removes_closure (noFailure : ∀ u, E.dependencies .onFailure u = []) {w : World U}
    (wf : WellFormed w.manager) {j : JobId} (mem : j ∈ w.manager.jobs)
    (startLike : (w.manager.job j).type.isStartLike = true) {result : JobResult} (failed : result ≠ .done)
    {fuel : Nat} (enough : w.manager.jobs.length ≤ fuel) :
    ∃ w', jobFinishAndInvalidate E fuel w j result = .ok w' ∧ w'.entered = w.entered ∧
      WellFormed w'.manager ∧ Loses w.manager w'.manager (FailsWithJob E w.manager j) :=
  finish_loses noFailure fuel w j result wf mem startLike failed enough

end

def requiringPair : Units (Fin 2) :=
  loadedUnits 2 fun kind u =>
    match kind with
    | .requires | .requiredBy => if u = 0 then [1] else [0]
    | _ => []

theorem failure_removes_closure_pair :
    ∃ w w' j, w.manager.jobs.length = 2 ∧ jobFinishAndInvalidate requiringPair 2 w j .failed = .ok w' ∧
      Loses w.manager w'.manager (FailsWithJob requiringPair w.manager j) := by
  obtain ⟨w, run, facts⟩ := reachable_of_run requiringPair 0 9
    [.addJob { type := .start, unit := 0, mode := .replace, override := false }]
    (fun w => decide (w.manager.jobs.length = 2 ∧ 1 ∈ w.manager.jobs ∧ (w.manager.job 1).type.isStartLike = true))
    (by decide)
  obtain ⟨both, mem, startLike⟩ := of_decide_eq_true facts
  obtain ⟨refused, reached⟩ := run.withRefusals
  obtain ⟨w', ran, -, -, loses⟩ := failure_removes_closure (E := requiringPair) (fun u => rfl) reached.resting.wf
    mem startLike (by decide : JobResult.failed ≠ .done) (Nat.le_of_eq both)
  exact ⟨w, w', 1, both, ran, loses⟩

end Systemd
