import Systemd.Engine.Routes

set_option autoImplicit false

namespace Systemd

open Loop List

variable {U : Type}

/-- What the engine changes without touching the tables: the run queue, unit states, and the type and
state of jobs. -/
structure Touch (m m' : Manager U) : Prop where
  jobs : m'.jobs = m.jobs
  metaJob : m'.metaJob = m.metaJob
  transactionUnits : m'.transactionUnits = m.transactionUnits
  chain : m'.chain = m.chain
  links : m'.links = m.links
  job : ∀ j, (m'.job j).unit = (m.job j).unit ∧ (m'.job j).installed = (m.job j).installed ∧
    (m'.job j).generation = (m.job j).generation ∧ (m'.job j).marker = (m.job j).marker

theorem Touch.refl (m : Manager U) : Touch m m :=
  ⟨rfl, rfl, rfl, rfl, rfl, fun _ => ⟨rfl, rfl, rfl, rfl⟩⟩

variable {m : Manager U}

theorem Touch.trans {m' m'' : Manager U} (first : Touch m m') (second : Touch m' m'') :
    Touch m m'' where
  jobs := second.jobs.trans first.jobs
  metaJob := second.metaJob.trans first.metaJob
  transactionUnits := second.transactionUnits.trans first.transactionUnits
  chain := second.chain.trans first.chain
  links := second.links.trans first.links
  job := by
    intro j
    obtain ⟨unit, installed, generation, marker⟩ := first.job j
    obtain ⟨unit', installed', generation', marker'⟩ := second.job j
    exact ⟨unit'.trans unit, installed'.trans installed, generation'.trans generation,
      marker'.trans marker⟩

theorem jobAddToRunQueue_touch (m : Manager U) (j : JobId) : Touch m (jobAddToRunQueue m j) := by
  unfold jobAddToRunQueue
  split
  · exact .refl m
  · exact ⟨rfl, rfl, rfl, rfl, rfl, fun _ => ⟨rfl, rfl, rfl, rfl⟩⟩

section

variable (wf : WellFormed m)
include wf

theorem WellFormed.jobAddToRunQueue (j : JobId) (mem : j ∈ m.jobs) :
    WellFormed (jobAddToRunQueue m j) := by
  unfold Systemd.jobAddToRunQueue
  split
  · exact wf
  · rename_i notQueued
    exact { wf with
      queueJobs := by
        intro k inQueue
        rcases mem_cons.mp inQueue with rfl | old
        · exact mem
        · exact wf.queueJobs k old
      queueNodup := nodup_cons.mpr ⟨notQueued, wf.queueNodup⟩ }

theorem WellFormed.withState (state : U -> UnitActiveState) :
    WellFormed { m with activeState := state } :=
  { wf with }

theorem WellFormed.dequeue (j : JobId) : WellFormed { m with runQueue := m.runQueue.erase j } :=
  { wf with
    queueJobs := fun k inQueue => wf.queueJobs k (mem_of_mem_erase inQueue)
    queueNodup := wf.queueNodup.erase j }

theorem WellFormed.cleared :
    WellFormed { m with transactionUnits := [], chain := fun _ => [], links := [] } :=
  { wf with
    unitsNodup := .nil
    unitsChain := by simp
    chainNodup := by simp
    chainUnit := by simp
    chainInstalled := by simp
    chainFresh := by simp
    linkObject := by simp
    linkSubject := by simp }

end

theorem setJob_touch (m : Manager U) (j : JobId) (change : Job U -> Job U) (kept : ∀ job, (change
      job).unit = job.unit ∧ (change job).installed = job.installed ∧ (change job).generation =
      job.generation ∧ (change job).marker = job.marker) : Touch m (m.setJob j change) := by
  refine ⟨rfl, rfl, rfl, rfl, rfl, fun k => ?_⟩
  by_cases same : k = j
  · subst same
    simpa [Manager.setJob] using kept (m.job k)
  · simp [Manager.setJob, Function.update_of_ne same]

theorem wakeUnits_touch (wf : WellFormed m) (others : List U) :
    WellFormed (wakeUnits m others) ∧ Touch m (wakeUnits m others) := by
  unfold wakeUnits
  refine List.foldlRecOn (motive := fun m' => WellFormed m' ∧ Touch m m') others _ ⟨wf, .refl m⟩ ?_
  intro m' soFar other _
  cases found : m'.metaJob other with
  | none => exact soFar
  | some k =>
    exact ⟨soFar.1.jobAddToRunQueue k (soFar.1.metaJobs other k found).1,
      soFar.2.trans (jobAddToRunQueue_touch m' k)⟩

theorem wakeNeighbours_touch (wf : WellFormed m) (E : Units U) (u : U) :
    WellFormed (wakeNeighbours E m u) ∧ Touch m (wakeNeighbours E m u) := by
  obtain ⟨wf1, touch1⟩ := wakeUnits_touch wf (E.dependencies .after u)
  obtain ⟨wf2, touch2⟩ := wakeUnits_touch wf1 (E.dependencies .before u)
  exact ⟨wf2, touch1.trans touch2⟩

/-- From `w` to `w'` some requests were entered. If each of them was entered in a state that is `ok`,
then `P` was true whenever one was, and still is. -/
def StepsIf (P : Manager U -> Prop) (ok : Entry U -> Prop) (pre : Prop) (w w' : World U) : Prop :=
  ∃ new, w'.entered = w.entered ++ new ∧
    (pre -> P w.manager -> (∀ e ∈ new, ok e) -> P w'.manager ∧ ∀ e ∈ new, P e.manager)

abbrev Steps (P : Manager U -> Prop) (ok : Entry U -> Prop) : World U -> World U -> Prop :=
  StepsIf P ok True

namespace Steps

variable {P : Manager U -> Prop} {ok : Entry U -> Prop} {w w' w'' : World U}

theorem refl (w : World U) : Steps P ok w w :=
  ⟨[], by simp, fun _ holds _ => ⟨holds, by simp⟩⟩

theorem trans (first : Steps P ok w w') (second : Steps P ok w' w'') : Steps P ok w w'' := by
  obtain ⟨new, entered, keeps⟩ := first
  obtain ⟨new', entered', keeps'⟩ := second
  refine ⟨new ++ new', by rw [entered', entered, append_assoc], fun _ holds allowed => ?_⟩
  obtain ⟨holds', entries⟩ := keeps trivial holds fun e mem =>
    allowed e (mem_append_left _ mem)
  obtain ⟨holds'', entries'⟩ := keeps' trivial holds' fun e mem =>
    allowed e (mem_append_right _ mem)
  refine ⟨holds'', fun e mem => ?_⟩
  rcases mem_append.mp mem with old | last
  · exact entries e old
  · exact entries' e last

theorem of_set (keeps : P w.manager -> P m) : Steps P ok w (w.set m) :=
  ⟨[], by simp [World.set], fun _ holds _ => ⟨keeps holds, by simp⟩⟩

theorem of_if {pre : Prop} (steps : StepsIf P ok pre w w') (met : P w.manager -> pre) :
    Steps P ok w w' := by
  obtain ⟨new, entered, keeps⟩ := steps
  exact ⟨new, entered, fun _ holds allowed => keeps (met holds) holds allowed⟩

end Steps

def FinishKeeps (P : Manager U -> Prop) (ok : Entry U -> Prop) (finish : FinishFunction U) : Prop :=
  ∀ w j result w', finish w j result = .ok w' -> StepsIf P ok (j ∈ w.manager.jobs) w w'

def AddKeeps (P : Manager U -> Prop) (ok : Entry U -> Prop) (add : AddJobFunction U) : Prop :=
  ∀ w request w' result, add w request = .ok (w', result) -> Steps P ok w w'

theorem Steps.route (P : Manager U -> Prop) (ok : Entry U -> Prop) : Route (Steps P ok) :=
  ⟨Steps.refl, Steps.trans⟩

theorem FinishKeeps.finishes {P : Manager U -> Prop} {ok : Entry U -> Prop} {finish : FinishFunction U}
    (keeps : FinishKeeps P ok finish) (wf : ∀ m, P m -> WellFormed m) : Finishes (Steps P ok) finish :=
  fun w j result w' present finished =>
    Steps.of_if (keeps w j result w' finished) fun holds => (wf _ holds).present present

variable [DecidableEq U]

variable [Fintype U]

/-- A property of the tables that every step of a run keeps, as long as requests are entered in `ok`
states. `apply` is about a transaction that has passed all checks. -/
structure Kept (E : Units U) (P : Manager U -> Prop) (ok : Entry U -> Prop) : Prop where
  wf : ∀ m, P m -> WellFormed m
  free : ∀ m j, P m -> j ∈ m.jobs -> P (jobFree m j)
  touch : ∀ m m', P m -> WellFormed m' -> Touch m m' -> P m'
  clear : ∀ m m', P m -> WellFormed m' -> Quiescent m' -> m'.metaJob = m.metaJob -> P m'
  apply : ∀ fuel, FinishKeeps P ok (jobFinishAndInvalidate E fuel) ->
    ∀ (w w' : World U) request m1 m2 ret, requestRefusal E request = none ->
    buildTransaction E w.manager request = (m1, .ok ret) ->
    transactionCheck E request.mode m1 = (m2, .ok ()) ->
    transactionApply (jobFinishAndInvalidate E fuel) fuel ((w.enter request).set m2) request.mode =
      .ok w' ->
    ∃ new, w'.entered = w.entered ++ ⟨w.manager, request⟩ :: new ∧
      (P w.manager -> ok ⟨w.manager, request⟩ -> (∀ e ∈ new, ok e) ->
        P w'.manager ∧ ∀ e ∈ new, P e.manager)

namespace Kept

variable {E : Units U} {P : Manager U -> Prop} {ok : Entry U -> Prop}

theorem of_checked (wf : ∀ m, P m -> WellFormed m) (free : ∀ m j, P m -> j ∈ m.jobs -> P (jobFree m j))
    (touch : ∀ m m', P m -> WellFormed m' -> Touch m m' -> P m')
    (clear : ∀ m m', P m -> WellFormed m' -> Quiescent m' -> m'.metaJob = m.metaJob -> P m') (checked : ∀ m
      request m1 m2 ret, P m -> ok ⟨m, request⟩ -> requestRefusal E request = none -> buildTransaction E m
      request = (m1, .ok ret) -> transactionCheck E request.mode m1 = (m2, .ok ()) -> P m2)
    (installs : ∀ m, P m -> P (installTransaction m)) : Kept E P ok where
  wf := wf
  free := free
  touch := touch
  clear := clear
  apply := by
    intro fuel finishKeeps w w' request m1 m2 ret accepted built check applied
    obtain ⟨new, entered, keeps⟩ := (Steps.route P ok).transactionApply (finishKeeps.finishes wf)
      (fun w => Steps.of_set (installs w.manager)) applied
    refine ⟨new, by rw [entered]; simp [World.enter, World.set], fun holds allowed later => ?_⟩
    exact keeps trivial (checked w.manager request m1 m2 ret holds allowed accepted built check) later

theorem abort (kept : Kept E P ok) {m' : Manager U} (holds : P m) (wf : WellFormed m')
    (same : m'.metaJob = m.metaJob) : P (transactionAbort m') := by
  have quiet : Quiescent (transactionAbort m') := by
    rw [transactionAbort_spec m' wf]
    exact ⟨rfl, fun _ => rfl, rfl⟩
  refine kept.clear m _ holds ?_ quiet ?_
  · rw [transactionAbort_spec m' wf]
    exact wf.cleared
  · rw [transactionAbort_spec m' wf]
    exact same

omit [DecidableEq U] [Fintype U] in
theorem enter {w w' : World U} {request : JobRequest U} (new : List (Entry U))
    (entered : w'.entered = w.entered ++ ⟨w.manager, request⟩ :: new)
    (keeps : P w.manager -> ok ⟨w.manager, request⟩ -> (∀ e ∈ new, ok e) ->
      P w'.manager ∧ ∀ e ∈ new, P e.manager) : Steps P ok w w' := by
  refine ⟨_, entered, fun _ holds allowed => ?_⟩
  obtain ⟨holds', entries⟩ := keeps holds (allowed _ (by simp)) fun e mem =>
    allowed e (mem_cons_of_mem _ mem)
  refine ⟨holds', fun e mem => ?_⟩
  rcases mem_cons.mp mem with rfl | later
  · exact holds
  · exact entries e later

section

variable (kept : Kept E P ok)
include kept

theorem addJobBody (fuel : Nat) (finishKeeps : FinishKeeps P ok (jobFinishAndInvalidate E fuel)) :
    AddKeeps P ok (addJobBody E (jobFinishAndInvalidate E fuel) fuel) := by
  intro w request w' result ran
  have outcome := addJobBody_cases ran
  cases outcome with
  | refused => exact enter [] rfl fun holds _ _ => ⟨holds, by simp⟩
  | unbuilt m1 e _ built =>
    refine enter [] rfl fun holds _ _ => ⟨?_, by simp⟩
    obtain ⟨⟨wf1, growth, _⟩, _⟩ := buildTransaction_spec (kept.wf _ holds) built
    exact kept.abort holds wf1 growth.metaJob
  | rejected m1 m2 ret e _ built check =>
    refine enter [] rfl fun holds _ _ => ⟨?_, by simp⟩
    obtain ⟨⟨wf1, growth, _⟩, _⟩ := buildTransaction_spec (kept.wf _ holds) built
    have frame := transactionCheck_checked wf1 check
    exact kept.abort holds frame.wf (frame.metaJob.trans growth.metaJob)
  | applied m1 m2 ret _ accepted built check applied =>
    obtain ⟨new, entered, keeps⟩ := kept.apply fuel finishKeeps w w' request m1 m2 ret accepted built
      check applied
    exact enter new entered keeps

theorem wake (w : World U) (u : U) : Steps P ok w (w.set (wakeNeighbours E w.manager u)) := by
  refine Steps.of_set fun holds => ?_
  obtain ⟨wf, touch⟩ := wakeNeighbours_touch (kept.wf _ holds) E u
  exact kept.touch _ _ holds wf touch

theorem finishBody {finish : FinishFunction U} {add : AddJobFunction U}
    (finishKeeps : FinishKeeps P ok finish) (addKeeps : AddKeeps P ok add) :
    FinishKeeps P ok (finishBody E finish add) := by
  intro w j result w' ran
  cases finishBody_cases ran with
  | restarted _ =>
    refine ⟨[], by simp [World.set], fun mem holds _ => ⟨?_, by simp⟩⟩
    have wf := kept.wf _ holds
    have wfJob := wf.setJob j (fun job => { job with state := .waiting, type := .start })
      (fun _ => rfl) (fun _ => rfl)
    have touchJob := setJob_touch w.manager j
      (fun job => { job with state := .waiting, type := .start }) (fun _ => ⟨rfl, rfl, rfl, rfl⟩)
    have wfQueue := wfJob.jobAddToRunQueue j mem
    obtain ⟨wfWoken, touchWoken⟩ := wakeNeighbours_touch wfQueue E (w.manager.job j).unit
    exact kept.touch _ _ holds wfWoken
      ((touchJob.trans (jobAddToRunQueue_touch _ j)).trans touchWoken)
  | freed w1 w2 failed triggered =>
    have freed : StepsIf P ok (j ∈ w.manager.jobs) w (w.set (jobFree w.manager j)) :=
      ⟨[], by simp [World.set], fun mem holds _ => ⟨kept.free _ j holds mem, by simp⟩⟩
    have afterFail : Steps P ok (w.set (jobFree w.manager j)) w1 := by
      split at failed
      · exact (Steps.route P ok).failDependents (finishKeeps.finishes kept.wf) failed
      · exact Except.ok.inj failed ▸ .refl _
    have afterTrigger : Steps P ok w1 w2 := by
      split at triggered
      · exact (Steps.route P ok).unitTriggerOnFailure addKeeps triggered
      · exact Except.ok.inj triggered ▸ .refl _
    obtain ⟨new, entered, keeps⟩ := freed
    obtain ⟨new', entered', keeps'⟩ := (afterFail.trans afterTrigger).trans
      (kept.wake w2 (w.manager.job j).unit)
    refine ⟨new ++ new', by rw [entered', entered, append_assoc], fun mem holds allowed => ?_⟩
    obtain ⟨holds', entries⟩ := keeps mem holds fun e h => allowed e (mem_append_left _ h)
    obtain ⟨holds'', entries'⟩ := keeps' trivial holds' fun e h => allowed e (mem_append_right _ h)
    refine ⟨holds'', fun e h => ?_⟩
    rcases mem_append.mp h with first | later
    · exact entries e first
    · exact entries' e later

theorem keeps (fuel : Nat) :
    FinishKeeps P ok (jobFinishAndInvalidate E fuel) ∧ AddKeeps P ok (managerAddJob E fuel) :=
  engine_induction (fun _ _ _ _ ran => nomatch ran) (fun _ _ _ _ ran => nomatch ran)
    (fun _ => kept.finishBody) kept.addJobBody fuel

end

section

variable {finish : FinishFunction U} {add : AddJobFunction U}

section

variable (kept : Kept E P ok)
include kept

theorem jobRunBegin (w : World U) (j : JobId) : Steps P ok w (w.set (jobRunBegin E w.manager j).1) := by
  refine Steps.of_set fun holds => ?_
  have wf := (kept.wf _ holds).dequeue j
  have touch : Touch w.manager { w.manager with runQueue := w.manager.runQueue.erase j } :=
    ⟨rfl, rfl, rfl, rfl, rfl, fun _ => ⟨rfl, rfl, rfl, rfl⟩⟩
  unfold Systemd.jobRunBegin
  simp only
  split
  · exact kept.touch _ _ holds wf touch
  · split
    · exact kept.touch _ _ holds wf touch
    · dsimp only
      refine kept.touch _ _ holds ?_ (touch.trans ?_)
      · exact wf.setJob j _ (fun _ => rfl) fun _ => rfl
      · exact setJob_touch _ j _ fun _ => ⟨rfl, rfl, rfl, rfl⟩

section

variable (finishKeeps : FinishKeeps P ok finish)
include finishKeeps

theorem jobRunEnd (w w' : World U) (j : JobId) (result : Option Errno)
    (ran : jobRunEnd finish w j result = .ok w') : Steps P ok w w' := by
  unfold Systemd.jobRunEnd at ran
  split at ran
  · rename_i mem
    have finished : ∀ outcome, finish w j outcome = .ok w' -> Steps P ok w w' := fun outcome done =>
      Steps.of_if (finishKeeps w j outcome w' done) fun _ => mem
    split at ran
    · exact Except.ok.inj ran ▸ .refl w
    · exact finished _ ran
    · exact finished _ ran
    · refine Except.ok.inj ran ▸ Steps.of_set fun holds => ?_
      exact kept.touch _ _ holds ((kept.wf _ holds).setJob j _ (fun _ => rfl) fun _ => rfl)
        (setJob_touch _ j _ fun _ => ⟨rfl, rfl, rfl, rfl⟩)
    · exact finished _ ran
  · exact Except.ok.inj ran ▸ .refl w

theorem jobRunAndInvalidate (operate : World U -> Except Fault (World U × Option Errno))
    (operateKeeps : ∀ w w' result, operate w = .ok (w', result) -> Steps P ok w w') (w w' : World U)
    (j : JobId) (ran : jobRunAndInvalidate E finish operate w j = .ok w') : Steps P ok w w' := by
  have begun := kept.jobRunBegin w j
  unfold Systemd.jobRunAndInvalidate at ran
  split at ran
  · rename_i m _ same
    rw [same] at begun
    exact Except.ok.inj ran ▸ begun
  · rename_i m errno same
    rw [same] at begun
    exact begun.trans (kept.jobRunEnd finishKeeps _ w' j _ ran)
  · rename_i m op waits same
    rw [same] at begun
    obtain ⟨⟨w1, result⟩, called, ended⟩ := bind_ok ran
    exact (begun.trans (operateKeeps _ w1 result called)).trans
      (kept.jobRunEnd finishKeeps w1 w' j _ ended)

theorem unitNotify (addKeeps : AddKeeps P ok add) (w w' : World U) (u : U) (os ns : UnitActiveState)
    (reloadSuccess : Bool) (triggered : Nat)
    (ran : unitNotify E finish add w u os ns reloadSuccess triggered = .ok w') : Steps P ok w w' := by
  refine (Steps.route P ok).unitNotify (finishKeeps.finishes kept.wf) addKeeps ?_ ran
  intro w u j found
  refine Steps.of_set fun holds => ?_
  have wf := kept.wf _ holds
  exact kept.touch _ _ holds (wf.jobAddToRunQueue j (wf.metaJobs u j found).1)
    (jobAddToRunQueue_touch _ j)

end

end

end

mutual

theorem exec (kept : Kept E P ok) (fuel : Nat) :
    ∀ (action : Action U) (w w' : World U), exec E fuel action w = .ok w' -> Steps P ok w w'
  | .addJob request, w, w', ran => by
    rw [Systemd.exec] at ran
    exact Route.addOnce (kept.keeps fuel).2 ran
  | .runJob j calls result, w, w', ran => by
    rw [Systemd.exec] at ran
    split at ran
    · refine kept.jobRunAndInvalidate (kept.keeps fuel).1 _ ?_ w w' j ran
      intro w w' _ called
      obtain ⟨w1, all, rest⟩ := bind_ok called
      obtain ⟨rfl, _⟩ := Prod.mk.inj (Except.ok.inj rest)
      exact execAll kept fuel calls w w1 all
    · cases ran
  | .finishJob j result, w, w', ran => by
    rw [Systemd.exec] at ran
    split at ran
    · rename_i mem
      exact Steps.of_if ((kept.keeps fuel).1 w j result w' ran) fun _ => mem
    · cases ran
  | .notify u ns reloadSuccess triggered, w, w', ran => by
    rw [Systemd.exec] at ran
    refine Steps.trans (Steps.of_set fun holds => ?_)
      (kept.unitNotify (kept.keeps fuel).1 (kept.keeps fuel).2 _ w' u _ ns reloadSuccess triggered ran)
    exact kept.touch _ _ holds ((kept.wf _ holds).withState _)
      ⟨rfl, rfl, rfl, rfl, rfl, fun _ => ⟨rfl, rfl, rfl, rfl⟩⟩

theorem execAll (kept : Kept E P ok) (fuel : Nat) :
    ∀ (actions : List (Action U)) (w w' : World U), execAll E fuel actions w = .ok w' ->
      Steps P ok w w'
  | [], w, w', ran => by
    rw [Systemd.execAll] at ran
    exact Except.ok.inj ran ▸ .refl w
  | action :: rest, w, w', ran => by
    rw [Systemd.execAll] at ran
    obtain ⟨w1, first, later⟩ := bind_ok ran
    exact (exec kept fuel action w w1 first).trans (execAll kept fuel rest w1 w' later)

end

-- The run rule: `P` holds initially and is kept, so it holds in every reachable state and in every
-- state a request was ever entered in.
theorem reachable (kept : Kept E P ok) (initial : ∀ m, Initial m -> P m) (w : World U)
    (run : Reachable E w) (allowed : ∀ e ∈ w.entered, ok e) :
    P w.manager ∧ ∀ e ∈ w.entered, P e.manager := by
  induction run with
  | initial m start => exact ⟨initial m start, by simp⟩
  | step fuel action w w' _ ran ih =>
    obtain ⟨new, entered, keeps⟩ := kept.exec fuel action w w' ran
    rw [entered] at allowed ⊢
    obtain ⟨holds, entries⟩ := ih fun e mem => allowed e (mem_append_left _ mem)
    obtain ⟨holds', entries'⟩ := keeps trivial holds fun e mem =>
      allowed e (mem_append_right _ mem)
    refine ⟨holds', fun e mem => ?_⟩
    rcases mem_append.mp mem with old | later
    · exact entries e old
    · exact entries' e later

end Kept

theorem settled_kept (E : Units U) : Kept E Settled fun _ => True := by
  refine Kept.of_checked (fun _ settled => settled.wf) (fun _ j settled mem => settled.jobFree j mem)
    (fun _ _ settled wf touch => ⟨wf, by simpa only [touch.chain] using settled.single⟩)
    (fun _ _ _ wf quiet _ => quiet.settled wf) ?_ ?_
  · intro m request m1 m2 ret settled _ _ built check
    obtain ⟨built, _⟩ := buildTransaction_spec settled.wf built
    exact transactionCheck_settled built.wf check
  · intro m settled
    have installed := installTransaction_spec settled
    exact installed.quiet.settled installed.wf

theorem Reachable.settled {E : Units U} {w : World U} (run : Reachable E w) :
    Settled w.manager ∧ ∀ e ∈ w.entered, Settled e.manager :=
  (settled_kept E).reachable (fun _ initial => initial.quiescent.settled initial.wellFormed) w run
    fun _ _ => trivial

end Systemd
