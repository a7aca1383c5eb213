import Systemd.Engine.JobTable
import Systemd.Engine.Resting

set_option autoImplicit false

namespace Systemd

open Loop List

section

variable {U : Type}

structure Gone (m : Manager U) (k : JobId) : Prop where
  old : k < m.currentJobId
  table : k ∉ m.jobs
  transaction : ¬m.InTransaction k

structure AddsFresh (m m' : Manager U) : Prop where
  jobs : m'.jobs = m.jobs
  metaJob : m'.metaJob = m.metaJob
  ids : m.currentJobId ≤ m'.currentJobId
  chain : ∀ u, ∀ j ∈ m'.chain u,
    j ∈ m.chain u ∨ (∃ v, m.metaJob v = some j) ∨ m.currentJobId ≤ j

namespace AddsFresh

variable {m m' m'' : Manager U}

theorem refl (m : Manager U) : AddsFresh m m :=
  ⟨rfl, rfl, le_refl _, fun _ _ mem => .inl mem⟩

theorem trans (first : AddsFresh m m') (second : AddsFresh m' m'') : AddsFresh m m'' where
  jobs := second.jobs.trans first.jobs
  metaJob := second.metaJob.trans first.metaJob
  ids := first.ids.trans second.ids
  chain := by
    intro u j mem
    rcases second.chain u j mem with early | ⟨v, found⟩ | new
    · exact first.chain u j early
    · exact .inr (.inl ⟨v, first.metaJob ▸ found⟩)
    · exact .inr (.inr (first.ids.trans new))

theorem gone (fresh : AddsFresh m m') (wf : WellFormed m) {k : JobId} (gone : Gone m k) : Gone m' k where
  old := gone.old.trans_le fresh.ids
  table := fresh.jobs ▸ gone.table
  transaction := by
    rintro ⟨u, mem⟩
    rcases fresh.chain u k mem with early | ⟨v, found⟩ | new
    · exact gone.transaction ⟨u, early⟩
    · exact gone.table (wf.metaJobs v k found).1
    · exact absurd gone.old (Nat.not_lt.mpr new)

end AddsFresh

variable [DecidableEq U]

theorem transactionAddOneJob_fresh (m : Manager U) (type : JobType) (u : U) (override : Bool) :
    AddsFresh m (transactionAddOneJob m type u override).1 := by
  have prepend (m1 : Manager U) (j : JobId) (change : Job U -> Job U) (jobs : m1.jobs = m.jobs)
      (metaJob : m1.metaJob = m.metaJob) (ids : m.currentJobId ≤ m1.currentJobId)
      (chain : m1.chain = m.chain)
      (known : (∃ v, m.metaJob v = some j) ∨ m.currentJobId ≤ j) :
      AddsFresh m (transactionPrepend (m1.setJob j change) u j) := by
    refine ⟨jobs, metaJob, ids, fun v k mem => ?_⟩
    by_cases same : v = u
    · subst same
      have cases : k = j ∨ k ∈ m.chain v := by
        simpa [transactionPrepend, Manager.setJob, chain] using mem
      rcases cases with rfl | old
      · exact .inr known
      · exact .inl old
    · exact .inl (by simpa [transactionPrepend, Manager.setJob, chain, same] using mem)
  have made := prepend (jobNew m type u).1 (jobNew m type u).2
    (fun job => { job with generation := 0, marker := none, mattersToAnchor := false, override := override })
    rfl rfl (Nat.le_succ _) rfl (.inr (le_refl _))
  unfold transactionAddOneJob
  split
  · exact .refl m
  · cases installed : m.metaJob u with
    | none => exact made
    | some j =>
      by_cases same : (m.job j).type = type
      · simp only [same, if_true]
        exact prepend m j _ rfl rfl (le_refl _) rfl (.inl ⟨u, installed⟩)
      · simp only [same, if_false]
        exact made

variable (E : Units U) (fuel turns : Nat)

theorem addJobAndDependencies_fresh (add : AddFunction U)
    (nested : ∀ m call, AddsFresh m (add m call).1) (m : Manager U) (call : AddCall U) :
    AddsFresh m (addJobAndDependencies E add m call).1 := by
  cases refused : refusal E call.type call.unit with
  | some e =>
    simp only [addJobAndDependencies, refused]
    exact .refl m
  | none =>
    have one := transactionAddOneJob_fresh m call.type call.unit call.override
    cases added : transactionAddOneJob m call.type call.unit call.override with
    | mk m1 rest =>
      obtain ⟨ret, isNew⟩ := rest
      rw [added] at one
      have entered : AddsFresh m (enterJob m1 call ret) := ⟨one.jobs, one.metaJob, one.ids, one.chain⟩
      rw [addJobAndDependencies_eq add m1 ret isNew refused added]
      split
      · have loop := forEach_always (pullIn add) AddsFresh .refl (fun _ _ _ => .trans)
          (pullCalls E call ret) (fun item _ m => pullIn_state add m item ▸ nested m item.2)
          (enterJob m1 call ret)
        split
        · rename_i same
          rw [same] at loop
          exact entered.trans loop
        · rename_i same
          rw [same] at loop
          exact entered.trans loop
      · exact entered

theorem addWithDepth_fresh (depth : Nat) (m : Manager U) (call : AddCall U) :
    AddsFresh m (addWithDepth E depth m call).1 := by
  induction depth generalizing m call with
  | zero => exact addJobAndDependencies_fresh E _ (fun m _ => .refl m) m call
  | succ depth ih => exact addJobAndDependencies_fresh E _ ih m call

theorem buildTransaction_fresh [Fintype U] (m : Manager U) (request : JobRequest U) :
    AddsFresh m (buildTransaction E m request).1 := by
  have added := addWithDepth_fresh E (Fintype.card (U × JobType)) m request.call
  rw [buildTransaction, transactionAddJobAndDependencies]
  split
  · rename_i same
    rwa [same] at added
  · rename_i m1 ret same
    rw [same] at added
    split
    · refine added.trans ?_
      refine List.foldlRecOn (motive := AddsFresh m1) E.units _ (.refl m1) fun m2 fresh u _ => ?_
      split
      · exact fresh.trans (addWithDepth_fresh E _ m2 _)
      · exact fresh
    · exact added

variable {m : Manager U} {k : JobId}

theorem Gone.aborted (wf : WellFormed m) (gone : Gone m k) : Gone (transactionAbort m) k := by
  rw [transactionAbort_spec m wf]
  exact ⟨gone.old, gone.table, fun ⟨u, mem⟩ => by simp at mem⟩

omit [DecidableEq U] in
theorem Gone.checked {m' : Manager U} (checked : Checked m m') (gone : Gone m k) : Gone m' k where
  old := checked.currentJobId ▸ gone.old
  table := checked.jobs ▸ gone.table
  transaction := fun ⟨u, mem⟩ => gone.transaction ⟨u, checked.chain u mem⟩

theorem Gone.installed (settled : Settled m) (gone : Gone m k) : Gone (installTransaction m) k := by
  have installed := installTransaction_spec settled
  refine ⟨installed.currentJobId ▸ gone.old, fun mem => ?_, fun ⟨u, mem⟩ => ?_⟩
  · have found := installed.wf.jobMeta k mem
    rw [installed.metaJob] at found
    rcases Option.or_eq_some_iff.mp found with head | ⟨_, before⟩
    · exact gone.transaction ⟨_, WellFormed.transactionGet_mem head⟩
    · exact gone.table (settled.wf.metaJobs _ k before).1
  · simp [installed.quiet.chain u] at mem

theorem Gone.freed (wf : WellFormed m) (j : JobId) (mem : j ∈ m.jobs) (gone : Gone m k) :
    Gone (jobFree m j) k := by
  obtain ⟨deleted, _, freed⟩ := wf.jobFree_installed mem
  rw [freed]
  exact ⟨gone.old, fun inTable => gone.table (mem_of_mem_erase inTable),
    fun ⟨u, inChain⟩ => gone.transaction ⟨u, (mem_filter.mp inChain).1⟩⟩

theorem gone_of_freed (wf : WellFormed m) (j : JobId) (mem : j ∈ m.jobs) : Gone (jobFree m j) j := by
  obtain ⟨deleted, cascade, freed⟩ := wf.jobFree_installed mem
  rw [freed]
  refine ⟨wf.jobFresh j mem, fun inTable => (wf.jobsNodup.mem_erase_iff.mp inTable).1 rfl, ?_⟩
  rintro ⟨u, inChain⟩
  exact ((m.mem_without_chain deleted u j).mp inChain).2 cascade.root

structure Forgets (w w' : World U) : Prop extends Rests w w' where
  gone : Settled w.manager -> ∀ k, Gone w.manager k -> Gone w'.manager k

namespace Forgets

section

omit [DecidableEq U]

theorem refl (w : World U) : Forgets w w :=
  ⟨.refl w, fun _ _ gone => gone⟩

theorem trans {w w' w'' : World U} (first : Forgets w w') (second : Forgets w' w'') : Forgets w w'' :=
  ⟨first.toRests.trans second.toRests, fun settled k gone =>
    second.gone (first.settled settled) k (first.gone settled k gone)⟩

theorem route : Route (Forgets (U := U)) :=
  ⟨refl, trans⟩

theorem of_touch {w : World U} (rests : Rests w (w.set m)) (jobs : m.jobs = w.manager.jobs)
    (chain : m.chain = w.manager.chain)
    (ids : m.currentJobId = w.manager.currentJobId) : Forgets w (w.set m) :=
  ⟨rests, fun _ k gone => ⟨by simpa [World.set, ids] using gone.old, by simpa [World.set, jobs] using gone.table,
    by simpa [World.set, Manager.InTransaction, chain] using gone.transaction⟩⟩

theorem wake (E : Units U) (w : World U) (u : U) : Forgets w (w.set (wakeNeighbours E w.manager u)) := by
  obtain ⟨queue, same⟩ := wakeNeighbours_frame E w.manager u
  exact of_touch (Rests.wake w u) (by rw [same]) (by rw [same]) (by rw [same])

end

variable [Fintype U] {E : Units U} {finish : FinishFunction U} {add : AddJobFunction U}

theorem addJobBody (fuel : Nat) (finishes : Finishes Forgets (jobFinishAndInvalidate E fuel)) :
    Adds Forgets (addJobBody E (jobFinishAndInvalidate E fuel) fuel) := by
  intro w request w' result ran
  have rests := Rests.addJobBody fuel (fun w j result w' present finished =>
    (finishes w j result w' present finished).toRests) w request w' result ran
  refine ⟨rests, fun settled k gone => ?_⟩
  have fresh := buildTransaction_fresh E w.manager request
  cases addJobBody_cases ran with
  | refused e _ => exact gone
  | unbuilt m1 e _ built =>
    have grown := (buildTransaction_spec settled.wf built).1
    rw [built] at fresh
    exact (fresh.gone settled.wf gone).aborted grown.wf
  | rejected m1 m2 ret e _ built check =>
    have grown := (buildTransaction_spec settled.wf built).1
    have checked := transactionCheck_checked grown.wf check
    rw [built] at fresh
    exact ((fresh.gone settled.wf gone).checked checked).aborted checked.wf
  | applied m1 m2 ret _ _ built check applied =>
    have grown := (buildTransaction_spec settled.wf built).1
    have checked := transactionCheck_checked grown.wf check
    rw [built] at fresh
    have built' : Gone m2 k := (fresh.gone settled.wf gone).checked checked
    have settled' : Settled m2 := transactionCheck_settled grown.wf check
    exact (route.transactionApply finishes (fun w => ⟨.installs w, fun settled k gone => gone.installed settled⟩)
      applied).gone settled' k built'

omit [Fintype U] in
theorem finishBody (finishes : Finishes Forgets finish) (adds : Adds Forgets add) :
    Finishes Forgets (finishBody E finish add) := by
  intro w j result w' present ran
  have rests := Rests.finishBody (E := E) (fun w j result w' present finished =>
    (finishes w j result w' present finished).toRests) (fun w request w' result added =>
    (adds w request w' result added).toRests) w j result w' present ran
  cases finishBody_cases ran with
  | restarted _ =>
    obtain ⟨queue, queued⟩ := jobAddToRunQueue_frame
      (w.manager.setJob j fun job => { job with state := .waiting, type := .start }) j
    obtain ⟨queue', woken⟩ := wakeNeighbours_frame E (jobAddToRunQueue
      (w.manager.setJob j fun job => { job with state := .waiting, type := .start }) j) (w.manager.job j).unit
    rw [woken, queued] at rests ⊢
    exact of_touch rests rfl rfl rfl
  | freed w1 w2 failed triggered =>
    have afterFail : Forgets (w.set (jobFree w.manager j)) w1 := by
      split at failed
      · exact route.failDependents finishes failed
      · exact Except.ok.inj failed ▸ refl _
    have afterTrigger : Forgets w1 w2 := by
      split at triggered
      · exact route.unitTriggerOnFailure adds triggered
      · exact Except.ok.inj triggered ▸ refl _
    have free : Forgets w (w.set (jobFree w.manager j)) :=
      ⟨.free present, fun settled k gone => gone.freed settled.wf j (settled.wf.present present)⟩
    exact ((free.trans afterFail).trans afterTrigger).trans (wake E w2 _)

theorem engine (E : Units U) (fuel : Nat) :
    Finishes Forgets (jobFinishAndInvalidate E fuel) ∧ Adds Forgets (managerAddJob E fuel) :=
  engine_induction (fun _ _ _ _ _ ran => nomatch ran) (fun _ _ _ _ ran => nomatch ran)
    (fun _ => finishBody) addJobBody fuel

end Forgets

variable [Fintype U] {E : Units U}

theorem cancelled_gone {fuel : Nat} {w w' : World U} {j : JobId} (settled : Settled w.manager)
    (mem : j ∈ w.manager.jobs) (finished : jobFinishAndInvalidate E fuel w j .canceled = .ok w') :
    Settled w'.manager ∧ Gone w'.manager j := by
  refine ⟨((Forgets.engine E fuel).1 w j _ w' (.inl mem) finished).settled settled, ?_⟩
  cases fuel with
  | zero =>
    rw [jobFinishAndInvalidate] at finished
    cases finished
  | succ fuel =>
    obtain ⟨finishes, adds⟩ := Forgets.engine E fuel
    rw [jobFinishAndInvalidate] at finished
    cases finishBody_cases finished with
    | restarted done => cases done
    | freed w1 w2 failed triggered =>
      have afterFail : Forgets (w.set (jobFree w.manager j)) w1 := by
        split at failed
        · exact Forgets.route.failDependents finishes failed
        · exact Except.ok.inj failed ▸ .refl _
      have afterTrigger : Forgets w1 w2 := by
        split at triggered
        · exact Forgets.route.unitTriggerOnFailure adds triggered
        · exact Except.ok.inj triggered ▸ .refl _
      exact ((afterFail.trans afterTrigger).trans (Forgets.wake E w2 _)).gone
        (settled.jobFree j mem) j (gone_of_freed settled.wf j mem)

-- The loop stands at the first of `after`; the first job there without a job of its unit in the
-- transaction is the first to go.
theorem cancelOthers_takes (w w' : World U) (settled : Settled w.manager) (before after : List JobId)
    (jobs : w.manager.jobs = before ++ after)
    (outside : ∃ j ∈ after, w.manager.transactionGet (w.manager.job j).unit = none)
    (ran : cancelOthers (jobFinishAndInvalidate E fuel) turns w after.head? = .ok w') :
    ∃ k ∈ w.manager.jobs, Gone w'.manager k := by
  induction turns generalizing before after with
  | zero =>
    cases after with
    | nil => simp at outside
    | cons j rest => cases ran
  | succ turns ih =>
    cases after with
    | nil => simp at outside
    | cons j rest =>
      have mem : j ∈ w.manager.jobs := by simp [jobs]
      have nodup := settled.wf.jobsNodup
      rw [jobs] at nodup
      have fresh : j ∉ before := fun h => by
        have := disjoint_of_nodup_append nodup h
        simp at this
      rw [head?_cons, cancelOthers] at ran
      simp only [mem, if_true] at ran
      by_cases here : w.manager.transactionGet (w.manager.job j).unit = none
      · simp only [here, if_true] at ran
        obtain ⟨w1, finished, later⟩ := bind_ok ran
        obtain ⟨settled1, gone⟩ := cancelled_gone settled mem finished
        have rest := Forgets.route.cancelOthers (Forgets.engine E fuel).1 later
        exact ⟨j, mem, rest.gone settled1 j gone⟩
      · simp only [here, if_false] at ran
        rw [jobs, nextJob_eq before rest j fresh] at ran
        refine ih (before ++ [j]) rest (by simp [jobs]) ?_ ran
        obtain ⟨k, inAfter, none⟩ := outside
        rcases mem_cons.mp inAfter with rfl | later
        · exact absurd none here
        · exact ⟨k, later, none⟩

omit [DecidableEq U] [Fintype U] in
theorem cancelOthers_spares (finish : FinishFunction U) (turns : Nat) (w w' : World U)
    (next : Option JobId) (inside : ∀ j ∈ w.manager.jobs, w.manager.transactionGet (w.manager.job j).unit ≠ none)
    (ran : cancelOthers finish turns w next = .ok w') : w' = w := by
  induction turns generalizing next with
  | zero =>
    cases next with
    | none => exact (Except.ok.inj ran).symm
    | some j => cases ran
  | succ turns ih =>
    cases next with
    | none => exact (Except.ok.inj ran).symm
    | some j =>
      rw [cancelOthers] at ran
      by_cases mem : j ∈ w.manager.jobs
      · simp only [mem, if_true, inside j mem, if_false] at ran
        exact ih _ ran
      · simp only [mem, if_false] at ran
        cases ran

def NothingToCancel (m : Manager U) (mode : JobMode) : Prop :=
  mode = .isolate -> ∀ j ∈ m.jobs, m.transactionGet (m.job j).unit ≠ none

def NoIdTaken (m : Manager U) : Prop :=
  ∀ j ∈ uninstalledJobs m, ∀ k ∈ m.jobs, jobKey k ≠ jobKey j

-- A failed call restores the table unless jobs were cancelled first, or the rollback removes a job
-- whose id a new one has.
theorem failed_apply_restores_iff (allocates : JobId -> Bool) (w w' : World U) (mode : JobMode)
    (e : Errno) (settled : Settled w.manager) (failed : transactionApplyTable (jobFinishAndInvalidate E
      fuel) turns allocates w mode = .ok (w', .error e)) :
    SameBindings w.manager w'.manager ↔ NothingToCancel w.manager mode ∧ NoIdTaken w.manager := by
  obtain ⟨w1, cancelled, m, inserted, rfl⟩ := transactionApplyTable_cases _ turns allocates w w' mode _ failed
  have table := rollbackJobs_jobs allocates w1.manager m e inserted
  have untouched : NothingToCancel w.manager mode -> w1 = w := by
    intro nothing
    rcases cancelled with ⟨isolate, cancelled⟩ | ⟨_, same⟩
    · exact cancelOthers_spares _ turns w w1 _ (nothing isolate) cancelled
    · exact same
  refine (sameBindings_iff w.manager (rollbackJobs m)).trans ⟨fun same => ?_, ?_⟩
  · have nothing : NothingToCancel w.manager mode := by
      intro isolate j mem outside
      rcases cancelled with ⟨_, cancelled⟩ | ⟨keeping, _⟩
      · obtain ⟨k, inTable, gone⟩ := cancelOthers_takes fuel turns w w1 settled [] w.manager.jobs rfl
          ⟨j, mem, outside⟩ cancelled
        exact gone.table ((table k).mp ((same k).mpr inTable)).1
      · exact keeping isolate
    obtain rfl := untouched nothing
    exact ⟨nothing, fun j new k mem => ((table k).mp ((same k).mpr mem)).2 j new⟩
  · rintro ⟨nothing, free⟩ k
    obtain rfl := untouched nothing
    rw [table]
    exact ⟨fun both => both.1, fun mem => ⟨mem, fun j new => free j new k mem⟩⟩

theorem transactionApplyTable_unwrapped (w w' : World U) (mode : JobMode) (settled : Settled w.manager)
    (unwrapped : w'.manager.currentJobId ≤ 2 ^ 32)
    (applied : transactionApply (jobFinishAndInvalidate E fuel) turns w mode = .ok w') :
    transactionApplyTable (jobFinishAndInvalidate E fuel) turns (fun _ => true) w mode = .ok (w', .ok ()) := by
  obtain ⟨w1, rfl, phase⟩ := transactionApply_cases applied
  have settled1 : Settled w1.manager := by
    rcases phase with ⟨_, cancelled⟩ | ⟨_, rfl⟩
    · exact (Forgets.route.cancelOthers (Forgets.engine E fuel).1 cancelled).settled settled
    · exact settled
  have wf := settled1.wf
  have ids : w1.manager.currentJobId ≤ 2 ^ 32 :=
    (installTransaction_spec settled1).currentJobId.symm.le.trans unwrapped
  have new : ∀ j ∈ uninstalledJobs w1.manager, w1.manager.InTransaction j ∧ (w1.manager.job j).installed = false := by
    intro j mem
    obtain ⟨head, out⟩ := mem_filter.mp mem
    exact ⟨⟨_, WellFormed.transactionGet_mem ((wf.mem_heads j).mp head)⟩, by simpa using out⟩
  have small : ∀ j, j ∈ w1.manager.jobs ∨ j ∈ uninstalledJobs w1.manager -> jobKey j = j := by
    rintro j (installed | fresh)
    · exact Nat.mod_eq_of_lt ((wf.jobFresh j installed).trans_le ids)
    · obtain ⟨⟨u, inChain⟩, _⟩ := new j fresh
      exact Nat.mod_eq_of_lt ((wf.chainFresh u j inChain).trans_le ids)
  have inserted := insertJobs_putNewJobs w1.manager
    (fun j mem installed => by simpa [wf.jobInstalled j installed] using (new j mem).2)
    ((transactionHeads_nodup wf).filter _)
    (fun j k mem known same => by rw [← small k known, same, small j (.inr mem)])
  have rest : Except.ok (ε := Fault) (w1.set (afterInsertions (insertJobs (fun _ => true) w1.manager).1
      (insertJobs (fun _ => true) w1.manager).2), (insertJobs (fun _ => true) w1.manager).2) =
      .ok (w1.set (installTransaction w1.manager), .ok ()) := by
    rw [inserted]
    rfl
  unfold transactionApplyTable
  rcases phase with ⟨isolate, cancelled⟩ | ⟨keeping, rfl⟩
  · simp only [if_pos isolate, cancelled]
    exact rest
  · simp only [if_neg keeping]
    exact rest

end

-- The second unit has a job already, and is not stopped when another unit is isolated.
def busyUnits : Units (Fin 2) :=
  { loadedUnits 2 (fun _ _ => []) with ignoreOnIsolate := fun u => u = 1 }

def busyWorld : World (Fin 2) :=
  match managerAddJob busyUnits 2 ⟨startupManager 0, []⟩ ⟨.start, 1, .replace, false⟩ with
  | .ok (w, _) => w
  | .error _ => ⟨startupManager 0, []⟩

-- The start of the first unit is about to be applied, at the time the counter stands at `ids`.
def startBesides (mode : JobMode) (ids : JobId) : World (Fin 2) :=
  let m : Manager (Fin 2) := { busyWorld.manager with currentJobId := ids }
  ⟨(transactionCheck busyUnits mode (buildTransaction busyUnits m ⟨.start, 0, mode, false⟩).1).1, []⟩

theorem busyWorld_settled : Settled busyWorld.manager := by
  have initial := startupManager_initial (0 : Fin 2)
  have start : Settled (startupManager (0 : Fin 2)) := initial.quiescent.settled initial.wellFormed
  unfold busyWorld
  split
  · rename_i w ret ran
    exact ((Rests.engine busyUnits 2).2 _ _ w ret ran).settled start
  · exact start

theorem startBesides_settled : Settled (startBesides .replace 2).manager := by
  have built : Built busyUnits busyWorld.manager ⟨.start, 0, .replace, false⟩
      (buildTransaction busyUnits busyWorld.manager ⟨.start, 0, .replace, false⟩).1 :=
    (buildTransaction_spec busyWorld_settled.wf rfl).1
  have checked : transactionCheck busyUnits .replace (buildTransaction busyUnits busyWorld.manager
      ⟨.start, 0, .replace, false⟩).1 = ((startBesides .replace 2).manager, .ok ()) := rfl
  exact transactionCheck_settled built.wf checked

theorem failed_apply_restores_besides :
    ∃ w', transactionApplyTable (jobFinishAndInvalidate busyUnits 1) 2 (fun _ => false)
        (startBesides .replace 2) .replace = .ok (w', .error .enomem) ∧
      SameBindings (startBesides .replace 2).manager w'.manager := by
  refine ⟨_, rfl, ?_⟩
  exact (failed_apply_restores_iff (E := busyUnits) 1 2 (fun _ => false) (startBesides .replace 2) _ .replace .enomem
    startBesides_settled rfl).mpr ⟨fun isolate => (by cases isolate), by unfold NoIdTaken; decide⟩

theorem startBesides_applied :
    ∃ w', transactionApply (jobFinishAndInvalidate busyUnits 1) 2 (startBesides .replace 2) .replace = .ok w' ∧
      transactionApplyTable (jobFinishAndInvalidate busyUnits 1) 2 (fun _ => true) (startBesides .replace 2)
        .replace = .ok (w', .ok ()) := by
  refine ⟨_, rfl, ?_⟩
  exact transactionApplyTable_unwrapped 1 2 (startBesides .replace 2) _ .replace startBesides_settled (by decide) rfl

-- Isolating cancels the job of the second unit before the insertion fails; and a new job whose id is
-- that of a live one takes the live one along.
theorem failed_apply_loses_jobs :
    (∃ w', transactionApplyTable (jobFinishAndInvalidate busyUnits 1) 2 (fun _ => false)
        (startBesides .isolate 2) .isolate = .ok (w', .error .enomem) ∧
      ¬SameBindings (startBesides .isolate 2).manager w'.manager) ∧
    ∃ w', transactionApplyTable (jobFinishAndInvalidate busyUnits 1) 2 (fun _ => true)
        (startBesides .replace (2 ^ 32 + 1)) .replace = .ok (w', .error .eexist) ∧
      ¬SameBindings (startBesides .replace (2 ^ 32 + 1)).manager w'.manager := by
  constructor
  · refine ⟨_, rfl, fun same => ?_⟩
    have kept := (same 1 1).mpr ⟨by decide, rfl⟩
    exact absurd kept.1 (by decide)
  · refine ⟨_, rfl, fun same => ?_⟩
    have kept := (same 1 1).mpr ⟨by decide, rfl⟩
    exact absurd kept.1 (by decide)

end Systemd
