import Systemd.Engine.Runnable
import Systemd.Engine.Runs

set_option autoImplicit false

namespace Systemd

open Loop List Function

section

variable {U : Type}

def Neighbour (E : Units U) (u v : U) : Prop :=
  v ∈ E.dependencies .after u ∨ v ∈ E.dependencies .before u

variable {E : Units U} {m' m m'' : Manager U} {refused : JobId -> JobType -> Prop} {pending : U -> Prop}

theorem OrderInverse.symm (order : OrderInverse E) {u v : U} (near : Neighbour E u v) :
    Neighbour E v u := by
  rcases near with after | before
  · exact .inr ((order.inverse v u).mpr after)
  · exact .inl ((order.inverse u v).mp before)

structure Idle (m : Manager U) (j : JobId) : Prop where
  mem : j ∈ m.jobs
  waiting : (m.job j).state = .waiting
  unqueued : j ∉ m.runQueue

/-- Every idle job was refused, has a neighbour with a job, or is a neighbour of a unit in `pending`,
whose job is gone but whose neighbours are not woken yet. -/
def Awake (E : Units U) (pending : U -> Prop) (refused : JobId -> JobType -> Prop) (m : Manager U) :
    Prop :=
  ∀ j, Idle m j ->
    refused j (m.job j).type ∨ (∃ v, Neighbour E (m.job j).unit v ∧ (m.metaJob v).isSome = true) ∨
      ∃ u, pending u ∧ Neighbour E u (m.job j).unit

structure Undelayed (m m' : Manager U) : Prop where
  idle : ∀ j, Idle m' j ->
    Idle m j ∧ (m'.job j).unit = (m.job j).unit ∧ (m'.job j).type = (m.job j).type
  busy : ∀ u, (m.metaJob u).isSome = true -> (m'.metaJob u).isSome = true

theorem Undelayed.trans (first : Undelayed m m') (second : Undelayed m' m'') : Undelayed m m'' where
  idle := by
    intro j idle
    obtain ⟨idle', unit', type'⟩ := second.idle j idle
    obtain ⟨idle'', unit'', type''⟩ := first.idle j idle'
    exact ⟨idle'', unit'.trans unit'', type'.trans type''⟩
  busy := fun u busy => second.busy u (first.busy u busy)

theorem Awake.undelayed (awake : Awake E pending refused m) (undelayed : Undelayed m m') :
    Awake E pending refused m' := by
  intro j idle
  obtain ⟨idle', unit, type⟩ := undelayed.idle j idle
  rw [unit, type]
  rcases awake j idle' with refusal | ⟨v, near, busy⟩ | near
  · exact .inl refusal
  · exact .inr (.inl ⟨v, near, undelayed.busy v busy⟩)
  · exact .inr (.inr near)

structure Named (m m' : Manager U) : Prop where
  ids : m.currentJobId ≤ m'.currentJobId
  unit : ∀ j < m.currentJobId, (m'.job j).unit = (m.job j).unit

theorem Named.refl (m : Manager U) : Named m m := ⟨le_refl _, fun _ _ => rfl⟩

theorem Named.trans (first : Named m m') (second : Named m' m'') : Named m m'' where
  ids := first.ids.trans second.ids
  unit := fun j old => (second.unit j (lt_of_lt_of_le old first.ids)).trans (first.unit j old)

theorem named_of_setJob (m : Manager U) (j : JobId) (change : Job U -> Job U)
    (unit : ∀ job, (change job).unit = job.unit) : Named m (m.setJob j change) := by
  refine ⟨le_refl _, fun k _ => ?_⟩
  by_cases same : k = j
  · subst same
    simp [Manager.setJob, unit]
  · simp [Manager.setJob, update_of_ne same]

theorem mem_jobAddToRunQueue (m : Manager U) (j k : JobId) :
    k ∈ (jobAddToRunQueue m j).runQueue ↔ k = j ∨ k ∈ m.runQueue := by
  unfold jobAddToRunQueue
  split
  · rename_i queued
    constructor
    · exact .inr
    · rintro (rfl | old)
      · exact queued
      · exact old
  · exact mem_cons

theorem mem_wakeUnits (m : Manager U) (others : List U) (k : JobId) :
    k ∈ (wakeUnits m others).runQueue ↔
      k ∈ m.runQueue ∨ ∃ other ∈ others, m.metaJob other = some k := by
  induction others generalizing m with
  | nil => simp [wakeUnits]
  | cons other others ih =>
    rw [wakeUnits, foldl_cons, ← wakeUnits, ih]
    cases found : m.metaJob other with
    | none => simp [found]
    | some j =>
      obtain ⟨queue, same⟩ := jobAddToRunQueue_frame m j
      have tables : (jobAddToRunQueue m j).metaJob = m.metaJob := by rw [same]
      simp only [tables, mem_jobAddToRunQueue, exists_mem_cons_iff, found, Option.some.injEq]
      constructor
      · rintro ((rfl | old) | later)
        · exact .inr (.inl rfl)
        · exact .inl old
        · exact .inr (.inr later)
      · rintro (old | rfl | later)
        · exact .inl (.inr old)
        · exact .inl (.inl rfl)
        · exact .inr later

theorem mem_wakeNeighbours (E : Units U) (m : Manager U) (u : U) (k : JobId) :
    k ∈ (wakeNeighbours E m u).runQueue ↔
      k ∈ m.runQueue ∨ ∃ v, Neighbour E u v ∧ m.metaJob v = some k := by
  obtain ⟨queue, same⟩ := wakeUnits_frame m (E.dependencies .after u)
  have tables : (wakeUnits m (E.dependencies .after u)).metaJob = m.metaJob := by rw [same]
  rw [wakeNeighbours, mem_wakeUnits, mem_wakeUnits, tables]
  constructor
  · rintro ((old | ⟨v, after, found⟩) | ⟨v, before, found⟩)
    · exact .inl old
    · exact .inr ⟨v, .inl after, found⟩
    · exact .inr ⟨v, .inr before, found⟩
  · rintro (old | ⟨v, after | before, found⟩)
    · exact .inl (.inl old)
    · exact .inl (.inr ⟨v, after, found⟩)
    · exact .inr ⟨v, before, found⟩

theorem undelayed_of_queue {queue : List JobId} (longer : ∀ k ∈ m.runQueue, k ∈ queue) :
    Undelayed m { m with runQueue := queue } where
  idle := fun j idle =>
    ⟨⟨idle.mem, idle.waiting, fun old => idle.unqueued (longer j old)⟩, rfl, rfl⟩
  busy := fun _ busy => busy

theorem undelayed_jobAddToRunQueue (m : Manager U) (j : JobId) :
    Undelayed m (jobAddToRunQueue m j) := by
  obtain ⟨queue, same⟩ := jobAddToRunQueue_frame m j
  have longer : ∀ k ∈ m.runQueue, k ∈ queue := by
    intro k old
    have inside := (mem_jobAddToRunQueue m j k).mpr (.inr old)
    rwa [same] at inside
  rw [same]
  exact undelayed_of_queue longer

theorem named_jobAddToRunQueue (m : Manager U) (j : JobId) : Named m (jobAddToRunQueue m j) := by
  obtain ⟨queue, same⟩ := jobAddToRunQueue_frame m j
  rw [same]
  exact ⟨le_refl _, fun _ _ => rfl⟩

theorem undelayed_wakeNeighbours (E : Units U) (m : Manager U) (u : U) :
    Undelayed m (wakeNeighbours E m u) := by
  obtain ⟨queue, same⟩ := wakeNeighbours_frame E m u
  have longer : ∀ k ∈ m.runQueue, k ∈ queue := by
    intro k old
    have inside := (mem_wakeNeighbours E m u k).mpr (.inl old)
    rwa [same] at inside
  rw [same]
  exact undelayed_of_queue longer

theorem named_wakeNeighbours (E : Units U) (m : Manager U) (u : U) :
    Named m (wakeNeighbours E m u) := by
  obtain ⟨queue, same⟩ := wakeNeighbours_frame E m u
  rw [same]
  exact ⟨le_refl _, fun _ _ => rfl⟩

theorem Awake.woken {u : U} (wf : WellFormed m)
    (awake : Awake E (fun v => pending v ∨ v = u) refused m) :
    Awake E pending refused (wakeNeighbours E m u) := by
  intro j idle
  have unqueued := idle.unqueued
  rw [mem_wakeNeighbours, not_or] at unqueued
  obtain ⟨idle', unit, type⟩ := (undelayed_wakeNeighbours E m u).idle j idle
  obtain ⟨queue, same⟩ := wakeNeighbours_frame E m u
  rw [unit, type]
  rcases awake j idle' with refusal | ⟨v, near, busy⟩ | ⟨v, waits | rfl, near⟩
  · exact .inl refusal
  · exact .inr (.inl ⟨v, near, by rw [same]; exact busy⟩)
  · exact .inr (.inr ⟨v, waits, near⟩)
  · exact absurd ⟨_, near, wf.jobMeta j idle'.mem⟩ unqueued.2

theorem undelayed_of_queued (j : JobId) (change : Job U -> Job U) :
    Undelayed m (jobAddToRunQueue (m.setJob j change) j) := by
  obtain ⟨queue, same⟩ := jobAddToRunQueue_frame (m.setJob j change) j
  refine ⟨fun k idle => ?_, fun u busy => by rw [same]; exact busy⟩
  have different : k ≠ j := by
    rintro rfl
    exact idle.unqueued ((mem_jobAddToRunQueue _ k k).mpr (.inl rfl))
  have before := (undelayed_jobAddToRunQueue (m.setJob j change) j).idle k idle
  have untouched : (m.setJob j change).job k = m.job k := by
    simp [Manager.setJob, update_of_ne different]
  obtain ⟨⟨mem, waiting, unqueued⟩, unit, type⟩ := before
  rw [untouched] at waiting unit type
  exact ⟨⟨mem, waiting, unqueued⟩, unit, type⟩

theorem undelayed_of_kept (jobs : m'.jobs = m.jobs) (metaJob : m'.metaJob = m.metaJob)
    (runQueue : m'.runQueue = m.runQueue) (kept : ∀ j ∈ m.jobs, SameJob (m.job j) (m'.job j)) :
    Undelayed m m' where
  idle := by
    rintro j ⟨mem, waiting, unqueued⟩
    rw [jobs] at mem
    rw [runQueue] at unqueued
    have same := kept j mem
    exact ⟨⟨mem, same.state ▸ waiting, unqueued⟩, same.unit, same.type⟩
  busy := fun u busy => by rw [metaJob]; exact busy

theorem undelayed_build (wf : WellFormed m) {request : JobRequest U} (built : Built E m request m') :
    Undelayed m m' ∧ Named m m' := by
  have growth := built.growth
  refine ⟨undelayed_of_kept growth.jobs growth.metaJob growth.runQueue fun j mem =>
    growth.kept j (wf.jobFresh j mem), growth.ids, fun j old => (growth.kept j old).unit⟩

theorem undelayed_check (wf : WellFormed m) (checked : Checked m m') : Undelayed m m' ∧ Named m m' := by
  refine ⟨undelayed_of_kept checked.jobs checked.metaJob checked.runQueue fun j mem =>
    (checked.kept j (wf.jobInstalled j mem)).1, checked.currentJobId.ge, fun j _ => checked.unit j⟩

variable [DecidableEq U]

theorem Awake.freed (order : OrderInverse E) (wf : WellFormed m) (awake : Awake E pending refused m)
    {j : JobId} (mem : j ∈ m.jobs) :
    Awake E (fun v => pending v ∨ v = (m.job j).unit) refused (jobFree m j) := by
  obtain ⟨gone, -, freed⟩ := wf.jobFree_installed mem
  rw [freed]
  rintro k ⟨left, waiting, unqueued⟩
  dsimp only at left waiting unqueued ⊢
  have different : k ≠ j := by
    rintro rfl
    exact wf.jobsNodup.not_mem_erase left
  rw [update_of_ne different] at waiting ⊢
  have old : k ∉ m.runQueue := fun queued => unqueued ((mem_erase_of_ne different).mpr queued)
  rcases awake k ⟨mem_of_mem_erase left, waiting, old⟩ with
    refusal | ⟨v, near, busy⟩ | ⟨v, waits, near⟩
  · exact .inl refusal
  · by_cases lost : v = (m.job j).unit
    · exact .inr (.inr ⟨v, .inr lost, order.symm near⟩)
    · refine .inr (.inl ⟨v, near, ?_⟩)
      rwa [update_of_ne lost]
  · exact .inr (.inr ⟨v, .inl waits, near⟩)

theorem named_jobFree (wf : WellFormed m) {j : JobId} (mem : j ∈ m.jobs) : Named m (jobFree m j) := by
  obtain ⟨gone, -, freed⟩ := wf.jobFree_installed mem
  rw [freed]
  refine ⟨le_refl _, fun k _ => ?_⟩
  by_cases same : k = j
  · subst same
    simp
  · simp [update_of_ne same]

theorem Installing.moved_unqueued (installing : Installing m) (u : U) (j : JobId)
    (chain : m.chain u = [j]) (k : JobId) (inJobs : k ∈ (m.moved u j).jobs)
    (unqueued : k ∉ (m.moved u j).runQueue) (installed : ((m.moved u j).job k).installed = true) :
    k ∈ m.jobs ∧ k ∉ m.runQueue ∧ (m.job k).installed = true := by
  have mem : j ∈ m.chain u := by simp [chain]
  simp only [Manager.moved, mem_filter, decide_eq_true_eq] at inJobs
  obtain ⟨old, kept⟩ := inJobs
  by_cases here : (m.job j).installed = true
  · have found := installing.chainInstalled u j mem here
    simp only [Manager.moved, here, if_true] at unqueued
    by_cases same : k = j
    · exact ⟨old, unqueued, same ▸ here⟩
    · have other := kept.resolve_left same
      simp only [Manager.moved, if_neg same, if_neg other] at installed
      exact ⟨old, unqueued, installed⟩
  · simp only [Manager.moved, here, Bool.false_eq_true, if_false, mem_cons, mem_filter,
      decide_eq_true_eq, not_or, not_and] at unqueued
    have other := kept.resolve_left unqueued.1
    simp only [Manager.moved, if_neg unqueued.1, if_neg other] at installed
    exact ⟨old, fun queued => unqueued.2 queued other, installed⟩

theorem installAll_unqueued (units : List U) (m : Manager U) (installing : Installing m)
    (order : m.transactionUnits = units) (k : JobId) (inJobs : k ∈ (units.foldl installJob m).jobs)
    (unqueued : k ∉ (units.foldl installJob m).runQueue)
    (installed : ((units.foldl installJob m).job k).installed = true) :
    k ∈ m.jobs ∧ k ∉ m.runQueue ∧ (m.job k).installed = true := by
  induction units generalizing m with
  | nil => exact ⟨inJobs, unqueued, installed⟩
  | cons u rest ih =>
    obtain ⟨j, chain, left⟩ := installing.next order
    rw [foldl_cons, installing.installJob_eq u j chain] at inJobs unqueued installed
    obtain ⟨inMoved, unqueuedMoved, installedMoved⟩ :=
      ih (m.moved u j) (installing.moved u j chain) left inJobs unqueued installed
    exact installing.moved_unqueued u j chain k inMoved unqueuedMoved installedMoved

theorem undelayed_installTransaction (settled : Settled m) : Undelayed m (installTransaction m) := by
  have installed := installTransaction_spec settled
  constructor
  · intro k idle
    have record := installed.job k
    have here := installed.wf.jobInstalled k idle.mem
    obtain ⟨inNew, unqueued, old⟩ := installAll_unqueued (putNewJobs m).transactionUnits (putNewJobs m)
      (putNewJobs_installing settled) rfl k idle.mem idle.unqueued here
    have inJobs : k ∈ m.jobs := by
      rcases mem_append.mp inNew with mem | new
      · exact mem
      · have out := (mem_filter.mp new).2
        simp only [Bool.not_eq_true'] at out
        exact absurd old (by rw [show (putNewJobs m).job k = m.job k from rfl, out]; simp)
    have waiting := idle.waiting
    rw [record] at waiting ⊢
    exact ⟨⟨inJobs, waiting, unqueued⟩, rfl, rfl⟩
  · intro u busy
    rw [installed.metaJob u]
    cases m.transactionGet u with
    | none => exact busy
    | some j => rfl

theorem named_installTransaction (settled : Settled m) : Named m (installTransaction m) := by
  have installed := installTransaction_spec settled
  exact ⟨installed.currentJobId.ge, fun j _ => by rw [installed.job j]⟩

theorem undelayed_transactionAbort (wf : WellFormed m) :
    Undelayed m (transactionAbort m) ∧ Named m (transactionAbort m) := by
  rw [transactionAbort_spec m wf]
  exact ⟨undelayed_of_kept rfl rfl rfl fun _ _ => .refl _, le_refl _, fun _ _ => rfl⟩

end

end Systemd
