import Systemd.Engine.Unlink

set_option autoImplicit false

namespace Systemd

open List Function

variable {U : Type}

/-- What holds of the tables whenever no function is in the middle of changing them, also while a
transaction is being built, checked or applied. -/
structure WellFormed (m : Manager U) : Prop where
  unitsNodup : m.transactionUnits.Nodup
  unitsChain : ∀ u, u ∈ m.transactionUnits ↔ m.chain u ≠ []
  chainNodup : ∀ u, (m.chain u).Nodup
  chainUnit : ∀ u, ∀ j ∈ m.chain u, (m.job j).unit = u
  chainInstalled : ∀ u, ∀ j ∈ m.chain u,
    (m.job j).installed = true -> m.metaJob u = some j
  chainFresh : ∀ u, ∀ j ∈ m.chain u, j < m.currentJobId
  linkObject : ∀ link ∈ m.links, m.InTransaction link.object
  linkSubject : ∀ link ∈ m.links, ∀ s, link.subject = some s -> m.InTransaction s
  jobsNodup : m.jobs.Nodup
  jobInstalled : ∀ j ∈ m.jobs, (m.job j).installed = true
  jobMeta : ∀ j ∈ m.jobs, m.metaJob (m.job j).unit = some j
  jobFresh : ∀ j ∈ m.jobs, j < m.currentJobId
  metaJobs : ∀ u j, m.metaJob u = some j -> j ∈ m.jobs ∧ (m.job j).unit = u
  queueJobs : ∀ j ∈ m.runQueue, j ∈ m.jobs
  queueNodup : m.runQueue.Nodup

structure Quiescent (m : Manager U) : Prop where
  transactionUnits : m.transactionUnits = []
  chain : ∀ u, m.chain u = []
  links : m.links = []

namespace WellFormed

variable {m : Manager U}

theorem queueInstalled (wf : WellFormed m) : ∀ k ∈ m.runQueue, (m.job k).installed = true :=
  fun k inQueue => wf.jobInstalled k (wf.queueJobs k inQueue)

variable {j : JobId}

theorem chainMem (wf : WellFormed m) {u : U} (mem : j ∈ m.chain u) : u ∈ m.transactionUnits :=
  (wf.unitsChain u).mpr (ne_nil_of_mem mem)

theorem inTransaction_iff (wf : WellFormed m) (j : JobId) :
    m.InTransaction j ↔ j ∈ m.transactionList := by
  simp only [Manager.InTransaction, Manager.transactionList, mem_flatMap]
  exact ⟨fun ⟨u, h⟩ => ⟨u, wf.chainMem h, h⟩, fun ⟨u, _, h⟩ => ⟨u, h⟩⟩

theorem inTransaction_chain (wf : WellFormed m) (mem : m.InTransaction j) :
    j ∈ m.chain (m.job j).unit := by
  obtain ⟨u, h⟩ := mem
  exact (wf.chainUnit u j h).symm ▸ h

theorem transactionGet_mem {u : U} (found : m.transactionGet u = some j) : j ∈ m.chain u :=
  mem_of_head? found

section

variable (wf : WellFormed m)
include wf

theorem mem_heads (j : JobId) : j ∈ m.transactionHeads ↔ m.transactionGet (m.job j).unit = some j := by
  simp only [Manager.transactionHeads, mem_filterMap]
  constructor
  · rintro ⟨u, _, found⟩
    rwa [wf.chainUnit u j (transactionGet_mem found)]
  · exact fun found => ⟨_, wf.chainMem (transactionGet_mem found), found⟩

theorem withJob (job : JobId -> Job U) (sameUnit : ∀ j, (job j).unit = (m.job j).unit)
    (sameInstalled : ∀ j, (job j).installed = (m.job j).installed) :
    WellFormed { m with job := job } where
  unitsNodup := wf.unitsNodup
  unitsChain := wf.unitsChain
  chainNodup := wf.chainNodup
  chainUnit := fun u j h => (sameUnit j).trans (wf.chainUnit u j h)
  chainInstalled := fun u j h installed => wf.chainInstalled u j h ((sameInstalled j).symm.trans installed)
  chainFresh := wf.chainFresh
  linkObject := wf.linkObject
  linkSubject := wf.linkSubject
  jobsNodup := wf.jobsNodup
  jobInstalled := fun j h => (sameInstalled j).trans (wf.jobInstalled j h)
  jobMeta := by
    intro j h
    simpa only [sameUnit] using wf.jobMeta j h
  jobFresh := wf.jobFresh
  metaJobs := fun u j h => ⟨(wf.metaJobs u j h).1, (sameUnit j).trans (wf.metaJobs u j h).2⟩
  queueJobs := wf.queueJobs
  queueNodup := wf.queueNodup

theorem setJob (j : JobId) (change : Job U -> Job U) (sameUnit : ∀ job, (change job).unit = job.unit)
    (sameInstalled : ∀ job, (change job).installed = job.installed) :
    WellFormed (m.setJob j change) := by
  refine wf.withJob _ ?_ ?_ <;> intro k <;> by_cases same : k = j <;>
    simp [update, same, sameUnit, sameInstalled]

theorem without (gone : List JobId) : WellFormed (m.without gone) where
  unitsNodup := wf.unitsNodup.filter _
  unitsChain := by
    intro u
    rw [m.mem_without_units gone u, wf.unitsChain u]
    constructor
    · rintro ⟨_, j, inChain, out⟩
      exact ne_nil_of_mem ((m.mem_without_chain gone u j).mpr ⟨inChain, out⟩)
    · intro nonempty
      obtain ⟨j, mem⟩ := exists_mem_of_ne_nil _ nonempty
      obtain ⟨inChain, out⟩ := (m.mem_without_chain gone u j).mp mem
      exact ⟨ne_nil_of_mem inChain, j, inChain, out⟩
  chainNodup := fun u => (wf.chainNodup u).filter _
  chainUnit := fun u j h => wf.chainUnit u j ((m.mem_without_chain gone u j).mp h).1
  chainInstalled := fun u j h => wf.chainInstalled u j ((m.mem_without_chain gone u j).mp h).1
  chainFresh := fun u j h => wf.chainFresh u j ((m.mem_without_chain gone u j).mp h).1
  linkObject := by
    intro link h
    obtain ⟨mem, out, _⟩ := (m.mem_without_links gone link).mp h
    obtain ⟨u, inChain⟩ := wf.linkObject link mem
    exact ⟨u, (m.mem_without_chain gone u _).mpr ⟨inChain, out⟩⟩
  linkSubject := by
    intro link h s subject
    obtain ⟨mem, _, out⟩ := (m.mem_without_links gone link).mp h
    obtain ⟨u, inChain⟩ := wf.linkSubject link mem s subject
    exact ⟨u, (m.mem_without_chain gone u _).mpr ⟨inChain, out s subject⟩⟩
  jobsNodup := wf.jobsNodup
  jobInstalled := wf.jobInstalled
  jobMeta := wf.jobMeta
  jobFresh := wf.jobFresh
  metaJobs := wf.metaJobs
  queueJobs := wf.queueJobs
  queueNodup := wf.queueNodup

theorem without_nil : m.without [] = m :=
  m.without_of_absent [] (by simp) (fun u h => (wf.unitsChain u).mp h) (by simp)

end

section

variable [DecidableEq U]

section

variable (wf : WellFormed m)
include wf

theorem deleteJob_spec (j : JobId) (dd : Bool) :
    ∃ gone, transactionDeleteJob m j dd = m.without gone ∧ Cascade m j dd gone :=
  transactionDeleteJob_spec m j dd wf.queueInstalled

theorem deleteJob (j : JobId) (dd : Bool) : WellFormed (transactionDeleteJob m j dd) := by
  obtain ⟨gone, deleted, _⟩ := wf.deleteJob_spec j dd
  exact deleted ▸ wf.without gone

theorem jobFree_uninstalled (j : JobId) (out : (m.job j).installed = false) :
    ∃ gone, jobFree m j = m.without gone ∧ Cascade m j true gone := by
  obtain ⟨gone, freed, cascade⟩ := jobFree_spec m j wf.queueInstalled
  have notQueued : j ∉ m.runQueue := fun inQueue => by simp [wf.queueInstalled j inQueue] at out
  refine ⟨gone, ?_, cascade⟩
  rw [freed, erase_of_not_mem notQueued]
  simp [jobDetach, out, Manager.without]

theorem jobFree_installed (mem : j ∈ m.jobs) :
    ∃ gone, Cascade m j true gone ∧ jobFree m j =
      { m.without gone with
        job := update m.job j { m.job j with installed := false }
        metaJob := update m.metaJob (m.job j).unit none
        jobs := m.jobs.erase j
        runQueue := m.runQueue.erase j } := by
  obtain ⟨gone, freed, cascade⟩ := jobFree_spec m j wf.queueInstalled
  refine ⟨gone, cascade, freed.trans ?_⟩
  simp [jobDetach, wf.jobInstalled j mem, wf.jobMeta j mem, Manager.without, Manager.setJob]

theorem jobFree (j : JobId) (mem : j ∈ m.jobs) : WellFormed (jobFree m j) := by
  obtain ⟨gone, cascade, freed⟩ := wf.jobFree_installed mem
  have wf' := wf.without gone
  have chainNe : ∀ u, ∀ k ∈ (m.without gone).chain u, k ≠ j := by
    rintro u k inChain rfl
    exact ((m.mem_without_chain gone u k).mp inChain).2 cascade.root
  have jobsNe : ∀ k ∈ m.jobs.erase j, k ≠ j ∧ k ∈ m.jobs := fun k h =>
    (wf.jobsNodup.mem_erase_iff).mp h
  have unitNe : ∀ k ∈ m.jobs, k ≠ j -> (m.job k).unit ≠ (m.job j).unit := by
    intro k h ne same
    have first := wf.jobMeta k h
    rw [same, wf.jobMeta j mem] at first
    exact ne (Option.some.inj first).symm
  rw [freed]
  refine ⟨wf'.unitsNodup, wf'.unitsChain, wf'.chainNodup, ?_, ?_, wf'.chainFresh, wf'.linkObject,
    wf'.linkSubject, wf.jobsNodup.erase j, ?_, ?_, ?_, ?_, ?_, wf.queueNodup.erase j⟩
  · intro u k inChain
    simpa [update_of_ne (chainNe u k inChain)] using wf'.chainUnit u k inChain
  · intro u k inChain installed
    have ne := chainNe u k inChain
    simp only [update_of_ne ne] at installed
    have found := wf'.chainInstalled u k inChain installed
    have unit := wf'.chainUnit u k inChain
    have inJobs := (wf.metaJobs u k found).1
    have other : u ≠ (m.job j).unit := unit ▸ unitNe k inJobs ne
    simpa [update_of_ne other] using found
  · intro k h
    obtain ⟨ne, inJobs⟩ := jobsNe k h
    simpa [update_of_ne ne] using wf.jobInstalled k inJobs
  · intro k h
    obtain ⟨ne, inJobs⟩ := jobsNe k h
    simpa [update_of_ne ne, update_of_ne (unitNe k inJobs ne)] using
      wf.jobMeta k inJobs
  · exact fun k h => wf.jobFresh k (jobsNe k h).2
  · intro u k found
    by_cases same : u = (m.job j).unit
    · simp [same] at found
    · simp only [update_of_ne same] at found
      obtain ⟨inJobs, unit⟩ := wf.metaJobs u k found
      have ne : k ≠ j := by
        rintro rfl
        exact same unit.symm
      exact ⟨(mem_erase_of_ne ne).mpr inJobs,
        by simpa [update_of_ne ne] using unit⟩
  · intro k inQueue
    obtain ⟨ne, mem⟩ := (wf.queueNodup.mem_erase_iff).mp inQueue
    exact (mem_erase_of_ne ne).mpr (wf.queueJobs k mem)

end

end

end WellFormed

end Systemd
