import Systemd.Engine.Check

set_option autoImplicit false

namespace Systemd

open List Option Function

variable {U : Type}

structure Settled (m : Manager U) : Prop where
  wf : WellFormed m
  single : ∀ u, ∀ j ∈ m.chain u, m.chain u = [j]

/-- What holds while transaction_apply moves the jobs of the transaction into the job table one
after the other. A link may meanwhile end in a job that has left the transaction already. -/
structure Installing (m : Manager U) : Prop where
  unitsNodup : m.transactionUnits.Nodup
  unitsChain : ∀ u, u ∈ m.transactionUnits ↔ m.chain u ≠ []
  single : ∀ u, ∀ j ∈ m.chain u, m.chain u = [j]
  chainUnit : ∀ u, ∀ j ∈ m.chain u, (m.job j).unit = u
  chainJobs : ∀ u, ∀ j ∈ m.chain u, j ∈ m.jobs
  chainInstalled : ∀ u, ∀ j ∈ m.chain u,
    (m.job j).installed = true -> m.metaJob u = some j
  linkEnds : ∀ link ∈ m.links, ∀ e, link.object = e ∨ link.subject = some e ->
    e ∈ m.jobs ∧ (e ∈ m.chain (m.job e).unit ∨ m.chain (m.job e).unit = [])
  jobsNodup : m.jobs.Nodup
  jobsCase : ∀ j ∈ m.jobs, (m.job j).installed = true ∧ m.metaJob (m.job j).unit = some j ∨
    (m.job j).installed = false ∧ j ∈ m.chain (m.job j).unit
  jobFresh : ∀ j ∈ m.jobs, j < m.currentJobId
  metaJobs : ∀ u j, m.metaJob u = some j ->
    j ∈ m.jobs ∧ (m.job j).unit = u ∧ (m.job j).installed = true
  queueJobs : ∀ j ∈ m.runQueue, j ∈ m.jobs ∧ (m.job j).installed = true
  queueNodup : m.runQueue.Nodup

variable {m : Manager U}

theorem Settled.inTransaction_jobs (settled : Settled m) {j : JobId} (mem : m.InTransaction j) :
    m.transactionGet (m.job j).unit = some j := by
  have inChain := settled.wf.inTransaction_chain mem
  simp [Manager.transactionGet, settled.single _ j inChain]

theorem Settled.mem_heads (settled : Settled m) {j : JobId} (mem : m.InTransaction j) :
    j ∈ m.transactionHeads :=
  (settled.wf.mem_heads j).mpr (settled.inTransaction_jobs mem)

theorem transactionHeads_nodup (wf : WellFormed m) : m.transactionHeads.Nodup := by
  refine List.Nodup.filterMap ?_ wf.unitsNodup
  intro u v j inU inV
  rw [← wf.chainUnit u j (WellFormed.transactionGet_mem inU),
    ← wf.chainUnit v j (WellFormed.transactionGet_mem inV)]

theorem putNewJobs_installing (settled : Settled m) : Installing (putNewJobs m) := by
  have wf := settled.wf
  have mem_jobs : ∀ j, j ∈ (putNewJobs m).jobs ↔
      j ∈ m.jobs ∨ j ∈ m.transactionHeads ∧ (m.job j).installed = false := by
    simp [putNewJobs, mem_filter]
  have inJobs : ∀ j, m.InTransaction j -> j ∈ (putNewJobs m).jobs := by
    intro j mem
    rw [mem_jobs]
    cases installed : (m.job j).installed with
    | false => exact .inr ⟨settled.mem_heads mem, rfl⟩
    | true =>
      have found := wf.chainInstalled _ j (wf.inTransaction_chain mem) installed
      exact .inl (wf.metaJobs _ j found).1
  have heads : ∀ j ∈ m.transactionHeads, j ∈ m.chain (m.job j).unit := fun j head =>
    WellFormed.transactionGet_mem ((wf.mem_heads j).mp head)
  have ends : ∀ link ∈ m.links, ∀ e, link.object = e ∨ link.subject = some e -> m.InTransaction e := by
    rintro link mem e (rfl | subject)
    · exact wf.linkObject link mem
    · exact wf.linkSubject link mem e subject
  refine ⟨wf.unitsNodup, wf.unitsChain, settled.single, wf.chainUnit,
    fun u j mem => inJobs j ⟨u, mem⟩, wf.chainInstalled, ?_, ?_, ?_, ?_, ?_, ?_, wf.queueNodup⟩
  · intro link mem e isEnd
    have inside := ends link mem e isEnd
    exact ⟨inJobs e inside, .inl (wf.inTransaction_chain inside)⟩
  · refine nodup_append.mpr ⟨wf.jobsNodup, (transactionHeads_nodup wf).filter _, ?_⟩
    rintro a inOld b inNew rfl
    have out := (mem_filter.mp inNew).2
    simp [wf.jobInstalled a inOld] at out
  · intro j mem
    rcases (mem_jobs j).mp mem with old | ⟨head, out⟩
    · exact .inl ⟨wf.jobInstalled j old, wf.jobMeta j old⟩
    · exact .inr ⟨out, heads j head⟩
  · intro j mem
    rcases (mem_jobs j).mp mem with old | ⟨head, _⟩
    · exact wf.jobFresh j old
    · exact wf.chainFresh _ j (heads j head)
  · intro u j found
    obtain ⟨inOld, unit⟩ := wf.metaJobs u j found
    exact ⟨(mem_jobs j).mpr (.inl inOld), unit, wf.jobInstalled j inOld⟩
  · intro j inQueue
    have inOld := wf.queueJobs j inQueue
    exact ⟨(mem_jobs j).mpr (.inl inOld), wf.jobInstalled j inOld⟩

theorem Quiescent.settled (quiet : Quiescent m) (wf : WellFormed m) : Settled m :=
  ⟨wf, fun u j mem => by simp [quiet.chain u] at mem⟩

section

variable [DecidableEq U]

variable {m : Manager U} {u : U} {j : JobId}

omit [DecidableEq U] in
theorem Settled.without (settled : Settled m) (gone : List JobId) : Settled (m.without gone) := by
  refine ⟨settled.wf.without gone, fun u j mem => ?_⟩
  obtain ⟨inChain, kept⟩ := (m.mem_without_chain gone u j).mp mem
  simp [Manager.without, settled.single u j inChain, kept]

theorem Settled.jobFree (settled : Settled m) (j : JobId) (mem : j ∈ m.jobs) :
    Settled (jobFree m j) := by
  obtain ⟨gone, _, freed⟩ := settled.wf.jobFree_installed mem
  refine ⟨settled.wf.jobFree j mem, ?_⟩
  rw [freed]
  exact (settled.without gone).single

theorem transactionCheck_settled {E : Units U} {mode : JobMode} {m' : Manager U} (wf : WellFormed m)
    (check : transactionCheck E mode m = (m', .ok ())) : Settled m' := by
  have result := transactionCheck_cases E mode m
  rw [check] at result
  cases result with
  | done m1 m2 _ round merged _ =>
    obtain ⟨_, _, screened⟩ := round.screened wf.marked.wf
    have outcome := transactionMergeJobs_cases m1 screened.pruned.wf
    rw [merged] at outcome
    cases outcome with
    | merged _ _ all =>
      have settled : Settled m2 := by
        refine ⟨all.step.wf, fun u j mem => ?_⟩
        rw [all.chain u] at mem ⊢
        rw [mem_toList.mp mem]
        rfl
      obtain ⟨gone, dropped, _⟩ := transactionDropRedundant_spec m2 all.step.wf
      rw [dropped]
      exact settled.without gone

theorem jobFree_replaced (u : U) (other : JobId) (found : m.metaJob u = some other)
    (unit : (m.job other).unit = u) (installed : (m.job other).installed = true)
    (queue : ∀ k ∈ m.runQueue, (m.job k).installed = true)
    (units : ∀ v ∈ m.transactionUnits, m.chain v ≠ [])
    (unlinked : ∀ link ∈ m.links, link.object ≠ other ∧ link.subject ≠ some other)
    (outside : ∀ v, other ∉ m.chain v) :
    jobFree m other =
      { m with
        job := update m.job other { m.job other with installed := false }
        metaJob := update m.metaJob u none
        jobs := m.jobs.erase other
        runQueue := m.runQueue.erase other } := by
  obtain ⟨gone, freed, cascade⟩ := jobFree_spec m other queue
  have only : ∀ d ∈ gone, d = other := by
    intro d inGone
    rcases cascade.reach d inGone with same | path
    · exact same
    · obtain ⟨_, _, link, inLinks, _, _, object⟩ := Relation.TransGen.tail'_iff.mp path
      exact absurd object (unlinked link inLinks).1
  have still : (jobDetach m other).without gone = jobDetach m other := by
    have tables : (jobDetach m other).chain = m.chain ∧
        (jobDetach m other).transactionUnits = m.transactionUnits ∧
        (jobDetach m other).links = m.links := by
      simp [jobDetach, installed, Manager.setJob]
    refine Manager.without_of_absent _ gone ?_ ?_ ?_
    · intro v j inChain inGone
      rw [tables.1, only j inGone] at inChain
      exact outside v inChain
    · intro v inUnits
      rw [tables.1]
      exact units v (tables.2.1 ▸ inUnits)
    · intro link inLinks
      rw [tables.2.2] at inLinks
      obtain ⟨object, subject⟩ := unlinked link inLinks
      refine ⟨fun inGone => object (only _ inGone), fun s same inGone => subject ?_⟩
      rw [same, only s inGone]
  rw [freed, still]
  simp [jobDetach, installed, unit, found, Manager.setJob]

def Manager.moved (m : Manager U) (u : U) (j : JobId) : Manager U :=
  { m with
    transactionUnits := m.transactionUnits.filter (· ≠ u)
    chain := update m.chain u []
    job := fun k =>
      if k = j then { m.job k with installed := true }
      else if m.metaJob u = some k then { m.job k with installed := false }
      else m.job k
    metaJob := update m.metaJob u (some j)
    jobs := m.jobs.filter fun k => k = j ∨ m.metaJob u ≠ some k
    runQueue :=
      if (m.job j).installed then m.runQueue
      else j :: m.runQueue.filter fun k => m.metaJob u ≠ some k }

section

variable (installing : Installing m)
include installing

section

variable (chain : m.chain u = [j])
include chain

omit [DecidableEq U] in
theorem Installing.unlinked_replaced {other : JobId} (found : m.metaJob u = some other)
    (different : other ≠ j) :
    (∀ v, other ∉ m.chain v) ∧
    ∀ link ∈ m.links, ∀ e, link.object = e ∨ link.subject = some e -> e ≠ other := by
  obtain ⟨-, unit, -⟩ := installing.metaJobs u other found
  have outside : ∀ v, other ∉ m.chain v := by
    intro v inChain
    have same : v = u := (installing.chainUnit v other inChain).symm.trans unit
    rw [same, chain] at inChain
    exact different (mem_singleton.mp inChain)
  refine ⟨outside, ?_⟩
  rintro link inLinks e isEnd rfl
  obtain ⟨_, inside | empty⟩ := installing.linkEnds link inLinks e isEnd
  · exact outside _ inside
  · rw [unit, chain] at empty
    cases empty

theorem Installing.installJob_again (installed : (m.job j).installed = true) :
    installJob m u = m.moved u j := by
  have head : m.transactionGet u = some j := by simp [Manager.transactionGet, chain]
  have found := installing.chainInstalled u j (by simp [chain]) installed
  have jobs : (m.jobs.filter fun k => decide (k = j ∨ m.metaJob u ≠ some k)) = m.jobs := by
    refine filter_eq_self.mpr fun k _ => ?_
    rw [found]
    by_cases same : j = k <;> simp [same, eq_comm]
  have metaJob : update m.metaJob u (some j) = m.metaJob := by
    rw [← found, update_eq_self]
  have job : (fun k => if k = j then { m.job k with installed := true }
      else if m.metaJob u = some k then { m.job k with installed := false } else m.job k) =
      m.job := by
    funext k
    by_cases same : k = j
    · rw [if_pos same, same, ← installed]
    · have other : m.metaJob u ≠ some k := by
        rw [found]
        exact fun eq => same (some.inj eq).symm
      rw [if_neg same, if_neg other]
  simp only [installJob, head, installed, if_true, Manager.moved, jobs, metaJob, job]

theorem Installing.installJob_first (out : (m.job j).installed = false) (found : m.metaJob u = none) :
    installJob m u = m.moved u j := by
  have head : m.transactionGet u = some j := by simp [Manager.transactionGet, chain]
  have notQueued : j ∉ m.runQueue := fun inQueue => by
    simp [(installing.queueJobs j inQueue).2] at out
  have job : update m.job j { m.job j with installed := true } = fun k =>
      if k = j then { m.job k with installed := true } else m.job k := by
    funext k
    by_cases same : k = j
    · simp [same]
    · simp [same]
  simp [installJob, head, out, found, Manager.moved, Manager.setJob, jobAddToRunQueue, notQueued,
    job]

theorem Installing.installJob_replaces {other : JobId} (out : (m.job j).installed = false)
    (found : m.metaJob u = some other) : installJob m u = m.moved u j := by
  have head : m.transactionGet u = some j := by simp [Manager.transactionGet, chain]
  have notQueued : j ∉ m.runQueue := fun inQueue => by
    simp [(installing.queueJobs j inQueue).2] at out
  obtain ⟨inJobs, unit, otherInstalled⟩ := installing.metaJobs u other found
  have different : other ≠ j := by
    rintro rfl
    simp [otherInstalled] at out
  obtain ⟨outside, unlinked⟩ := installing.unlinked_replaced chain found different
  let m1 : Manager U := { m with
    transactionUnits := m.transactionUnits.filter (· ≠ u)
    chain := update m.chain u [] }
  have freed : jobFree m1 other = _ := jobFree_replaced u other found unit otherInstalled
    (fun k inQueue => (installing.queueJobs k inQueue).2)
    (by
      intro v inUnits
      obtain ⟨inOld, ne⟩ := mem_filter.mp inUnits
      have away : v ≠ u := by simpa using ne
      simpa [m1, update_of_ne away] using (installing.unitsChain v).mp inOld)
    (fun link inLinks => ⟨unlinked link inLinks _ (.inl rfl),
      fun subject => unlinked link inLinks other (.inr subject) rfl⟩)
    (by
      intro v inChain
      by_cases same : v = u
      · simp [m1, same] at inChain
      · exact outside v (by simpa [m1, update_of_ne same] using inChain))
  have job : update (update m.job other { m.job other with installed := false }) j
      { m.job j with installed := true } = fun k =>
      if k = j then { m.job k with installed := true }
      else if other = k then { m.job k with installed := false } else m.job k := by
    funext k
    by_cases same : k = j
    · simp [same]
    · by_cases eq : k = other
      · subst eq
        simp [same]
      · simp [same, eq, Ne.symm eq, update_of_ne]
  have jobs : m.jobs.erase other = m.jobs.filter fun k => decide (k = j ∨ other ≠ k) := by
    rw [installing.jobsNodup.erase_eq_filter]
    apply filter_congr
    intro k _
    by_cases same : other = k
    · subst same
      simp [different]
    · simp [same, Ne.symm same]
  have queue : m.runQueue.erase other = m.runQueue.filter fun k => decide (other ≠ k) := by
    rw [installing.queueNodup.erase_eq_filter]
    apply filter_congr
    intro k _
    by_cases same : other = k
    · simp [same]
    · simp [same, Ne.symm same]
  have notLeft : j ∉ m.runQueue.filter fun k => decide (other ≠ k) :=
    fun h => notQueued (mem_filter.mp h).1
  simp only [installJob, head, out, found]
  simp only [m1] at freed
  simp only [Bool.false_eq_true, if_false, freed, Manager.setJob, Manager.moved, found, out]
  rw [update_of_ne different.symm, job, jobs, queue]
  simp [jobAddToRunQueue, notQueued]

end

theorem Installing.installJob_eq (u : U) (j : JobId) (chain : m.chain u = [j]) :
    installJob m u = m.moved u j := by
  cases installed : (m.job j).installed with
  | true => exact installing.installJob_again chain installed
  | false =>
    cases found : m.metaJob u with
    | none => exact installing.installJob_first chain installed found
    | some other => exact installing.installJob_replaces chain installed found

end

section

variable (m : Manager U) (u : U) (j : JobId)

theorem moved_chain (v : U) : (m.moved u j).chain v = if v = u then [] else m.chain v := by
  by_cases same : v = u <;> simp [Manager.moved, same]

theorem moved_unit (k : JobId) : ((m.moved u j).job k).unit = (m.job k).unit := by
  simp only [Manager.moved]
  split
  · rfl
  · split <;> rfl

theorem moved_installed : ((m.moved u j).job j).installed = true := by
  simp [Manager.moved]

variable {k : JobId}

theorem moved_job_other (ne : k ≠ j) (kept : m.metaJob u ≠ some k) : (m.moved u j).job k = m.job k := by
  simp [Manager.moved, ne, kept]

theorem mem_moved_jobs (k : JobId) :
    k ∈ (m.moved u j).jobs ↔ k ∈ m.jobs ∧ (k = j ∨ m.metaJob u ≠ some k) := by
  simp only [Manager.moved, mem_filter, decide_eq_true_eq]

theorem moved_metaJob_other {v : U} (ne : v ≠ u) : (m.moved u j).metaJob v = m.metaJob v := by
  simp [Manager.moved, update_of_ne ne]

variable {m u j}

theorem mem_moved_chain {v : U} (mem : k ∈ (m.moved u j).chain v) : v ≠ u ∧ k ∈ m.chain v := by
  rw [moved_chain] at mem
  by_cases same : v = u
  · simp [same] at mem
  · exact ⟨same, by simpa [same] using mem⟩

section

variable (installing : Installing m)
include installing

section

variable (chain : m.chain u = [j])
include chain

omit [DecidableEq U] in
theorem Installing.foreign (ne : (m.job k).unit ≠ u) : k ≠ j ∧ m.metaJob u ≠ some k := by
  have unit := installing.chainUnit u j (by simp [chain])
  exact ⟨fun same => ne (same ▸ unit), fun found => ne (installing.metaJobs u k found).2.1⟩

theorem Installing.moved_jobsCase :
    ∀ k ∈ (m.moved u j).jobs,
      ((m.moved u j).job k).installed = true ∧
        (m.moved u j).metaJob ((m.moved u j).job k).unit = some k ∨
      ((m.moved u j).job k).installed = false ∧
        k ∈ (m.moved u j).chain ((m.moved u j).job k).unit := by
  intro k inJobs
  obtain ⟨old, kept⟩ := (mem_moved_jobs m u j k).mp inJobs
  rw [moved_unit]
  by_cases same : k = j
  · subst same
    have unit := installing.chainUnit u k (by simp [chain])
    exact .inl ⟨moved_installed m u k, by simp [Manager.moved, unit]⟩
  · have notOther := kept.resolve_left same
    rw [moved_job_other m u j same notOther]
    rcases installing.jobsCase k old with ⟨installed, found⟩ | ⟨out, inside⟩
    · have ne : (m.job k).unit ≠ u := fun eq => notOther (eq ▸ found)
      exact .inl ⟨installed, (moved_metaJob_other m u j ne).trans found⟩
    · have ne : (m.job k).unit ≠ u := by
        intro eq
        rw [eq, chain] at inside
        exact same (mem_singleton.mp inside)
      rw [moved_chain, if_neg ne]
      exact .inr ⟨out, inside⟩

theorem Installing.moved_metaJobs :
    ∀ v k, (m.moved u j).metaJob v = some k ->
      k ∈ (m.moved u j).jobs ∧ ((m.moved u j).job k).unit = v ∧
        ((m.moved u j).job k).installed = true := by
  have mem : j ∈ m.chain u := by simp [chain]
  intro v k found
  rw [mem_moved_jobs, moved_unit]
  by_cases same : v = u
  · subst same
    obtain rfl : j = k := by simpa [Manager.moved] using found
    exact ⟨⟨installing.chainJobs v j mem, .inl rfl⟩, installing.chainUnit v j mem,
      moved_installed m v j⟩
  · rw [moved_metaJob_other m u j same] at found
    obtain ⟨old, unit, installed⟩ := installing.metaJobs v k found
    obtain ⟨notJ, notOther⟩ := installing.foreign chain (k := k) (by rwa [unit])
    rw [moved_job_other m u j notJ notOther]
    exact ⟨⟨old, .inr notOther⟩, unit, installed⟩

theorem Installing.moved_queueJobs :
    ∀ k ∈ (m.moved u j).runQueue, k ∈ (m.moved u j).jobs ∧ ((m.moved u j).job k).installed = true := by
  have mem : j ∈ m.chain u := by simp [chain]
  intro k inQueue
  rw [mem_moved_jobs]
  by_cases same : k = j
  · subst same
    exact ⟨⟨installing.chainJobs u k mem, .inl rfl⟩, moved_installed m u k⟩
  · have left : k ∈ m.runQueue ∧ m.metaJob u ≠ some k := by
      by_cases installed : (m.job j).installed = true
      · refine ⟨by simpa [Manager.moved, installed] using inQueue, ?_⟩
        rw [installing.chainInstalled u j mem installed]
        exact fun eq => same (some.inj eq).symm
      · simpa [Manager.moved, installed, same] using inQueue
    obtain ⟨old, notOther⟩ := left
    obtain ⟨inJobs, installed⟩ := installing.queueJobs k old
    rw [moved_job_other m u j same notOther]
    exact ⟨⟨inJobs, .inr notOther⟩, installed⟩

end

end

end

theorem Installing.moved (installing : Installing m) (u : U) (j : JobId)
    (chain : m.chain u = [j]) : Installing (m.moved u j) := by
  have foreignChain : ∀ v k, v ≠ u -> k ∈ m.chain v -> k ≠ j ∧ m.metaJob u ≠ some k :=
    fun v k ne h => installing.foreign chain (by rwa [installing.chainUnit v k h])
  refine ⟨installing.unitsNodup.filter _, ?_, ?_, ?_, ?_, ?_, ?_, installing.jobsNodup.filter _,
    installing.moved_jobsCase chain, ?_, installing.moved_metaJobs chain,
    installing.moved_queueJobs chain, ?_⟩
  · intro v
    rw [moved_chain]
    by_cases same : v = u
    · simp [Manager.moved, same]
    · simpa [Manager.moved, same] using installing.unitsChain v
  · intro v k h
    obtain ⟨ne, old⟩ := mem_moved_chain h
    rw [moved_chain, if_neg ne]
    exact installing.single v k old
  · intro v k h
    rw [moved_unit]
    exact installing.chainUnit v k (mem_moved_chain h).2
  · intro v k h
    obtain ⟨ne, old⟩ := mem_moved_chain h
    exact (mem_moved_jobs m u j k).mpr
      ⟨installing.chainJobs v k old, .inr (foreignChain v k ne old).2⟩
  · intro v k h installed
    obtain ⟨ne, old⟩ := mem_moved_chain h
    obtain ⟨notJ, notOther⟩ := foreignChain v k ne old
    rw [moved_job_other m u j notJ notOther] at installed
    rw [moved_metaJob_other m u j ne]
    exact installing.chainInstalled v k old installed
  · intro link inLinks e isEnd
    obtain ⟨inJobs, place⟩ := installing.linkEnds link inLinks e isEnd
    rw [moved_unit, moved_chain, mem_moved_jobs]
    by_cases same : (m.job e).unit = u
    · rw [same, chain] at place
      have eq : e = j := by
        rcases place with inside | empty
        · exact mem_singleton.mp inside
        · cases empty
      exact ⟨⟨inJobs, .inl eq⟩, .inr (by simp [same])⟩
    · exact ⟨⟨inJobs, .inr (installing.foreign chain same).2⟩, by simpa [same] using place⟩
  · exact fun k inJobs => installing.jobFresh k ((mem_moved_jobs m u j k).mp inJobs).1
  · by_cases installed : (m.job j).installed = true
    · simpa [Manager.moved, installed] using installing.queueNodup
    · have notQueued : j ∉ m.runQueue := fun inQueue => installed (installing.queueJobs j inQueue).2
      simpa [Manager.moved, installed, notQueued] using installing.queueNodup.filter _

theorem Installing.next (installing : Installing m) {rest : List U}
    (order : m.transactionUnits = u :: rest) :
    ∃ j, m.chain u = [j] ∧ (m.moved u j).transactionUnits = rest := by
  have inUnits : u ∈ m.transactionUnits := by simp [order]
  obtain ⟨j, mem⟩ := exists_mem_of_ne_nil _ ((installing.unitsChain u).mp inUnits)
  refine ⟨j, installing.single u j mem, ?_⟩
  have nodup := installing.unitsNodup
  rw [order] at nodup
  have others : ∀ v ∈ rest, ¬ v = u := fun v h same => (nodup_cons.mp nodup).1 (same ▸ h)
  simpa [Manager.moved, order] using others

theorem installAll_spec (units : List U) (m : Manager U) (installing : Installing m)
    (order : m.transactionUnits = units) :
    Installing (units.foldl installJob m) ∧
    (units.foldl installJob m).transactionUnits = [] ∧
    (units.foldl installJob m).links = m.links ∧
    (units.foldl installJob m).activeState = m.activeState ∧
    (units.foldl installJob m).currentJobId = m.currentJobId ∧
    (units.foldl installJob m).nReloading = m.nReloading ∧
    (∀ u, (units.foldl installJob m).metaJob u = (m.transactionGet u).or (m.metaJob u)) ∧
    ∀ k, (units.foldl installJob m).job k =
      { m.job k with installed := ((units.foldl installJob m).job k).installed } := by
  induction units generalizing m with
  | nil =>
    refine ⟨installing, order, rfl, rfl, rfl, rfl, fun u => ?_, fun _ => rfl⟩
    have empty : m.chain u = [] := by
      by_contra nonempty
      have inUnits := (installing.unitsChain u).mpr nonempty
      rw [order] at inUnits
      cases inUnits
    simp [Manager.transactionGet, empty]
  | cons u rest ih =>
    obtain ⟨j, chain, left⟩ := installing.next order
    obtain ⟨done, units, links, active, ids, reloading, metaJob, job⟩ :=
      ih (m.moved u j) (installing.moved u j chain) left
    rw [foldl_cons, installing.installJob_eq u j chain]
    refine ⟨done, units, links, active, ids, reloading, fun v => ?_, fun k => ?_⟩
    · rw [metaJob v]
      by_cases same : v = u
      · simp [Manager.transactionGet, Manager.moved, same, chain]
      · simp [Manager.transactionGet, Manager.moved, same]
    · rw [job k]
      simp only [Manager.moved]
      split
      · rfl
      · split <;> rfl

structure Installed (m m' : Manager U) : Prop where
  wf : WellFormed m'
  quiet : Quiescent m'
  activeState : m'.activeState = m.activeState
  currentJobId : m'.currentJobId = m.currentJobId
  nReloading : m'.nReloading = m.nReloading
  metaJob : ∀ u, m'.metaJob u = (m.transactionGet u).or (m.metaJob u)
  job : ∀ k, m'.job k = { m.job k with installed := (m'.job k).installed }

theorem installTransaction_spec (settled : Settled m) : Installed m (installTransaction m) := by
  obtain ⟨done, units, links, active, ids, reloading, metaJob, job⟩ :=
    installAll_spec (putNewJobs m).transactionUnits (putNewJobs m) (putNewJobs_installing settled) rfl
  simp only [installTransaction]
  revert done units links active ids reloading metaJob job
  generalize (putNewJobs m).transactionUnits.foldl installJob (putNewJobs m) = m1
  intro done units links active ids reloading metaJob job
  have chains : ∀ u, m1.chain u = [] := by
    intro u
    by_contra nonempty
    have inUnits := (done.unitsChain u).mpr nonempty
    rw [units] at inUnits
    cases inUnits
  have cleaned : transactionCleanDependencies m1 = { m1 with links := [] } := by
    have empty : (m1.links.filter fun link =>
        decide (link.object ∉ m1.jobs ∧ ∀ j ∈ m1.jobs, link.subject ≠ some j)) = [] := by
      refine filter_eq_nil_iff.mpr fun link inLinks => ?_
      have inJobs := (done.linkEnds link inLinks link.object (.inl rfl)).1
      simp [inJobs]
    simp only [transactionCleanDependencies, empty]
  rw [cleaned]
  have live : ∀ j ∈ m1.jobs, (m1.job j).installed = true ∧ m1.metaJob (m1.job j).unit = some j := by
    intro j mem
    rcases done.jobsCase j mem with installed | ⟨_, inside⟩
    · exact installed
    · simp [chains] at inside
  refine ⟨?_, ⟨units, chains, rfl⟩, active, ids, reloading, metaJob, job⟩
  refine ⟨by simp [units], by simp [units, chains], by simp [chains], by simp [chains],
    by simp [chains], by simp [chains], by simp, by simp, done.jobsNodup, fun j h => (live j h).1,
    fun j h => (live j h).2, done.jobFresh, fun u j found => ?_, fun j h => (done.queueJobs j h).1,
    done.queueNodup⟩
  obtain ⟨inJobs, unit, _⟩ := done.metaJobs u j found
  exact ⟨inJobs, unit⟩

end

end Systemd
