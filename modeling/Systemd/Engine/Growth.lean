import Systemd.Engine.Request
import Systemd.Engine.WellFormed

set_option autoImplicit false

namespace Systemd

open Loop List Option Function

variable {U : Type}

inductive Pulled (E : Units U) (call : AddCall U) : JobType -> U -> Prop where
  | root : Pulled E call call.type call.unit
  | pull (type : JobType) (u : U) (override : Bool) (pull : Pull) (dep : U) :
      call.ignoreRequirements = false -> Pulled E call type u -> pull ∈ pulls type override ->
      dep ∈ pullUnits E u pull.set -> Pulled E call pull.type dep

/-- The jobs that a call may put in: those it leads to by way of jobs that are not refused. -/
inductive Brought (E : Units U) (call : AddCall U) : JobType -> U -> Prop where
  | root : refusal E call.type call.unit = none -> Brought E call call.type call.unit
  | pull (type : JobType) (u : U) (override : Bool) (pull : Pull) (dep : U) :
      call.ignoreRequirements = false -> Brought E call type u -> pull ∈ pulls type override ->
      dep ∈ pullUnits E u pull.set -> refusal E pull.type dep = none -> Brought E call pull.type dep

variable {E : Units U} {call : AddCall U}

theorem Brought.pulled {type : JobType} {u : U} (brought : Brought E call type u) :
    Pulled E call type u := by
  induction brought with
  | root => exact .root
  | pull type u override pull dep requirements _ inPulls inUnits _ ih =>
    exact .pull type u override pull dep requirements ih inPulls inUnits

def PulledAlong (E : Units U) (type : JobType) (u : U) (type' : JobType) (u' : U) (matters : Bool) :
    Prop :=
  ∃ override, ∃ pull ∈ pulls type override,
    u' ∈ pullUnits E u pull.set ∧ type' = pull.type ∧ matters = pull.matters

def CallFrom (E : Units U) (m : Manager U) (call : AddCall U) : Prop :=
  ∀ r, call.requester = some r -> m.InTransaction r ∧
    PulledAlong E (m.job r).type (m.job r).unit call.type call.unit call.matters

def Job.Unmarked (job : Job U) : Prop :=
  job.generation = 0 ∧ job.marker = none ∧ job.mattersToAnchor = false

structure SameJob (job job' : Job U) : Prop where
  unit : job'.unit = job.unit
  type : job'.type = job.type
  state : job'.state = job.state
  installed : job'.installed = job.installed

theorem SameJob.refl (job : Job U) : SameJob job job := ⟨rfl, rfl, rfl, rfl⟩

theorem SameJob.trans {job job' job'' : Job U} (first : SameJob job job')
    (second : SameJob job' job'') : SameJob job job'' :=
  ⟨second.unit.trans first.unit, second.type.trans first.type, second.state.trans first.state,
    second.installed.trans first.installed⟩

structure Growth (E : Units U) (asked : JobType -> U -> Prop) (m m' : Manager U) : Prop where
  jobs : m'.jobs = m.jobs
  metaJob : m'.metaJob = m.metaJob
  activeState : m'.activeState = m.activeState
  runQueue : m'.runQueue = m.runQueue
  nReloading : m'.nReloading = m.nReloading
  ids : m.currentJobId ≤ m'.currentJobId
  kept : ∀ j < m.currentJobId, SameJob (m.job j) (m'.job j)
  marks : ∀ j, (m'.job j).Unmarked ∨
    (m'.job j).generation = (m.job j).generation ∧ (m'.job j).marker = (m.job j).marker ∧
      (m'.job j).mattersToAnchor = (m.job j).mattersToAnchor
  override : ∀ j < m.currentJobId, (m'.job j).override = (m.job j).override ∨
    ∃ u, j ∈ m'.chain u ∧ j ∉ m.chain u
  chain : ∀ u, ∃ added, m'.chain u = added ++ m.chain u ∧
    ∀ j ∈ added, asked (m'.job j).type u ∧ (m'.job j).Unmarked
  distinct : ∀ u, ∀ j ∈ m'.chain u, j ∉ m.chain u ->
    ∀ k ∈ m.chain u, (m'.job j).type ≠ (m'.job k).type
  reused : ∀ u, ∀ j ∈ m'.chain u, j ∉ m.chain u ->
    ∀ k, m.metaJob u = some k -> (m'.job j).type = (m'.job k).type -> j = k
  waiting : ∀ u, ∀ j ∈ m'.chain u, j ∉ m.chain u ->
    (m'.job j).installed = true ∨ (m'.job j).state = .waiting
  units : ∀ u ∈ m.transactionUnits, u ∈ m'.transactionUnits
  links : ∃ added, m'.links = added ++ m.links ∧ ∀ link ∈ added, ∀ s, link.subject = some s ->
    PulledAlong E (m'.job s).type (m'.job s).unit (m'.job link.object).type
      (m'.job link.object).unit link.matters

namespace Growth

variable {E : Units U} {asked asked' : JobType -> U -> Prop} {m m' m'' : Manager U}

theorem refl (m : Manager U) : Growth E asked m m where
  jobs := rfl
  metaJob := rfl
  activeState := rfl
  runQueue := rfl
  nReloading := rfl
  ids := le_refl _
  kept := fun _ _ => .refl _
  marks := fun _ => .inr ⟨rfl, rfl, rfl⟩
  override := fun _ _ => .inl rfl
  chain := fun _ => ⟨[], rfl, by simp⟩
  distinct := fun _ _ inside outside => absurd inside outside
  reused := fun _ _ inside outside => absurd inside outside
  waiting := fun _ _ inside outside => absurd inside outside
  units := fun _ h => h
  links := ⟨[], rfl, by simp⟩

variable {j : JobId}

section

variable (growth : Growth E asked m m')
include growth

theorem mem_chain {u : U} (mem : j ∈ m.chain u) : j ∈ m'.chain u := by
  obtain ⟨added, chain, _⟩ := growth.chain u
  rw [chain]
  exact mem_append_right _ mem

theorem inTransaction (mem : m.InTransaction j) : m'.InTransaction j := by
  obtain ⟨u, inChain⟩ := mem
  exact ⟨u, growth.mem_chain inChain⟩

theorem mem_links {link : JobDependency} (mem : link ∈ m.links) : link ∈ m'.links := by
  obtain ⟨added, links, _⟩ := growth.links
  rw [links]
  exact mem_append_right _ mem

theorem unmarked (fresh : (m.job j).Unmarked) : (m'.job j).Unmarked := by
  rcases growth.marks j with reset | ⟨generation, marker, matters⟩
  · exact reset
  · exact ⟨generation.trans fresh.1, marker.trans fresh.2.1, matters.trans fresh.2.2⟩

theorem mono (more : ∀ type u, asked type u -> asked' type u) : Growth E asked' m m' :=
  { growth with
    chain := by
      intro u
      obtain ⟨added, chain, all⟩ := growth.chain u
      exact ⟨added, chain, fun j mem => ⟨more _ _ (all j mem).1, (all j mem).2⟩⟩ }

end

theorem trans (wf : WellFormed m') (first : Growth E asked m m')
    (second : Growth E asked m' m'') : Growth E asked m m'' where
  jobs := second.jobs.trans first.jobs
  metaJob := second.metaJob.trans first.metaJob
  activeState := second.activeState.trans first.activeState
  runQueue := second.runQueue.trans first.runQueue
  nReloading := second.nReloading.trans first.nReloading
  ids := first.ids.trans second.ids
  kept := fun j small => (first.kept j small).trans (second.kept j (small.trans_le first.ids))
  marks := by
    intro j
    rcases second.marks j with reset | ⟨generation, marker, matters⟩
    · exact .inl reset
    · rcases first.marks j with reset | ⟨generation', marker', matters'⟩
      · exact .inl ⟨generation.trans reset.1, marker.trans reset.2.1, matters.trans reset.2.2⟩
      · exact .inr ⟨generation.trans generation', marker.trans marker', matters.trans matters'⟩
  override := by
    intro j small
    rcases second.override j (small.trans_le first.ids) with same | ⟨u, inside, outside⟩
    · rcases first.override j small with same' | ⟨u, inside, outside⟩
      · exact .inl (same.trans same')
      · exact .inr ⟨u, second.mem_chain inside, outside⟩
    · exact .inr ⟨u, inside, fun mem => outside (first.mem_chain mem)⟩
  chain := by
    intro u
    obtain ⟨added, chain, all⟩ := first.chain u
    obtain ⟨added', chain', all'⟩ := second.chain u
    refine ⟨added' ++ added, by rw [chain', chain, append_assoc], ?_⟩
    intro j mem
    rcases mem_append.mp mem with new | old
    · exact all' j new
    · have small := wf.chainFresh u j (by rw [chain]; exact mem_append_left _ old)
      exact ⟨(second.kept j small).type ▸ (all j old).1, second.unmarked (all j old).2⟩
  distinct := by
    intro u j inside outside k old
    have inMiddle := first.mem_chain old
    by_cases early : j ∈ m'.chain u
    · rw [(second.kept j (wf.chainFresh u j early)).type,
        (second.kept k (wf.chainFresh u k inMiddle)).type]
      exact first.distinct u j early outside k old
    · exact second.distinct u j inside early k inMiddle
  reused := by
    intro u j inside outside k found sameType
    have found' : m'.metaJob u = some k := (congrFun first.metaJob u).trans found
    by_cases early : j ∈ m'.chain u
    · rw [(second.kept j (wf.chainFresh u j early)).type,
        (second.kept k (wf.jobFresh k (wf.metaJobs u k found').1)).type] at sameType
      exact first.reused u j early outside k found sameType
    · exact second.reused u j inside early k found' sameType
  waiting := by
    intro u j inside outside
    by_cases early : j ∈ m'.chain u
    · rw [(second.kept j (wf.chainFresh u j early)).state, (second.kept j (wf.chainFresh u j early)).installed]
      exact first.waiting u j early outside
    · exact second.waiting u j inside early
  units := fun u h => second.units u (first.units u h)
  links := by
    obtain ⟨added, links, all⟩ := first.links
    obtain ⟨added', links', all'⟩ := second.links
    refine ⟨added' ++ added, by rw [links', links, append_assoc], ?_⟩
    intro link mem s subject
    rcases mem_append.mp mem with new | old
    · exact all' link new s subject
    · have known : link ∈ m'.links := by
        rw [links]
        exact mem_append_left _ old
      obtain ⟨u, inS⟩ := wf.linkSubject link known s subject
      obtain ⟨v, inO⟩ := wf.linkObject link known
      have sameS := second.kept s (wf.chainFresh u s inS)
      have sameO := second.kept link.object (wf.chainFresh v _ inO)
      rw [sameS.type, sameS.unit, sameO.type, sameO.unit]
      exact all link old s subject

theorem callFrom (wf : WellFormed m) (growth : Growth E asked m m') (valid : CallFrom E m call) :
    CallFrom E m' call := by
  intro r requester
  obtain ⟨inside, along⟩ := valid r requester
  obtain ⟨u, inChain⟩ := inside
  have same := growth.kept r (wf.chainFresh u r inChain)
  exact ⟨growth.inTransaction ⟨u, inChain⟩, by rwa [same.type, same.unit]⟩

end Growth

structure Placed (m : Manager U) (call : AddCall U) (ret : JobId) : Prop where
  mem : ret ∈ m.chain call.unit
  type : (m.job ret).type = call.type
  link : ⟨call.requester, ret, call.matters, call.conflicts⟩ ∈ m.links

theorem Placed.grow {asked : JobType -> U -> Prop} {m m' : Manager U} (wf : WellFormed m)
    (growth : Growth E asked m m') {ret : JobId} (placed : Placed m call ret) : Placed m' call ret :=
  ⟨growth.mem_chain placed.mem,
    (growth.kept ret (wf.chainFresh _ ret placed.mem)).type.trans placed.type,
    growth.mem_links placed.link⟩

section

variable [DecidableEq U]

structure AddSpec (E : Units U) (add : AddFunction U) : Prop where
  wf : ∀ m call, WellFormed m -> CallFrom E m call -> WellFormed (add m call).1
  growth : ∀ m call, WellFormed m -> CallFrom E m call -> Growth E (Brought E call) m (add m call).1
  placed : ∀ m call, WellFormed m -> CallFrom E m call -> ∀ ret, (add m call).2 = .ok ret ->
    Placed (add m call).1 call ret
  anchors : ∀ m call, WellFormed m -> CallFrom E m call -> ∀ link ∈ (add m call).1.links,
    link.subject = none -> link ∈ m.links ∨ call.requester = none ∧
      ((add m call).1.job link.object).type = call.type ∧
      ((add m call).1.job link.object).unit = call.unit

variable {m : Manager U} {type : JobType} {E : Units U} {u : U} {call : AddCall U}
  {item : Pull × AddCall U} {ret : JobId}

omit [DecidableEq U] in
theorem WellFormed.jobNew (wf : WellFormed m) (type : JobType) (u : U) :
    WellFormed (jobNew m type u).1 := by
  have chainNe : ∀ v, ∀ j ∈ m.chain v, j ≠ m.currentJobId :=
    fun v j h => (wf.chainFresh v j h).ne
  have jobsNe : ∀ j ∈ m.jobs, j ≠ m.currentJobId := fun j h => (wf.jobFresh j h).ne
  refine ⟨wf.unitsNodup, wf.unitsChain, wf.chainNodup, ?_, ?_, ?_, wf.linkObject, wf.linkSubject,
    wf.jobsNodup, ?_, ?_, ?_, ?_, wf.queueJobs, wf.queueNodup⟩
  · intro v j h
    simpa [Systemd.jobNew, update_of_ne (chainNe v j h)] using wf.chainUnit v j h
  · intro v j h installed
    simp only [Systemd.jobNew, update_of_ne (chainNe v j h)] at installed
    exact wf.chainInstalled v j h installed
  · exact fun v j h => (wf.chainFresh v j h).trans (Nat.lt_succ_self _)
  · intro j h
    simpa [Systemd.jobNew, update_of_ne (jobsNe j h)] using wf.jobInstalled j h
  · intro j h
    simpa [Systemd.jobNew, update_of_ne (jobsNe j h)] using wf.jobMeta j h
  · exact fun j h => (wf.jobFresh j h).trans (Nat.lt_succ_self _)
  · intro v j found
    obtain ⟨inJobs, unit⟩ := wf.metaJobs v j found
    exact ⟨inJobs, by simpa [Systemd.jobNew, update_of_ne (jobsNe j inJobs)] using unit⟩

theorem WellFormed.prepend (wf : WellFormed m) (u : U) (j : JobId) (outside : j ∉ m.chain u)
    (unit : (m.job j).unit = u) (installed : (m.job j).installed = true -> m.metaJob u = some j)
    (fresh : j < m.currentJobId) : WellFormed (transactionPrepend m u j) := by
  have chains : ∀ v, (transactionPrepend m u j).chain v =
      if v = u then j :: m.chain u else m.chain v := by
    intro v
    by_cases same : v = u
    · simp [transactionPrepend, same]
    · simp [transactionPrepend, same]
  have mem_chain : ∀ v k, k ∈ (transactionPrepend m u j).chain v ->
      (v = u ∧ k = j) ∨ k ∈ m.chain v := by
    intro v k h
    rw [chains] at h
    by_cases same : v = u
    · subst same
      simpa using h
    · exact .inr (by simpa [same] using h)
  have keeps : ∀ k, m.InTransaction k -> (transactionPrepend m u j).InTransaction k := by
    rintro k ⟨v, h⟩
    refine ⟨v, ?_⟩
    rw [chains]
    by_cases same : v = u
    · subst same
      simp [h]
    · simpa [same] using h
  refine ⟨?_, ?_, ?_, ?_, ?_, ?_, fun l h => keeps _ (wf.linkObject l h),
    fun l h s subject => keeps s (wf.linkSubject l h s subject), wf.jobsNodup, wf.jobInstalled,
    wf.jobMeta, wf.jobFresh, wf.metaJobs, wf.queueJobs, wf.queueNodup⟩
  · by_cases empty : m.chain u = []
    · have out : u ∉ m.transactionUnits := fun h => (wf.unitsChain u).mp h empty
      simp only [transactionPrepend, empty, if_true]
      exact nodup_append.mpr ⟨wf.unitsNodup, by simp, by
        rintro a inUnits b inSingle rfl
        exact out (mem_singleton.mp inSingle ▸ inUnits)⟩
    · simpa [transactionPrepend, empty] using wf.unitsNodup
  · intro v
    rw [chains]
    by_cases same : v = u
    · subst same
      by_cases empty : m.chain v = []
      · simp [transactionPrepend, empty]
      · simpa [transactionPrepend, empty] using (wf.unitsChain v).mpr empty
    · by_cases empty : m.chain u = []
      · simpa [transactionPrepend, empty, same] using wf.unitsChain v
      · simpa [transactionPrepend, empty, same] using wf.unitsChain v
  · intro v
    rw [chains]
    by_cases same : v = u
    · simpa [same] using ⟨outside, wf.chainNodup u⟩
    · simpa [same] using wf.chainNodup v
  · intro v k h
    rcases mem_chain v k h with ⟨rfl, rfl⟩ | old
    · exact unit
    · exact wf.chainUnit v k old
  · intro v k h isInstalled
    rcases mem_chain v k h with ⟨rfl, rfl⟩ | old
    · exact installed isInstalled
    · exact wf.chainInstalled v k old isInstalled
  · intro v k h
    rcases mem_chain v k h with ⟨rfl, rfl⟩ | old
    · exact fresh
    · exact wf.chainFresh v k old

/-- A job of a new type for a unit: the installed one if that has the type, else one made for it. -/
structure Added (E : Units U) (m : Manager U) (type : JobType) (u : U) (m' : Manager U)
    (ret : JobId) : Prop where
  wf : WellFormed m'
  growth : Growth E (fun type' u' => type' = type ∧ u' = u) m m'
  absent : ∀ j ∈ m.chain u, (m.job j).type ≠ type
  chain : m'.chain u = ret :: m.chain u
  others : ∀ v, v ≠ u -> m'.chain v = m.chain v
  links : m'.links = m.links
  typed : (m'.job ret).type = type
  reused : ∀ k, m.metaJob u = some k -> (m.job k).type = type -> ret = k

theorem Added.prepend (m1 : Manager U) (ret : JobId) (wf : WellFormed m1)
    (growth : Growth E (fun type' u' => type' = type ∧ u' = u) m m1)
    (same : m1.chain = m.chain) (links : m1.links = m.links)
    (absent : ∀ j ∈ m.chain u, (m.job j).type ≠ type) (outside : ret ∉ m.chain u)
    (unit : (m1.job ret).unit = u) (typed : (m1.job ret).type = type)
    (installed : (m1.job ret).installed = true -> m.metaJob u = some ret) (fresh : ret < m1.currentJobId)
    (reused : ∀ k, m.metaJob u = some k -> (m.job k).type = type -> ret = k)
    (known : ∀ k, k ∈ m.chain u ∨ m.metaJob u = some k -> k < m.currentJobId)
    (waiting : (m1.job ret).installed = true ∨ (m1.job ret).state = .waiting) (override : Bool) :
    Added E m type u (transactionPrepend (m1.setJob ret fun job =>
      { job with generation := 0, marker := none, mattersToAnchor := false, override := override })
      u ret) ret := by
  have wfReset : WellFormed (m1.setJob ret fun job =>
      { job with generation := 0, marker := none, mattersToAnchor := false, override := override }) :=
    wf.setJob ret _ (fun _ => rfl) (fun _ => rfl)
  have here : ∀ k, (m1.setJob ret fun job => { job with
        generation := 0, marker := none, mattersToAnchor := false, override := override }).job k =
      if k = ret then { m1.job ret with
        generation := 0, marker := none, mattersToAnchor := false, override := override }
      else m1.job k := by
    intro k
    by_cases eq : k = ret
    · simp [Manager.setJob, eq]
    · simp [Manager.setJob, eq]
  refine ⟨wfReset.prepend u ret (by simpa [Manager.setJob, same] using outside) ?_ ?_ fresh, ?_, absent,
    ?_, ?_, links, ?_, reused⟩
  · rw [here]
    simpa using unit
  · rw [here]
    simp only [if_true]
    intro isInstalled
    exact (congrFun growth.metaJob u).trans (installed isInstalled)
  · refine ⟨growth.jobs, growth.metaJob, growth.activeState, growth.runQueue, growth.nReloading,
      growth.ids, ?_, ?_, ?_, ?_, ?_, ?_, ?_, ?_, ?_⟩
    · intro j small
      have before := growth.kept j small
      by_cases eq : j = ret
      · subst eq
        exact ⟨by simp [transactionPrepend, here, before.unit], by simp [transactionPrepend, here, before.type],
          by simp [transactionPrepend, here, before.state],
          by simp [transactionPrepend, here, before.installed]⟩
      · simpa [transactionPrepend, here, eq] using before
    · intro j
      by_cases eq : j = ret
      · exact .inl (by simp [transactionPrepend, here, eq, Job.Unmarked])
      · simpa [transactionPrepend, here, eq] using growth.marks j
    · intro j small
      by_cases eq : j = ret
      · exact .inr ⟨u, by simp [transactionPrepend, eq], eq ▸ outside⟩
      · rcases growth.override j small with kept | ⟨v, inside, out⟩
        · exact .inl (by simpa [transactionPrepend, here, eq] using kept)
        · exact absurd (same ▸ inside) out
    · intro v
      by_cases eq : v = u
      · subst eq
        refine ⟨[ret], by simp [transactionPrepend, Manager.setJob, same], ?_⟩
        intro j mem
        obtain rfl := mem_singleton.mp mem
        exact ⟨⟨by simp [transactionPrepend, here, typed], rfl⟩,
          by simp [transactionPrepend, here, Job.Unmarked]⟩
      · exact ⟨[], by simp [transactionPrepend, Manager.setJob, same, eq], by simp⟩
    · intro v j inside out k old
      by_cases eq : v = u
      · subst eq
        obtain rfl : j = ret := by
          simpa [transactionPrepend, Manager.setJob, same, out] using inside
        have ne : k ≠ j := fun h => outside (h ▸ old)
        simp only [transactionPrepend, here, if_true, ne, if_false, typed]
        rw [(growth.kept k (known k (.inl old))).type]
        exact fun h => absent k old h.symm
      · exact absurd (by simpa [transactionPrepend, Manager.setJob, same, eq] using inside) out
    · intro v j inside out k found sameType
      by_cases eq : v = u
      · subst eq
        obtain rfl : j = ret := by
          simpa [transactionPrepend, Manager.setJob, same, out] using inside
        by_cases ne : k = j
        · exact ne.symm
        · simp only [transactionPrepend, here, if_true, ne, if_false, typed] at sameType
          rw [(growth.kept k (known k (.inr found))).type] at sameType
          exact reused k found sameType.symm
      · exact absurd (by simpa [transactionPrepend, Manager.setJob, same, eq] using inside) out
    · intro v j inside out
      by_cases eq : v = u
      · subst eq
        obtain rfl : j = ret := by
          simpa [transactionPrepend, Manager.setJob, same, out] using inside
        simpa [transactionPrepend, here] using waiting
      · exact absurd (by simpa [transactionPrepend, Manager.setJob, same, eq] using inside) out
    · intro v mem
      have kept := growth.units v mem
      by_cases empty : m1.chain u = []
      · simp [transactionPrepend, Manager.setJob, empty, kept]
      · simpa [transactionPrepend, Manager.setJob, empty] using kept
    · exact ⟨[], by simpa [transactionPrepend, Manager.setJob] using links, by simp⟩
  · simp [transactionPrepend, Manager.setJob, same]
  · intro v eq
    simp [transactionPrepend, Manager.setJob, same, eq]
  · simp [transactionPrepend, here, typed]

omit [DecidableEq U] in
theorem jobNew_growth (E : Units U) (asked : JobType -> U -> Prop) (m : Manager U) (type : JobType)
    (u : U) : Growth E asked m (jobNew m type u).1 where
  jobs := rfl
  metaJob := rfl
  activeState := rfl
  runQueue := rfl
  nReloading := rfl
  ids := Nat.le_succ _
  kept := by
    intro j small
    simp only [jobNew, update_of_ne small.ne]
    exact .refl _
  marks := by
    intro j
    by_cases eq : j = m.currentJobId
    · exact .inl (by simp [jobNew, eq, Job.Unmarked])
    · exact .inr (by simp [jobNew, update_of_ne eq])
  override := by
    intro j small
    exact .inl (by simp [jobNew, update_of_ne small.ne])
  chain := fun _ => ⟨[], rfl, by simp⟩
  distinct := fun _ _ inside outside => absurd inside outside
  reused := fun _ _ inside outside => absurd inside outside
  waiting := fun _ _ inside outside => absurd inside outside
  units := fun _ h => h
  links := ⟨[], rfl, by simp⟩

theorem transactionAddOneJob_spec (E : Units U) (wf : WellFormed m) {override : Bool} (m' : Manager U)
    (ret : JobId) (isNew : Bool) (added : transactionAddOneJob m type u override = (m', ret, isNew)) :
    (isNew = false ∧ m' = m ∧ ret ∈ m.chain u ∧ (m.job ret).type = type) ∨
    (isNew = true ∧ Added E m type u m' ret) := by
  unfold transactionAddOneJob at added
  cases found : (m.chain u).find? fun j => decide ((m.job j).type = type) with
  | some j =>
    obtain ⟨rfl, rfl, rfl⟩ : m = m' ∧ j = ret ∧ false = isNew := by simpa [found] using added
    exact .inl ⟨rfl, rfl, mem_of_find?_eq_some found, by simpa using find?_some found⟩
  | none =>
    have absent : ∀ j ∈ m.chain u, (m.job j).type ≠ type := fun j mem => by
      simpa using find?_eq_none.mp found j mem
    have known : ∀ k, k ∈ m.chain u ∨ m.metaJob u = some k -> k < m.currentJobId := by
      rintro k (inChain | found)
      · exact wf.chainFresh u k inChain
      · exact wf.jobFresh k (wf.metaJobs u k found).1
    have make (missing : ∀ k, m.metaJob u = some k -> (m.job k).type ≠ type) :
        Added E m type u (transactionPrepend ((jobNew m type u).1.setJob (jobNew m type u).2
          fun job => { job with
            generation := 0, marker := none, mattersToAnchor := false, override := override })
          u (jobNew m type u).2) (jobNew m type u).2 :=
      Added.prepend (jobNew m type u).1 (jobNew m type u).2 (wf.jobNew type u)
        (jobNew_growth E _ m type u) rfl rfl absent
        (fun mem => (wf.chainFresh u _ mem).ne rfl) (by simp [jobNew]) (by simp [jobNew])
        (by simp [jobNew]) (Nat.lt_succ_self _)
        (fun k installed same => absurd same (missing k installed)) known (.inr (by simp [jobNew])) override
    refine .inr ?_
    cases installed : m.metaJob u with
    | none =>
      obtain ⟨rfl, rfl, rfl⟩ : _ = m' ∧ (jobNew m type u).2 = ret ∧ true = isNew := by
        simpa [found, installed] using added
      exact ⟨rfl, make (by simp [installed])⟩
    | some k =>
      by_cases same : (m.job k).type = type
      · obtain ⟨rfl, rfl, rfl⟩ : _ = m' ∧ k = ret ∧ true = isNew := by
          simpa [found, installed, same] using added
        obtain ⟨inJobs, unit⟩ := wf.metaJobs u k installed
        refine ⟨rfl, Added.prepend m k wf (.refl m) rfl rfl absent (fun mem => absent k mem same)
          unit same (fun _ => installed) (wf.jobFresh k inJobs) ?_ known
          (.inl (wf.jobInstalled k inJobs)) override⟩
        intro other otherInstalled _
        exact some.inj (installed.symm.trans otherInstalled)
      · obtain ⟨rfl, rfl, rfl⟩ : _ = m' ∧ (jobNew m type u).2 = ret ∧ true = isNew := by
          simpa [found, installed, same] using added
        refine ⟨rfl, make ?_⟩
        intro other otherInstalled
        rwa [← some.inj (installed.symm.trans otherInstalled)]

omit [DecidableEq U] in
theorem WellFormed.jobDependencyNew (wf : WellFormed m) (subject : Option JobId) (object : JobId)
    (matters conflicts : Bool) (inside : m.InTransaction object)
    (subjects : ∀ s, subject = some s -> m.InTransaction s) :
    WellFormed (jobDependencyNew m subject object matters conflicts) :=
  { wf with
    linkObject := by
      intro link mem
      rcases mem_cons.mp mem with rfl | old
      · exact inside
      · exact wf.linkObject link old
    linkSubject := by
      intro link mem s same
      rcases mem_cons.mp mem with rfl | old
      · exact subjects s same
      · exact wf.linkSubject link old s same }

-- The part of a call before it turns to the dependencies.
def enterJob (m : Manager U) (call : AddCall U) (ret : JobId) : Manager U :=
  jobDependencyNew
    (m.setJob ret fun job => { job with ignoreOrder := job.ignoreOrder || call.ignoreOrder })
    call.requester ret call.matters call.conflicts

section

omit [DecidableEq U]

theorem enterJob_spec (wf : WellFormed m) (valid : CallFrom E m call) (mem : ret ∈ m.chain call.unit)
    (typed : (m.job ret).type = call.type) (asked : JobType -> U -> Prop) :
    WellFormed (enterJob m call ret) ∧ Growth E asked m (enterJob m call ret) ∧
      Placed (enterJob m call ret) call ret := by
  have same : ∀ j, SameJob (m.job j) ((enterJob m call ret).job j) := by
    intro j
    by_cases eq : j = ret
    · subst eq
      exact ⟨by simp [enterJob, jobDependencyNew, Manager.setJob],
        by simp [enterJob, jobDependencyNew, Manager.setJob],
        by simp [enterJob, jobDependencyNew, Manager.setJob],
        by simp [enterJob, jobDependencyNew, Manager.setJob]⟩
    · simp only [enterJob, jobDependencyNew, Manager.setJob, update_of_ne eq]
      exact .refl _
  have marks : ∀ j, (enterJob m call ret).job j = { m.job j with
      ignoreOrder := ((enterJob m call ret).job j).ignoreOrder } := by
    intro j
    by_cases eq : j = ret
    · simp [enterJob, jobDependencyNew, Manager.setJob, eq]
    · simp [enterJob, jobDependencyNew, Manager.setJob, update_of_ne eq]
  refine ⟨?_, ?_, mem, (same ret).type.trans typed, by simp [enterJob, jobDependencyNew]⟩
  · have wfJob := wf.setJob ret
      (fun job => { job with ignoreOrder := job.ignoreOrder || call.ignoreOrder })
      (fun _ => rfl) (fun _ => rfl)
    exact wfJob.jobDependencyNew _ _ _ _ ⟨_, mem⟩ fun s requester => (valid s requester).1
  · refine ⟨rfl, rfl, rfl, rfl, rfl, le_refl _, fun j _ => same j, ?_, ?_, fun u => ⟨[], rfl, by simp⟩,
      fun _ _ inside outside => absurd inside outside, fun _ _ inside outside => absurd inside outside,
      fun _ _ inside outside => absurd inside outside, fun u h => h,
      ⟨[⟨call.requester, ret, call.matters, call.conflicts⟩], rfl, ?_⟩⟩
    · exact fun j => .inr (by rw [marks j]; exact ⟨rfl, rfl, rfl⟩)
    · exact fun j _ => .inl (by rw [marks j])
    · intro link inLinks s requester
      obtain rfl := mem_singleton.mp inLinks
      rw [(same s).type, (same s).unit, (same ret).type, (same ret).unit, typed,
        wf.chainUnit call.unit ret mem]
      exact (valid s requester).2

theorem pullCalls_mem (mem : item ∈ pullCalls E call ret) :
    item.1 ∈ pulls call.type call.override ∧ item.2.unit ∈ pullUnits E call.unit item.1.set ∧
      item.2.type = item.1.type ∧ item.2.matters = item.1.matters ∧
      item.2.override = item.1.override ∧ item.2.requester = some ret ∧
      item.2.ignoreRequirements = false := by
  obtain ⟨pull, inPulls, inItems⟩ := mem_flatMap.mp mem
  obtain ⟨dep, inUnits, rfl⟩ := mem_map.mp inItems
  exact ⟨inPulls, inUnits, rfl, rfl, rfl, rfl, rfl⟩

theorem Pulled.nested (requirements : call.ignoreRequirements = false)
    (mem : item ∈ pullCalls E call ret) (pulled : Pulled E item.2 type u) : Pulled E call type u := by
  obtain ⟨inPulls, inUnits, sameType, _, _, _, _⟩ := pullCalls_mem mem
  induction pulled with
  | root =>
    rw [sameType]
    exact .pull call.type call.unit call.override item.1 item.2.unit requirements .root inPulls inUnits
  | pull type u override pull dep _ _ inPulls' inUnits' ih =>
    exact .pull type u override pull dep requirements ih inPulls' inUnits'

theorem Brought.nested (requirements : call.ignoreRequirements = false)
    (accepted : refusal E call.type call.unit = none) (mem : item ∈ pullCalls E call ret)
    (brought : Brought E item.2 type u) : Brought E call type u := by
  obtain ⟨inPulls, inUnits, sameType, _, _, _, _⟩ := pullCalls_mem mem
  induction brought with
  | root passes =>
    rw [sameType] at passes ⊢
    exact .pull call.type call.unit call.override item.1 item.2.unit requirements (.root accepted)
      inPulls inUnits passes
  | pull type u override pull dep _ _ inPulls' inUnits' passes ih =>
    exact .pull type u override pull dep requirements ih inPulls' inUnits' passes

theorem pullIn_state (add : AddFunction U) (m : Manager U) (pull : Pull × AddCall U) :
    (pullIn add m pull).1 = (add m pull.2).1 := by
  unfold pullIn
  cases result : add m pull.2 with
  | mk m' outcome =>
    cases outcome with
    | ok => rfl
    | error e =>
      simp only
      split <;> rfl

theorem pullCalls_valid (wf : WellFormed m) (placed : Placed m call ret)
    (mem : item ∈ pullCalls E call ret) : CallFrom E m item.2 := by
  obtain ⟨inPulls, inUnits, type, matters, _, requester, _⟩ := pullCalls_mem mem
  intro r same
  obtain rfl : ret = r := some.inj (requester.symm.trans same)
  refine ⟨⟨_, placed.mem⟩, call.override, item.1, ?_, ?_, type, matters⟩
  · rw [placed.type]
    exact inPulls
  · rw [wf.chainUnit _ _ placed.mem]
    exact inUnits

theorem pullIn_steps {add : AddFunction U} (spec : AddSpec E add)
    (requirements : call.ignoreRequirements = false) (accepted : refusal E call.type call.unit = none)
    (placed : Placed m call ret) (items : List (Pull × AddCall U))
    (known : ∀ item ∈ items, item ∈ pullCalls E call ret) (wf : WellFormed m) :
    WellFormed (forEach (pullIn add) m items).1 ∧
      Growth E (Brought E call) m (forEach (pullIn add) m items).1 ∧
      ∀ link ∈ (forEach (pullIn add) m items).1.links, link.subject = none -> link ∈ m.links := by
  let Step (m1 m2 : Manager U) : Prop := WellFormed m1 -> Placed m1 call ret ->
    WellFormed m2 ∧ Growth E (Brought E call) m1 m2 ∧
      ∀ link ∈ m2.links, link.subject = none -> link ∈ m1.links
  have all : Step m (forEach (pullIn add) m items).1 := by
    apply forEach_always (pullIn add) Step
    · exact fun m wf _ => ⟨wf, .refl m, fun _ h _ => h⟩
    · intro a b c first second wf placed
      obtain ⟨wfB, growthB, anchorsB⟩ := first wf placed
      obtain ⟨wfC, growthC, anchorsC⟩ := second wfB (placed.grow wf growthB)
      exact ⟨wfC, growthB.trans wfB growthC, fun link mem anchor =>
        anchorsB link (anchorsC link mem anchor) anchor⟩
    · intro item mem m wf placed
      have inCalls := known item mem
      obtain ⟨_, _, _, _, _, requester, _⟩ := pullCalls_mem inCalls
      have valid := pullCalls_valid wf placed inCalls
      rw [pullIn_state]
      refine ⟨spec.wf m item.2 wf valid,
        (spec.growth m item.2 wf valid).mono fun _ _ => Brought.nested requirements accepted inCalls, ?_⟩
      intro link mem anchor
      refine (spec.anchors m item.2 wf valid link mem anchor).resolve_right ?_
      rintro ⟨nobody, _⟩
      rw [requester] at nobody
      cases nobody
  exact all wf placed

end

theorem addJobAndDependencies_eq (add : AddFunction U) (m1 : Manager U) (ret : JobId) (isNew : Bool)
    (accepted : refusal E call.type call.unit = none)
    (one : transactionAddOneJob m call.type call.unit call.override = (m1, ret, isNew)) :
    addJobAndDependencies E add m call =
      if isNew = true ∧ call.ignoreRequirements = false then
        match forEach (pullIn add) (enterJob m1 call ret) (pullCalls E call ret) with
        | (m, .ok ()) => (m, .ok ret)
        | (m, .error e) => (m, .error e)
      else (enterJob m1 call ret, .ok ret) := by
  unfold addJobAndDependencies
  simp only [accepted, one, Bool.and_eq_true, Bool.not_eq_true']
  rfl

theorem addJobAndDependencies_spec (E : Units U) (add : AddFunction U) (spec : AddSpec E add) :
    AddSpec E (addJobAndDependencies E add) := by
  have all : ∀ m call, WellFormed m -> CallFrom E m call ->
      WellFormed (addJobAndDependencies E add m call).1 ∧
      Growth E (Brought E call) m (addJobAndDependencies E add m call).1 ∧
      (∀ ret, (addJobAndDependencies E add m call).2 = .ok ret ->
        Placed (addJobAndDependencies E add m call).1 call ret) ∧
      ∀ link ∈ (addJobAndDependencies E add m call).1.links, link.subject = none ->
        link ∈ m.links ∨ call.requester = none ∧
          ((addJobAndDependencies E add m call).1.job link.object).type = call.type ∧
          ((addJobAndDependencies E add m call).1.job link.object).unit = call.unit := by
    intro m call wf valid
    cases refused : refusal E call.type call.unit with
    | some e =>
      simp only [addJobAndDependencies, refused]
      exact ⟨wf, .refl m, fun ret failed => (by cases failed), fun _ mem _ => .inl mem⟩
    | none =>
      cases one : transactionAddOneJob m call.type call.unit call.override with
      | mk m1 rest =>
        obtain ⟨ret, isNew⟩ := rest
        have addedOne : WellFormed m1 ∧ Growth E (Brought E call) m m1 ∧
            ret ∈ m1.chain call.unit ∧ (m1.job ret).type = call.type ∧
            m1.links = m.links := by
          rcases transactionAddOneJob_spec E wf m1 ret isNew one with
            ⟨_, rfl, mem, typed⟩ | ⟨_, added⟩
          · exact ⟨wf, .refl m1, mem, typed, rfl⟩
          · refine ⟨added.wf, added.growth.mono ?_, by simp [added.chain], added.typed, added.links⟩
            rintro _ _ ⟨rfl, rfl⟩
            exact .root refused
        obtain ⟨wf1, growth1, mem, typed, links1⟩ := addedOne
        obtain ⟨wf2, growth2, placed⟩ := enterJob_spec wf1 (growth1.callFrom wf valid)
          mem typed (Brought E call)
        have growth := growth1.trans wf1 growth2
        have anchors2 : ∀ link ∈ (enterJob m1 call ret).links, link.subject = none ->
            link ∈ m.links ∨ call.requester = none ∧ link.object = ret := by
          intro link inLinks anchor
          rcases mem_cons.mp inLinks with rfl | old
          · exact .inr ⟨anchor, rfl⟩
          · exact .inl (links1 ▸ old)
        rw [addJobAndDependencies_eq add m1 ret isNew refused one]
        by_cases recurse : isNew = true ∧ call.ignoreRequirements = false
        · obtain ⟨wf3, growth3, anchors3⟩ := pullIn_steps spec recurse.2 refused placed
            (pullCalls E call ret) (fun _ h => h) wf2
          rw [if_pos recurse]
          cases loop : forEach (pullIn add) (enterJob m1 call ret) (pullCalls E call ret) with
          | mk m3 outcome =>
            rw [loop] at wf3 growth3 anchors3
            have placed3 := placed.grow wf2 growth3
            have anchors : ∀ link ∈ m3.links, link.subject = none -> link ∈ m.links ∨
                call.requester = none ∧ (m3.job link.object).type = call.type ∧
                  (m3.job link.object).unit = call.unit := by
              intro link inLinks anchor
              refine (anchors2 link (anchors3 link inLinks anchor) anchor).imp id ?_
              rintro ⟨nobody, same⟩
              rw [same]
              exact ⟨nobody, placed3.type, wf3.chainUnit _ _ placed3.mem⟩
            cases outcome with
            | ok =>
              refine ⟨wf3, growth.trans wf2 growth3, fun ret' same => ?_, anchors⟩
              obtain rfl : ret = ret' := Except.ok.inj same
              exact placed3
            | error e =>
              exact ⟨wf3, growth.trans wf2 growth3, fun ret' failed => (by cases failed), anchors⟩
        · rw [if_neg recurse]
          refine ⟨wf2, growth, fun ret' same => ?_, fun link inLinks anchor => ?_⟩
          · obtain rfl : ret = ret' := Except.ok.inj same
            exact placed
          · refine (anchors2 link inLinks anchor).imp id ?_
            rintro ⟨nobody, same⟩
            rw [same]
            exact ⟨nobody, placed.type, wf2.chainUnit _ _ placed.mem⟩
  exact ⟨fun m call wf valid => (all m call wf valid).1,
    fun m call wf valid => (all m call wf valid).2.1,
    fun m call wf valid => (all m call wf valid).2.2.1,
    fun m call wf valid => (all m call wf valid).2.2.2⟩

theorem addJobAndDependencies_root (E : Units U) (add : AddFunction U) (spec : AddSpec E add)
    (m m' : Manager U) (call : AddCall U) (wf : WellFormed m) (valid : CallFrom E m call)
    (empty : m.chain call.unit = []) (ret : JobId)
    (ok : addJobAndDependencies E add m call = (m', .ok ret)) :
    ∃ added, m'.chain call.unit = added ++ [ret] ∧ ∀ j ∈ added, (m'.job j).type ≠ call.type := by
  cases refused : refusal E call.type call.unit with
  | some e => simp [addJobAndDependencies, refused] at ok
  | none =>
    cases one : transactionAddOneJob m call.type call.unit call.override with
    | mk m1 rest =>
      obtain ⟨job, isNew⟩ := rest
      rcases transactionAddOneJob_spec E wf m1 job isNew one with
        ⟨_, _, mem, _⟩ | ⟨rfl, added⟩
      · simp [empty] at mem
      have alone : m1.chain call.unit = [job] := by rw [added.chain, empty]
      obtain ⟨wf2, growth2, placed⟩ := enterJob_spec added.wf (added.growth.callFrom wf valid)
        (by simp [alone]) added.typed (Brought E call)
      rw [addJobAndDependencies_eq add m1 job true refused one] at ok
      by_cases recurse : true = true ∧ call.ignoreRequirements = false
      · obtain ⟨wf3, growth3, _⟩ := pullIn_steps spec recurse.2 refused placed
          (pullCalls E call job) (fun _ h => h) wf2
        rw [if_pos recurse] at ok
        cases loop : forEach (pullIn add) (enterJob m1 call job) (pullCalls E call job) with
        | mk m3 outcome =>
          rw [loop] at ok wf3 growth3
          cases outcome with
          | error e => cases congrArg Prod.snd ok
          | ok =>
            obtain ⟨rfl, same⟩ := Prod.mk.inj ok
            obtain rfl : job = ret := Except.ok.inj same
            obtain ⟨new, chain, _⟩ := growth3.chain call.unit
            have old : (enterJob m1 call job).chain call.unit = [job] := alone
            rw [old] at chain
            have nodup := wf3.chainNodup call.unit
            rw [chain] at nodup
            refine ⟨new, chain, fun j inNew => ?_⟩
            rw [← (placed.grow wf2 growth3).type]
            refine growth3.distinct call.unit j ?_ ?_ job (by simp [old])
            · rw [chain]
              exact mem_append_left _ inNew
            · rw [old]
              exact fun inOld => disjoint_of_nodup_append nodup inNew inOld
      · rw [if_neg recurse] at ok
        obtain ⟨rfl, same⟩ := Prod.mk.inj ok
        obtain rfl : job = ret := Except.ok.inj same
        exact ⟨[], alone, by simp⟩

/-- The job asked for goes in before anything it pulls in can fail. -/
theorem addJobAndDependencies_entered (E : Units U) (add : AddFunction U) (spec : AddSpec E add)
    (m : Manager U) (call : AddCall U) (wf : WellFormed m) (valid : CallFrom E m call)
    (accepted : refusal E call.type call.unit = none) :
    ∃ ret, Placed (addJobAndDependencies E add m call).1 call ret := by
  cases one : transactionAddOneJob m call.type call.unit call.override with
  | mk m1 rest =>
    obtain ⟨job, isNew⟩ := rest
    refine ⟨job, ?_⟩
    have entered : WellFormed (enterJob m1 call job) ∧ Placed (enterJob m1 call job) call job := by
      rcases transactionAddOneJob_spec E wf m1 job isNew one with
        ⟨_, rfl, mem, typed⟩ | ⟨_, added⟩
      · obtain ⟨wf2, _, placed⟩ := enterJob_spec wf valid mem typed (Brought E call)
        exact ⟨wf2, placed⟩
      · obtain ⟨wf2, _, placed⟩ := enterJob_spec added.wf (added.growth.callFrom wf valid)
          (by simp [added.chain]) added.typed (Brought E call)
        exact ⟨wf2, placed⟩
    rw [addJobAndDependencies_eq add m1 job isNew accepted one]
    by_cases recurse : isNew = true ∧ call.ignoreRequirements = false
    · obtain ⟨_, growth, _⟩ := pullIn_steps spec recurse.2 accepted entered.2
        (pullCalls E call job) (fun _ h => h) entered.1
      rw [if_pos recurse]
      cases loop : forEach (pullIn add) (enterJob m1 call job) (pullCalls E call job) with
      | mk m3 outcome =>
        rw [loop] at growth
        cases outcome <;> exact entered.2.grow entered.1 growth
    · rw [if_neg recurse]
      exact entered.2

omit [DecidableEq U] in
theorem noMemory_spec (E : Units U) : AddSpec E fun m _ => (m, .error .noMemory) :=
  ⟨fun _ _ wf _ => wf, fun m _ _ _ => .refl m, fun _ _ _ _ _ failed => (by cases failed),
    fun _ _ _ _ _ mem _ => .inl mem⟩

theorem addWithDepth_spec (E : Units U) (depth : Nat) : AddSpec E (addWithDepth E depth) := by
  induction depth with
  | zero => exact addJobAndDependencies_spec E _ (noMemory_spec E)
  | succ depth ih => exact addJobAndDependencies_spec E _ ih

variable [Fintype U]

theorem transactionAddJobAndDependencies_spec (E : Units U) :
    AddSpec E (transactionAddJobAndDependencies E) :=
  addWithDepth_spec E _

theorem transactionAddJobAndDependencies_unfold (E : Units U) :
    ∃ add, AddSpec E add ∧ transactionAddJobAndDependencies E = addJobAndDependencies E add := by
  unfold transactionAddJobAndDependencies
  cases Fintype.card (U × JobType) with
  | zero => exact ⟨_, noMemory_spec E, rfl⟩
  | succ depth => exact ⟨_, addWithDepth_spec E depth, rfl⟩

theorem transactionAddJobAndDependencies_root (m' : Manager U) (wf : WellFormed m)
    (valid : CallFrom E m call) (empty : m.chain call.unit = [])
    (ok : transactionAddJobAndDependencies E m call = (m', .ok ret)) :
    ∃ added, m'.chain call.unit = added ++ [ret] ∧ ∀ j ∈ added, (m'.job j).type ≠ call.type := by
  obtain ⟨add, spec, same⟩ := transactionAddJobAndDependencies_unfold E
  rw [same] at ok
  exact addJobAndDependencies_root E add spec m m' call wf valid empty ret ok

def isolateCall (u : U) : AddCall U where
  type := .stop
  unit := u
  requester := none
  matters := true
  override := false
  conflicts := false
  ignoreRequirements := false
  ignoreOrder := false

def IsolateTarget (E : Units U) (m : Manager U) (u : U) : Prop :=
  u ∈ E.units ∧ E.ignoreOnIsolate u = false ∧
    ¬ ((m.activeState u).isInactiveOrFailed = true ∧ m.metaJob u = none)

def IsolatePulled (E : Units U) (m : Manager U) (type : JobType) (u : U) : Prop :=
  ∃ v, IsolateTarget E m v ∧ Brought E (isolateCall v) type u

omit [DecidableEq U] [Fintype U] in
theorem callFrom_none (E : Units U) (m : Manager U) (call : AddCall U)
    (anonymous : call.requester = none) : CallFrom E m call := by
  intro r requester
  rw [anonymous] at requester
  cases requester

def isolateStep (E : Units U) (m : Manager U) (u : U) : Manager U :=
  if isolateStops m E u then (transactionAddJobAndDependencies E m (isolateCall u)).1 else m

structure Isolating (E : Units U) (m m' : Manager U) : Prop where
  wf : WellFormed m'
  growth : Growth E (IsolatePulled E m) m m'
  anchors : ∀ link ∈ m'.links, link.subject = none -> link ∈ m.links ∨
    (m'.job link.object).type = .stop

theorem isolateStep_spec (E : Units U) {m0 : Manager U} (isolating : Isolating E m0 m) (u : U)
    (mem : u ∈ E.units) : Isolating E m0 (isolateStep E m u) := by
  obtain ⟨wf, growth, anchors⟩ := isolating
  by_cases stops : isolateStops m E u = true
  · simp only [isolateStep, stops, if_true]
    have spec := transactionAddJobAndDependencies_spec E
    have valid := callFrom_none E m (isolateCall u) rfl
    have target : IsolateTarget E m0 u := by
      simp only [isolateStops, Bool.and_eq_true, Bool.not_eq_true', growth.activeState,
        growth.metaJob] at stops
      refine ⟨mem, stops.1.1, fun idle => ?_⟩
      have awake := stops.1.2
      simp [idle.1, idle.2] at awake
    have added := spec.growth m _ wf valid
    refine ⟨spec.wf m _ wf valid, growth.trans wf (added.mono ?_), ?_⟩
    · exact fun type v pulled => ⟨u, target, pulled⟩
    · intro link inLinks anchor
      rcases spec.anchors m _ wf valid link inLinks anchor with old | ⟨_, stop, _⟩
      · refine (anchors link old anchor).imp id fun stop => ?_
        obtain ⟨v, inChain⟩ := wf.linkObject link old
        exact (added.kept _ (wf.chainFresh v _ inChain)).type.trans stop
      · exact .inr stop
  · simpa [isolateStep, stops] using Isolating.mk wf growth anchors

theorem transactionAddIsolateJobs_spec (E : Units U) (m : Manager U) (wf : WellFormed m) :
    Isolating E m (transactionAddIsolateJobs E m) := by
  exact List.foldlRecOn (motive := Isolating E m) E.units (isolateStep E)
    ⟨wf, .refl m, fun _ mem _ => .inl mem⟩
    (fun _ isolating u mem => isolateStep_spec E isolating u mem)

end

end Systemd
