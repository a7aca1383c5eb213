import Systemd.Engine.Passes

set_option autoImplicit false

namespace Systemd

open Loop List Option Function

variable {U : Type} [DecidableEq U]

def JobDependency.relabel (other j : JobId) (link : JobDependency) : JobDependency :=
  { link with
    subject := if link.subject = some other then some j else link.subject
    object := if link.object = other then j else link.object }

def transactionMergeAndDeleteJob (m : Manager U) (j other : JobId) (type : JobType) : Manager U :=
  let m := m.setJob j fun job =>
    { job with
      type := type
      state := .waiting
      override := job.override || (m.job other).override
      mattersToAnchor := job.mattersToAnchor || (m.job other).mattersToAnchor }
  transactionDeleteJob { m with links := m.links.map (JobDependency.relabel other j) } other true

def jobIsConflictedBy (m : Manager U) (j : JobId) : Bool :=
  (m.objectList j).any fun link => link.conflicts

def orderedPairs {A : Type} : List A -> List (A × A)
  | [] => []
  | x :: rest => rest.map (x, ·) ++ orderedPairs rest

def unmergeableVictim (m : Manager U) (j k : JobId) : Option JobId :=
  if !(m.job j).mattersToAnchor && !(m.job k).mattersToAnchor then
    if (m.job j).type = .stop then
      if jobIsConflictedBy m j then some k else some j
    else if (m.job k).type = .stop then
      if jobIsConflictedBy m k then some j else some k
    else some j
  else if !(m.job j).mattersToAnchor then some j
  else if !(m.job k).mattersToAnchor then some k
  else none

def deleteOneUnmergeableJob (m : Manager U) (chain : List JobId) : Manager U × Except Errno Unit :=
  match (orderedPairs chain).find? fun pair =>
      !jobTypeIsMergeable (m.job pair.1).type (m.job pair.2).type with
  | none => (m, .error .einval)
  | some (j, k) =>
    match unmergeableVictim m j k with
    | some d => (transactionDeleteJob m d true, .ok ())
    | none => (m, .error .enoexec)

def firstUnmergeable (m : Manager U) : JobType -> List JobId -> Option (JobType × JobId)
  | _, [] => none
  | type, k :: rest =>
    match jobTypeMerge type (m.job k).type with
    | some type => firstUnmergeable m type rest
    | none => some (type, k)

def chainConflict (m : Manager U) (u : U) : Option (JobType × JobId) :=
  match m.chain u with
  | [] => none
  | j :: rest => firstUnmergeable m (m.job j).type rest

def mergeTypes (m : Manager U) (chain : List JobId) (type : JobType) : JobType :=
  chain.foldl (fun type k => (jobTypeMerge type (m.job k).type).getD type) type

def mergeTypeOf (m : Manager U) (u : U) : JobType :=
  match m.chain u with
  | [] => .start
  | j :: rest => mergeTypes m (rest ++ (m.metaJob u).toList) (m.job j).type

def collapseChain (u : U) (type : JobType) : Nat -> Manager U -> Manager U
  | 0, m => m
  | fuel + 1, m =>
    match m.chain u with
    | j :: k :: _ =>
      collapseChain u type fuel <|
        if (m.job j).installed then transactionMergeAndDeleteJob m k j type
        else transactionMergeAndDeleteJob m j k type
    | _ => m

def mergeChain (m : Manager U) (u : U) : Manager U :=
  let type := mergeTypeOf m u
  let m := collapseChain u type (m.chain u).length m
  match m.transactionGet u, m.metaJob u with
  | some j, some other =>
    if (m.job j).installed then m else transactionMergeAndDeleteJob m j other type
  | _, _ => m

def transactionMergeJobs (m : Manager U) : Manager U × Status U :=
  match m.transactionUnits.find? fun u => (chainConflict m u).isSome with
  | some u =>
    match deleteOneUnmergeableJob m (m.chain u), chainConflict m u with
    | (m, .ok ()), _ => (m, .error .again)
    | (m, .error errno), some (type, k) =>
      (m, .error (.jobsConflicting type (m.job k).type (m.job k).unit errno))
    | (m, .error _), none => (m, .ok ())
  | none => (m.transactionUnits.foldl mergeChain m, .ok ())

def JobDependency.relabelBy (target : JobId -> JobId) (link : JobDependency) : JobDependency :=
  { link with subject := link.subject.map target, object := target link.object }

theorem JobDependency.relabel_eq (other j : JobId) :
    JobDependency.relabel other j = relabelBy fun k => if k = other then j else k := by
  funext link
  cases subject : link.subject with
  | none => simp [relabel, relabelBy, subject]
  | some s => by_cases same : s = other <;> simp [relabel, relabelBy, subject, same]

theorem JobDependency.relabelBy_id : JobDependency.relabelBy id = id := by
  funext link
  simp [relabelBy]

def Manager.merged (m : Manager U) (j other : JobId) (type : JobType) : Manager U :=
  { m with
    job := update m.job j
      { m.job j with
        type := type
        state := .waiting
        override := (m.job j).override || (m.job other).override
        mattersToAnchor := (m.job j).mattersToAnchor || (m.job other).mattersToAnchor }
    chain := fun u => (m.chain u).filter (· ≠ other)
    links := m.links.map (JobDependency.relabel other j) }

variable {m m' : Manager U} {s : JobId} {u : U}

omit [DecidableEq U] in
theorem relabel_untouched (j other : JobId) (different : j ≠ other) (link : JobDependency)
    (mem : link ∈ m.links.map (JobDependency.relabel other j)) :
    link.object ≠ other ∧ link.subject ≠ some other := by
  obtain ⟨old, _, rfl⟩ := mem_map.mp mem
  constructor
  · by_cases same : old.object = other <;> simp [JobDependency.relabel, same, different]
  · by_cases same : old.subject = some other <;> simp [JobDependency.relabel, same, different]

theorem transactionMergeAndDeleteJob_eq (wf : WellFormed m) (j other : JobId) (type : JobType)
    (different : j ≠ other) (u : U) (mem : j ∈ m.chain u) (unit : (m.job other).unit = u) :
    transactionMergeAndDeleteJob m j other type = m.merged j other type := by
  let m1 : Manager U := { m.merged j other type with chain := m.chain }
  have queue : ∀ k ∈ m1.runQueue, (m1.job k).installed = true := by
    intro k inQueue
    by_cases same : k = j
    · simpa [m1, Manager.merged, same] using wf.queueInstalled j (same ▸ inQueue)
    · simpa [m1, Manager.merged, update_of_ne same] using wf.queueInstalled k inQueue
  obtain ⟨gone, deleted, cascade⟩ := transactionDeleteJob_spec m1 other true queue
  have only : ∀ d, d ∈ gone ↔ d ∈ [other] := by
    intro d
    rw [mem_singleton]
    constructor
    · intro inGone
      rcases cascade.reach d inGone with same | path
      · exact same
      · obtain ⟨_, _, link, inLinks, _, _, object⟩ := Relation.TransGen.tail'_iff.mp path
        exact absurd object (relabel_untouched j other different link inLinks).1
    · rintro rfl
      exact cascade.root
  have units : (m.transactionUnits.filter fun v => (m.chain v).any (· ∉ [other])) =
      m.transactionUnits := by
    refine filter_eq_self.mpr fun v inUnits => any_eq_true.mpr ?_
    by_cases same : v = u
    · exact ⟨j, same ▸ mem, by simpa using different⟩
    · obtain ⟨k, inChain⟩ := exists_mem_of_ne_nil _ ((wf.unitsChain v).mp inUnits)
      refine ⟨k, inChain, ?_⟩
      have : k ≠ other := by
        rintro rfl
        exact same ((wf.chainUnit v k inChain).symm.trans unit)
      simpa using this
  have links : (m1.links.filter fun link => !link.touches [other]) = m1.links := by
    refine filter_eq_self.mpr fun link inLinks => (JobDependency.not_touches_iff _ _).mpr ?_
    obtain ⟨object, subject⟩ := relabel_untouched j other different link inLinks
    refine ⟨by simpa using object, fun s same inGone => subject ?_⟩
    rw [same, mem_singleton.mp inGone]
  change transactionDeleteJob m1 other true = _
  rw [deleted, m1.without_congr gone [other] only]
  change { m1 with
    transactionUnits := m.transactionUnits.filter fun v => (m.chain v).any (· ∉ [other])
    chain := fun v => (m.chain v).filter (· ∉ [other])
    links := m1.links.filter fun link => !link.touches [other] } = _
  rw [units, links]
  simp [m1, Manager.merged]

/-- What merging may do to the tables: jobs of one unit become one of them, and links follow. -/
structure MergeStep (m m' : Manager U) : Prop where
  wf : WellFormed m'
  jobs : m'.jobs = m.jobs
  metaJob : m'.metaJob = m.metaJob
  activeState : m'.activeState = m.activeState
  runQueue : m'.runQueue = m.runQueue
  currentJobId : m'.currentJobId = m.currentJobId
  nReloading : m'.nReloading = m.nReloading
  transactionUnits : m'.transactionUnits = m.transactionUnits
  unit : ∀ j, (m'.job j).unit = (m.job j).unit
  installed : ∀ j, (m'.job j).installed = (m.job j).installed
  untouched : ∀ j, (m.job j).installed = true -> m'.job j = m.job j
  state : ∀ j, (m'.job j).state = (m.job j).state ∨ (m'.job j).state = .waiting
  chain : ∀ u, m'.chain u ⊆ m.chain u
  links : ∃ target : JobId -> JobId, m'.links = m.links.map (JobDependency.relabelBy target) ∧
    (∀ j, m'.InTransaction j -> target j = j) ∧
    ∀ j, m.InTransaction j -> (m.job (target j)).unit = (m.job j).unit ∧ m'.InTransaction (target j)

namespace MergeStep

variable {m m' m'' : Manager U}

section

omit [DecidableEq U]

theorem refl (wf : WellFormed m) : MergeStep m m where
  wf := wf
  jobs := rfl
  metaJob := rfl
  activeState := rfl
  runQueue := rfl
  currentJobId := rfl
  nReloading := rfl
  transactionUnits := rfl
  unit := fun _ => rfl
  installed := fun _ => rfl
  untouched := fun _ _ => rfl
  state := fun _ => .inl rfl
  chain := fun _ _ h => h
  links := ⟨id, by rw [JobDependency.relabelBy_id, List.map_id], fun _ _ => rfl, fun _ h => ⟨rfl, h⟩⟩

theorem inTransaction (step : MergeStep m m') {j : JobId} (mem : m'.InTransaction j) :
    m.InTransaction j := by
  obtain ⟨u, inChain⟩ := mem
  exact ⟨u, step.chain u inChain⟩

theorem trans (first : MergeStep m m') (second : MergeStep m' m'') : MergeStep m m'' where
  wf := second.wf
  jobs := second.jobs.trans first.jobs
  metaJob := second.metaJob.trans first.metaJob
  activeState := second.activeState.trans first.activeState
  runQueue := second.runQueue.trans first.runQueue
  currentJobId := second.currentJobId.trans first.currentJobId
  nReloading := second.nReloading.trans first.nReloading
  transactionUnits := second.transactionUnits.trans first.transactionUnits
  unit := fun j => (second.unit j).trans (first.unit j)
  installed := fun j => (second.installed j).trans (first.installed j)
  untouched := fun j installed =>
    (second.untouched j ((first.installed j).trans installed)).trans (first.untouched j installed)
  state := fun j => (second.state j).elim
    (fun same => (first.state j).imp same.trans same.trans) .inr
  chain := fun u _ h => first.chain u (second.chain u h)
  links := by
    obtain ⟨f, links, fixed, moved⟩ := first.links
    obtain ⟨g, links', fixed', moved'⟩ := second.links
    refine ⟨g ∘ f, ?_, ?_, ?_⟩
    · rw [links', links, List.map_map]
      apply List.map_congr_left
      intro link _
      simp [JobDependency.relabelBy, Option.map_map]
    · intro j mem
      rw [comp_apply, fixed j (second.inTransaction mem), fixed' j mem]
    · intro j mem
      obtain ⟨unit, inside⟩ := moved j mem
      obtain ⟨unit', inside'⟩ := moved' (f j) inside
      rw [first.unit, first.unit] at unit'
      exact ⟨unit'.trans unit, inside'⟩

end

end MergeStep

omit [DecidableEq U] in
theorem WellFormed.merged (wf : WellFormed m) (j other : JobId) (type : JobType) (different : j ≠ other)
    (u : U) (mem : j ∈ m.chain u) (unit : (m.job other).unit = u) :
    WellFormed (m.merged j other type) := by
  have mem_chain : ∀ v k, k ∈ (m.merged j other type).chain v ↔
      k ∈ m.chain v ∧ k ≠ other := by
    intro v k
    simp [Manager.merged, mem_filter]
  have wfJob := wf.setJob j (fun job => { job with
      type := type
      state := .waiting
      override := job.override || (m.job other).override
      mattersToAnchor := job.mattersToAnchor || (m.job other).mattersToAnchor })
    (fun _ => rfl) (fun _ => rfl)
  have moved : ∀ k, m.InTransaction k ->
      (m.merged j other type).InTransaction (if k = other then j else k) := by
    intro k inside
    by_cases same : k = other
    · exact ⟨u, by rw [if_pos same, mem_chain]; exact ⟨mem, different⟩⟩
    · obtain ⟨v, inChain⟩ := inside
      exact ⟨v, by rw [if_neg same, mem_chain]; exact ⟨inChain, same⟩⟩
  refine ⟨wf.unitsNodup, ?_, fun v => (wf.chainNodup v).filter _, ?_, ?_, ?_, ?_, ?_, wf.jobsNodup,
    wfJob.jobInstalled, wfJob.jobMeta, wf.jobFresh, wfJob.metaJobs, wf.queueJobs, wf.queueNodup⟩
  · intro v
    change v ∈ m.transactionUnits ↔ _
    rw [wf.unitsChain v]
    constructor
    · intro nonempty
      by_cases same : v = u
      · exact ne_nil_of_mem ((mem_chain v j).mpr ⟨same ▸ mem, different⟩)
      · obtain ⟨k, inChain⟩ := exists_mem_of_ne_nil _ nonempty
        refine ne_nil_of_mem ((mem_chain v k).mpr ⟨inChain, ?_⟩)
        rintro rfl
        exact same ((wf.chainUnit v k inChain).symm.trans unit)
    · intro nonempty
      obtain ⟨k, inChain⟩ := exists_mem_of_ne_nil _ nonempty
      exact ne_nil_of_mem ((mem_chain v k).mp inChain).1
  · exact fun v k h => wfJob.chainUnit v k ((mem_chain v k).mp h).1
  · exact fun v k h => wfJob.chainInstalled v k ((mem_chain v k).mp h).1
  · exact fun v k h => wf.chainFresh v k ((mem_chain v k).mp h).1
  · intro link inLinks
    obtain ⟨old, inOld, rfl⟩ := mem_map.mp inLinks
    rw [JobDependency.relabel_eq]
    exact moved _ (wf.linkObject old inOld)
  · intro link inLinks s subject
    obtain ⟨old, inOld, rfl⟩ := mem_map.mp inLinks
    rw [JobDependency.relabel_eq] at subject
    obtain ⟨s', subject', rfl⟩ := map_eq_some_iff.mp subject
    exact moved _ (wf.linkSubject old inOld s' subject')

omit [DecidableEq U] in
theorem merged_step (wf : WellFormed m) (j other : JobId) (type : JobType) (different : j ≠ other)
    (u : U) (mem : j ∈ m.chain u) (unit : (m.job other).unit = u)
    (out : (m.job j).installed = false) : MergeStep m (m.merged j other type) where
  wf := wf.merged j other type different u mem unit
  jobs := rfl
  metaJob := rfl
  activeState := rfl
  runQueue := rfl
  currentJobId := rfl
  nReloading := rfl
  transactionUnits := rfl
  unit := by
    intro k
    by_cases same : k = j <;> simp [Manager.merged, update, same]
  installed := by
    intro k
    by_cases same : k = j <;> simp [Manager.merged, update, same]
  untouched := by
    intro k installed
    have away : k ≠ j := by
      rintro rfl
      simp [out] at installed
    simp [Manager.merged, update_of_ne away]
  state := by
    intro k
    by_cases same : k = j <;> simp [Manager.merged, update, same]
  chain := fun v k h => (mem_filter.mp h).1
  links := by
    refine ⟨fun k => if k = other then j else k, ?_, ?_, ?_⟩
    · rw [← JobDependency.relabel_eq]
      rfl
    · rintro k ⟨v, inChain⟩
      have kept : k ≠ other := by simpa using (mem_filter.mp inChain).2
      simp [kept]
    · intro k inside
      by_cases same : k = other
      · simp only [same, if_true]
        refine ⟨(wf.chainUnit u j mem).trans unit.symm, u, ?_⟩
        exact mem_filter.mpr ⟨mem, by simpa using different⟩
      · simp only [same, if_false]
        obtain ⟨v, inChain⟩ := inside
        exact ⟨trivial, v, mem_filter.mpr ⟨inChain, by simpa using same⟩⟩

-- The job of a chain that merging leaves: a job that is not installed, and the first such one.
def mergeSurvivor (m : Manager U) : List JobId -> Option JobId
  | [] => none
  | [j] => some j
  | j :: k :: _ => if (m.job j).installed then some k else some j

structure Collapsed (m m' : Manager U) (u : U) (type : JobType) : Prop where
  step : MergeStep m m'
  others : ∀ v, v ≠ u -> m'.chain v = m.chain v
  away : ∀ j, j ∉ m.chain u -> m'.job j = m.job j
  chain : m'.chain u = (mergeSurvivor m (m.chain u)).toList
  typed : ∀ s, mergeSurvivor m (m.chain u) = some s ->
    (m'.job s).type = if m.chain u = [s] then (m.job s).type else type

omit [DecidableEq U] in
theorem Collapsed.of_single (wf : WellFormed m) (u : U) (type : JobType)
    (short : m.chain u = (mergeSurvivor m (m.chain u)).toList) : Collapsed m m u type where
  step := .refl wf
  others := fun _ _ => rfl
  away := fun _ _ => rfl
  chain := short
  typed := by
    intro s survivor
    rw [survivor] at short
    simp [short]

-- One turn of the loop that merges a chain into its head, or into the job after it when the head
-- is installed.
theorem merged_chain (wf : WellFormed m) (u : U) (type : JobType) (j other : JobId)
    (mem : j ∈ m.chain u) (inChain : other ∈ m.chain u) (different : j ≠ other)
    (out : (m.job j).installed = false) :
    transactionMergeAndDeleteJob m j other type = m.merged j other type ∧
    MergeStep m (m.merged j other type) ∧
    (∀ v, v ≠ u -> (m.merged j other type).chain v = m.chain v) ∧
    (∀ k, k ∉ m.chain u -> (m.merged j other type).job k = m.job k) ∧
    ((m.merged j other type).job j).type = type := by
  have unit := wf.chainUnit u other inChain
  refine ⟨transactionMergeAndDeleteJob_eq wf j other type different u mem unit,
    merged_step wf j other type different u mem unit out, ?_, ?_, by simp [Manager.merged]⟩
  · intro v same
    refine filter_eq_self.mpr fun k inV => ?_
    have : k ≠ other := by
      rintro rfl
      exact same ((wf.chainUnit v k inV).symm.trans unit)
    simpa using this
  · intro k outside
    have : k ≠ j := fun same => outside (same ▸ mem)
    simp [Manager.merged, update_of_ne this]

-- Induction on the rest of the chain behind a head that stays.
theorem collapseChain_head (u : U) (type : JobType) (fuel : Nat) (m : Manager U) (wf : WellFormed m)
    (j : JobId) (rest : List JobId) (chain : m.chain u = j :: rest)
    (out : (m.job j).installed = false) (bound : rest.length ≤ fuel) :
    MergeStep m (collapseChain u type fuel m) ∧
    (∀ v, v ≠ u -> (collapseChain u type fuel m).chain v = m.chain v) ∧
    (∀ k, k ∉ m.chain u -> (collapseChain u type fuel m).job k = m.job k) ∧
    (collapseChain u type fuel m).chain u = [j] ∧
    ((collapseChain u type fuel m).job j).type = if rest = [] then (m.job j).type else type := by
  induction rest generalizing m fuel with
  | nil =>
    have idle : collapseChain u type fuel m = m := by cases fuel <;> simp [collapseChain, chain]
    rw [idle]
    exact ⟨.refl wf, fun _ _ => rfl, fun _ _ => rfl, chain, by simp⟩
  | cons k rest ih =>
    cases fuel with
    | zero => simp at bound
    | succ fuel =>
      have nodup := wf.chainNodup u
      rw [chain] at nodup
      have different : j ≠ k := fun same => (nodup_cons.mp nodup).1 (by simp [same])
      obtain ⟨merged, step, others, away, typed⟩ := merged_chain wf u type j k (by simp [chain])
        (by simp [chain]) different out
      have turn : collapseChain u type (fuel + 1) m = collapseChain u type fuel (m.merged j k type) := by
        simp [collapseChain, chain, out, merged]
      have kept : k ∉ rest := (nodup_cons.mp (nodup_cons.mp nodup).2).1
      have shorter : (m.merged j k type).chain u = j :: rest := by
        have same : ∀ x ∈ rest, ¬ x = k := fun x inRest eq => kept (eq ▸ inRest)
        simpa [Manager.merged, chain, different] using same
      obtain ⟨step', others', away', chain', typed'⟩ := ih fuel (m.merged j k type) step.wf
        shorter ((step.installed j).trans out) (by simpa using bound)
      rw [turn]
      refine ⟨step.trans step', fun v ne => (others' v ne).trans (others v ne), ?_, chain', ?_⟩
      · intro x outside
        rw [away' x (fun h => outside (step.chain u h)), away x outside]
      · rw [typed', typed]
        simp

theorem collapseChain_spec (u : U) (type : JobType) (m : Manager U) (wf : WellFormed m) :
    Collapsed m (collapseChain u type (m.chain u).length m) u type := by
  cases chain : m.chain u with
  | nil =>
    have idle : collapseChain u type ([] : List JobId).length m = m := rfl
    rw [idle]
    exact .of_single wf u type (by simp [chain, mergeSurvivor])
  | cons j rest =>
    cases out : (m.job j).installed with
    | false =>
      obtain ⟨step, others, away, chain', typed⟩ := collapseChain_head u type (j :: rest).length m wf
        j rest chain out (by simp)
      have survivor : mergeSurvivor m (m.chain u) = some j := by
        cases rest <;> simp [mergeSurvivor, chain, out]
      refine ⟨step, others, away, by rw [chain', survivor]; rfl, ?_⟩
      intro s same
      obtain rfl : j = s := some.inj (survivor.symm.trans same)
      rw [typed, chain]
      simp
    | true =>
      cases rest with
      | nil =>
        have idle : collapseChain u type [j].length m = m := by simp [collapseChain, chain]
        rw [idle]
        exact .of_single wf u type (by simp [chain, mergeSurvivor])
      | cons k rest =>
        have nodup := wf.chainNodup u
        rw [chain] at nodup
        have different : k ≠ j := fun same => (nodup_cons.mp nodup).1 (by simp [same])
        have outK : (m.job k).installed = false := by
          by_contra installed
          have first := wf.chainInstalled u j (by simp [chain]) out
          have second := wf.chainInstalled u k (by simp [chain]) (by simpa using installed)
          exact different (some.inj (second.symm.trans first))
        obtain ⟨merged, step, others, away, typed⟩ := merged_chain wf u type k j (by simp [chain])
          (by simp [chain]) different outK
        have turn : collapseChain u type (j :: k :: rest).length m =
            collapseChain u type (rest.length + 1) (m.merged k j type) := by
          simp [collapseChain, chain, out, merged]
        have shorter : (m.merged k j type).chain u = k :: rest := by
          have same : ∀ x ∈ k :: rest, ¬ x = j :=
            fun x inRest eq => (nodup_cons.mp nodup).1 (eq ▸ inRest)
          simpa [Manager.merged, chain] using same
        obtain ⟨step', others', away', chain', typed'⟩ := collapseChain_head u type (rest.length + 1)
          (m.merged k j type) step.wf k rest shorter ((step.installed k).trans outK) (by simp)
        have survivor : mergeSurvivor m (m.chain u) = some k := by
          simp [mergeSurvivor, chain, out]
        rw [turn]
        refine ⟨step.trans step', fun v ne => (others' v ne).trans (others v ne), ?_,
          by rw [chain', survivor]; rfl, ?_⟩
        · intro x outside
          rw [away' x (fun h => outside (step.chain u h)), away x outside]
        · intro s same
          obtain rfl : k = s := some.inj (survivor.symm.trans same)
          rw [typed', typed, chain]
          simp

structure ChainMerged (m m' : Manager U) (u : U) : Prop where
  step : MergeStep m m'
  others : ∀ v, v ≠ u -> m'.chain v = m.chain v
  away : ∀ j, j ∉ m.chain u -> m'.job j = m.job j
  chain : m'.chain u = (mergeSurvivor m (m.chain u)).toList
  typed : ∀ s, mergeSurvivor m (m.chain u) = some s ->
    (m'.job s).type = if (m.job s).installed then (m.job s).type else mergeTypeOf m u

section

omit [DecidableEq U]

theorem mergeSurvivor_exists (m : Manager U) {chain : List JobId} (nonempty : chain ≠ []) :
    ∃ s, mergeSurvivor m chain = some s := by
  match chain with
  | [] => exact absurd rfl nonempty
  | [j] => exact ⟨j, rfl⟩
  | j :: k :: rest =>
    by_cases installed : (m.job j).installed = true
    · exact ⟨k, by simp [mergeSurvivor, installed]⟩
    · exact ⟨j, by simp [mergeSurvivor, installed]⟩

theorem mergeSurvivor_mem {chain : List JobId} (survivor : mergeSurvivor m chain = some s) :
    s ∈ chain := by
  match chain with
  | [] => cases survivor
  | [j] =>
    obtain rfl : j = s := some.inj survivor
    simp
  | j :: k :: rest =>
    by_cases installed : (m.job j).installed = true
    · obtain rfl : k = s := by simpa [mergeSurvivor, installed] using survivor
      simp
    · obtain rfl : j = s := by simpa [mergeSurvivor, installed] using survivor
      simp

theorem mergeSurvivor_installed (wf : WellFormed m) (survivor : mergeSurvivor m (m.chain u) = some s)
    (installed : (m.job s).installed = true) : m.chain u = [s] := by
  match chain : m.chain u with
  | [] => simp [chain, mergeSurvivor] at survivor
  | [j] =>
    rw [chain] at survivor
    rw [some.inj survivor]
  | j :: k :: rest =>
    rw [chain] at survivor
    have nodup := wf.chainNodup u
    rw [chain] at nodup
    have different : j ≠ k := fun same => (nodup_cons.mp nodup).1 (by simp [same])
    by_cases head : (m.job j).installed = true
    · obtain rfl : k = s := by simpa [mergeSurvivor, head] using survivor
      have first := wf.chainInstalled u j (by simp [chain]) head
      have second := wf.chainInstalled u k (by simp [chain]) installed
      exact absurd (some.inj (first.symm.trans second)) different
    · obtain rfl : j = s := by simpa [mergeSurvivor, head] using survivor
      exact absurd installed head

theorem mergeTypeOf_single (chain : m.chain u = [s]) (alone : m.metaJob u = none) :
    mergeTypeOf m u = (m.job s).type := by
  simp [mergeTypeOf, chain, alone, mergeTypes]

end

theorem mergeChain_spec (m : Manager U) (wf : WellFormed m) (u : U) :
    ChainMerged m (mergeChain m u) u := by
  have collapsed := collapseChain_spec u (mergeTypeOf m u) m wf
  simp only [mergeChain]
  revert collapsed
  generalize collapseChain u (mergeTypeOf m u) (m.chain u).length m = m1
  intro collapsed
  cases survivor : mergeSurvivor m (m.chain u) with
  | none =>
    have empty : m1.transactionGet u = none := by
      simp [Manager.transactionGet, collapsed.chain, survivor]
    rw [empty]
    exact ⟨collapsed.step, collapsed.others, collapsed.away, collapsed.chain, by simp [survivor]⟩
  | some s =>
    have chain : m1.chain u = [s] := by rw [collapsed.chain, survivor]; rfl
    have head : m1.transactionGet u = some s := by simp [Manager.transactionGet, chain]
    have typed := collapsed.typed s survivor
    rw [head]
    by_cases installed : (m.job s).installed = true
    · have single := mergeSurvivor_installed wf survivor installed
      have idle : (match some s, m1.metaJob u with
          | some j, some other =>
            if (m1.job j).installed then m1 else transactionMergeAndDeleteJob m1 j other (mergeTypeOf m u)
          | _, _ => m1) = m1 := by
        cases m1.metaJob u <;> simp [collapsed.step.installed, installed]
      rw [idle]
      refine ⟨collapsed.step, collapsed.others, collapsed.away, collapsed.chain, ?_⟩
      intro s' same
      obtain rfl : s = s' := some.inj (survivor.symm.trans same)
      rw [typed]
      simp [single, installed]
    · have out : (m.job s).installed = false := by simpa using installed
      have out1 : (m1.job s).installed = false := (collapsed.step.installed s).trans out
      cases other : m.metaJob u with
      | none =>
        have none1 : m1.metaJob u = none := by rw [collapsed.step.metaJob, other]
        rw [none1]
        refine ⟨collapsed.step, collapsed.others, collapsed.away, collapsed.chain, ?_⟩
        intro s' same
        obtain rfl : s = s' := some.inj (survivor.symm.trans same)
        rw [typed]
        by_cases single : m.chain u = [s]
        · simp [single, mergeTypeOf_single single other]
        · simp [single, out]
      | some k =>
        have some1 : m1.metaJob u = some k := by rw [collapsed.step.metaJob, other]
        obtain ⟨inJobs, unit⟩ := collapsed.step.wf.metaJobs u k some1
        have different : s ≠ k := by
          rintro rfl
          simp [collapsed.step.wf.jobInstalled s inJobs] at out1
        have mem : s ∈ m1.chain u := by simp [chain]
        rw [some1]
        simp only [out1, Bool.false_eq_true, if_false]
        rw [transactionMergeAndDeleteJob_eq collapsed.step.wf s k _ different u mem unit]
        have step := merged_step collapsed.step.wf s k (mergeTypeOf m u) different u mem unit out1
        refine ⟨collapsed.step.trans step, ?_, ?_, ?_, ?_⟩
        · intro v ne
          rw [← collapsed.others v ne]
          refine filter_eq_self.mpr fun x inV => ?_
          have : x ≠ k := by
            rintro rfl
            exact ne ((collapsed.step.wf.chainUnit v x inV).symm.trans unit)
          simpa using this
        · intro j outside
          have ne : j ≠ s := fun same => outside (same ▸ mergeSurvivor_mem survivor)
          rw [← collapsed.away j outside]
          simp [Manager.merged, update_of_ne ne]
        · rw [survivor]
          simp [Manager.merged, chain, different]
        · intro s' same
          obtain rfl : s = s' := some.inj (survivor.symm.trans same)
          simp [Manager.merged, out]

section

omit [DecidableEq U]

theorem mergeTypes_superset (m : Manager U) (chain : List JobId) (type : JobType) :
    jobTypeIsSuperset (mergeTypes m chain type) type = true := by
  induction chain generalizing type with
  | nil => exact jobTypeIsSuperset_refl type
  | cons k rest ih =>
    refine jobTypeIsSuperset_trans _ _ _ (ih _) ?_
    cases merged : jobTypeMerge type (m.job k).type with
    | none => simp [merged, jobTypeIsSuperset_refl type]
    | some type' => simpa [merged] using (jobTypeMerge_superset _ _ _ merged).1

theorem mergeTypes_superset_mem (m : Manager U) (chain extra : List JobId) (type : JobType)
    (mergeable : firstUnmergeable m type chain = none) (j : JobId) (mem : j ∈ chain) :
    jobTypeIsSuperset (mergeTypes m (chain ++ extra) type) (m.job j).type = true := by
  induction chain generalizing type with
  | nil => cases mem
  | cons k rest ih =>
    cases merged : jobTypeMerge type (m.job k).type with
    | none => simp [firstUnmergeable, merged] at mergeable
    | some type' =>
      have continues : mergeTypes m (k :: rest ++ extra) type = mergeTypes m (rest ++ extra) type' := by
        simp [mergeTypes, merged]
      rw [continues]
      rcases mem_cons.mp mem with rfl | later
      · exact jobTypeIsSuperset_trans _ _ _ (mergeTypes_superset m _ type')
          (jobTypeMerge_superset _ _ _ merged).2
      · exact ih type' (by simpa [firstUnmergeable, merged] using mergeable) later

theorem mergeTypeOf_superset (mergeable : chainConflict m u = none) {j : JobId} (mem : j ∈ m.chain u) :
    jobTypeIsSuperset (mergeTypeOf m u) (m.job j).type = true := by
  cases chain : m.chain u with
  | nil => simp [chain] at mem
  | cons k rest =>
    simp only [chainConflict, chain] at mergeable
    simp only [mergeTypeOf, chain]
    rcases mem_cons.mp (chain ▸ mem) with rfl | later
    · exact mergeTypes_superset m _ _
    · exact mergeTypes_superset_mem m rest _ _ mergeable j later

theorem mergeTypeOf_congr (chain : m'.chain u = m.chain u)
    (types : ∀ j ∈ m.chain u, (m'.job j).type = (m.job j).type) (metaJob : m'.metaJob u = m.metaJob u)
    (installed : ∀ k, m.metaJob u = some k -> (m'.job k).type = (m.job k).type) :
    mergeTypeOf m' u = mergeTypeOf m u := by
  unfold mergeTypeOf
  rw [chain, metaJob]
  cases same : m.chain u with
  | nil => rfl
  | cons j rest =>
    rw [same] at types
    simp only [mergeTypes]
    rw [types j (by simp)]
    apply foldl_ext
    intro type k mem
    rcases mem_append.mp mem with later | extra
    · rw [types k (mem_cons_of_mem _ later)]
    · rw [installed k (by simpa using extra)]

theorem mergeSurvivor_congr (chain : List JobId)
    (installed : ∀ j, (m'.job j).installed = (m.job j).installed) :
    mergeSurvivor m' chain = mergeSurvivor m chain := by
  match chain with
  | [] | [_] => rfl
  | j :: k :: rest => simp [mergeSurvivor, installed]

end

structure AllMerged (m m' : Manager U) : Prop where
  step : MergeStep m m'
  chain : ∀ u, m'.chain u = (mergeSurvivor m (m.chain u)).toList
  typed : ∀ u s, mergeSurvivor m (m.chain u) = some s ->
    (m'.job s).type = if (m.job s).installed then (m.job s).type else mergeTypeOf m u

theorem mergeChains_spec (units : List U) (nodup : units.Nodup) (m : Manager U) (wf : WellFormed m) :
    MergeStep m (units.foldl mergeChain m) ∧
    (∀ u ∈ units, (units.foldl mergeChain m).chain u =
        (mergeSurvivor m (m.chain u)).toList ∧
      ∀ s, mergeSurvivor m (m.chain u) = some s ->
        ((units.foldl mergeChain m).job s).type =
          if (m.job s).installed then (m.job s).type else mergeTypeOf m u) ∧
    ∀ u ∉ units, (units.foldl mergeChain m).chain u = m.chain u ∧
      ∀ j ∈ m.chain u, (units.foldl mergeChain m).job j = m.job j := by
  induction units generalizing m with
  | nil => exact ⟨.refl wf, by simp, fun _ _ => ⟨rfl, fun _ _ => rfl⟩⟩
  | cons v rest ih =>
    obtain ⟨fresh, nodupRest⟩ := nodup_cons.mp nodup
    have first := mergeChain_spec m wf v
    obtain ⟨step, inside, outside⟩ := ih nodupRest (mergeChain m v) first.step.wf
    have away : ∀ u, u ≠ v -> ∀ j ∈ m.chain u, (mergeChain m v).job j = m.job j := by
      intro u ne j mem
      refine first.away j fun inV => ne ?_
      exact (wf.chainUnit u j mem).symm.trans (wf.chainUnit v j inV)
    simp only [foldl_cons]
    refine ⟨first.step.trans step, ?_, ?_⟩
    · intro u mem
      by_cases same : u = v
      · subst same
        obtain ⟨kept, jobs⟩ := outside u fresh
        refine ⟨kept.trans first.chain, fun s survivor => ?_⟩
        have inChain : s ∈ (mergeChain m u).chain u := by
          rw [first.chain, survivor]
          simp
        rw [jobs s inChain]
        exact first.typed s survivor
      · obtain ⟨chain, typed⟩ := inside u ((mem_cons.mp mem).resolve_left same)
        have survivors : mergeSurvivor (mergeChain m v) ((mergeChain m v).chain u) =
            mergeSurvivor m (m.chain u) := by
          rw [first.others u same]
          exact mergeSurvivor_congr _ first.step.installed
        have merged : mergeTypeOf (mergeChain m v) u = mergeTypeOf m u :=
          mergeTypeOf_congr (first.others u same) (fun j h => by rw [away u same j h])
            (by rw [first.step.metaJob])
            (fun k found => by
              rw [first.step.untouched k (wf.jobInstalled k (wf.metaJobs u k found).1)])
        rw [survivors] at chain typed
        refine ⟨chain, fun s survivor => ?_⟩
        rw [typed s survivor, merged, first.step.installed,
          away u same s (mergeSurvivor_mem survivor)]
    · intro u absent
      have notV : u ≠ v := fun same => absent (by simp [same])
      obtain ⟨chain, jobs⟩ := outside u fun h => absent (mem_cons_of_mem _ h)
      refine ⟨chain.trans (first.others u notV), fun j mem => ?_⟩
      rw [jobs j (by rwa [first.others u notV]), away u notV j mem]

theorem mergeChains_all (m : Manager U) (wf : WellFormed m) :
    AllMerged m (m.transactionUnits.foldl mergeChain m) := by
  obtain ⟨step, inside, outside⟩ := mergeChains_spec m.transactionUnits wf.unitsNodup m wf
  have empty : ∀ u, u ∉ m.transactionUnits -> m.chain u = [] := by
    intro u absent
    by_contra nonempty
    exact absent ((wf.unitsChain u).mpr nonempty)
  refine ⟨step, fun u => ?_, fun u s survivor => ?_⟩
  · by_cases mem : u ∈ m.transactionUnits
    · exact (inside u mem).1
    · rw [(outside u mem).1, empty u mem]
      rfl
  · by_cases mem : u ∈ m.transactionUnits
    · exact (inside u mem).2 s survivor
    · rw [empty u mem] at survivor
      cases survivor

inductive MergeCase (m : Manager U) : Manager U × Status U -> Prop where
  | conflict (d : JobId) (gone : List JobId) : (m.job d).mattersToAnchor = false ->
      m.InTransaction d -> Cascade m d true gone -> MergeCase m (m.without gone, .error .again)
  | refused (merged type : JobType) (u : U) (errno : Errno) :
      MergeCase m (m, .error (.jobsConflicting merged type u errno))
  | merged (m' : Manager U) : (∀ u, chainConflict m u = none) -> AllMerged m m' ->
      MergeCase m (m', .ok ())

theorem mem_orderedPairs {A : Type} (items : List A) (pair : A × A)
    (mem : pair ∈ orderedPairs items) : pair.1 ∈ items ∧ pair.2 ∈ items := by
  induction items with
  | nil => cases mem
  | cons x rest ih =>
    rcases mem_append.mp mem with first | later
    · obtain ⟨y, inRest, rfl⟩ := mem_map.mp first
      exact ⟨by simp, mem_cons_of_mem _ inRest⟩
    · obtain ⟨one, two⟩ := ih later
      exact ⟨mem_cons_of_mem _ one, mem_cons_of_mem _ two⟩

omit [DecidableEq U] in
theorem unmergeableVictim_spec (m : Manager U) (j k d : JobId)
    (victim : unmergeableVictim m j k = some d) :
    (d = j ∨ d = k) ∧ (m.job d).mattersToAnchor = false := by
  unfold unmergeableVictim at victim
  cases first : (m.job j).mattersToAnchor <;> cases second : (m.job k).mattersToAnchor <;>
    simp only [first, second] at victim <;> grind

theorem transactionMergeJobs_cases (m : Manager U) (wf : WellFormed m) :
    MergeCase m (transactionMergeJobs m) := by
  unfold transactionMergeJobs
  cases picked : m.transactionUnits.find? fun u => (chainConflict m u).isSome with
  | some u =>
    have some : (chainConflict m u).isSome = true := by simpa using find?_some picked
    obtain ⟨⟨type, k⟩, conflict⟩ := isSome_iff_exists.mp some
    simp only [conflict]
    unfold deleteOneUnmergeableJob
    cases found : (orderedPairs (m.chain u)).find? fun pair =>
        !jobTypeIsMergeable (m.job pair.1).type (m.job pair.2).type with
    | none => exact .refused _ _ _ _
    | some pair =>
      obtain ⟨j, l⟩ := pair
      cases victim : unmergeableVictim m j l with
      | none =>
        simp only [victim]
        exact .refused _ _ _ _
      | some d =>
        obtain ⟨one, two⟩ := mem_orderedPairs _ _ (mem_of_find?_eq_some found)
        obtain ⟨which, idle⟩ := unmergeableVictim_spec m j l d victim
        have inside : d ∈ m.chain u := by
          rcases which with rfl | rfl
          · exact one
          · exact two
        obtain ⟨gone, deleted, cascade⟩ := wf.deleteJob_spec d true
        simp only [victim, deleted]
        exact .conflict d gone idle ⟨u, inside⟩ cascade
  | none =>
    refine .merged _ (fun u => ?_) (mergeChains_all m wf)
    by_cases mem : u ∈ m.transactionUnits
    · simpa using find?_eq_none.mp picked u mem
    · have empty : m.chain u = [] := by
        by_contra nonempty
        exact mem ((wf.unitsChain u).mpr nonempty)
      simp [chainConflict, empty]

end Systemd
