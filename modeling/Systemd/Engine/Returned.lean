import Systemd.Engine.Calm

set_option autoImplicit false

namespace Systemd

open List Option

variable {U : Type}

/-- The job a request was answered with is the job of the requested unit, and does what was asked. -/
structure ReturnedLive (m : Manager U) (request : JobRequest U) (ret : JobId) : Prop where
  mem : ret ∈ m.jobs
  unit : (m.job ret).unit = request.unit
  metaJob : m.metaJob request.unit = some ret
  type : jobTypeIsSuperset (m.job ret).type request.type = true

def StandsAlone (m : Manager U) (u : U) : Prop :=
  match m.chain u with
  | [_] => True
  | [k, _] => m.metaJob u = some k
  | _ => False

theorem mergeSurvivor_last {m : Manager U} (wf : WellFormed m) (u : U) (ret : JobId)
    (others : List JobId) (chain : m.chain u = others ++ [ret]) :
    mergeSurvivor m (m.chain u) = some ret ↔ StandsAlone m u := by
  have nodup := wf.chainNodup u
  rw [chain] at nodup
  have fresh : ret ∉ others := fun inOthers => by
    have := disjoint_of_nodup_append nodup inOthers
    simp at this
  unfold StandsAlone
  match others with
  | [] => simp [chain, mergeSurvivor]
  | [k] =>
    have ne : k ≠ ret := fun same => fresh (by simp [same])
    have installed_iff : (m.job k).installed = true ↔ m.metaJob u = some k := by
      constructor
      · exact wf.chainInstalled u k (by simp [chain])
      · exact fun found => wf.jobInstalled k (wf.metaJobs u k found).1
    by_cases installed : (m.job k).installed = true
    · simp [chain, mergeSurvivor, ← installed_iff, installed]
    · simp [chain, mergeSurvivor, ← installed_iff, installed, ne]
  | k :: l :: rest =>
    have notFirst : k ≠ ret := fun same => fresh (by simp [same])
    have notSecond : l ≠ ret := fun same => fresh (by simp [same])
    by_cases installed : (m.job k).installed = true
    · cases rest <;> simp [chain, mergeSurvivor, installed, notSecond]
    · cases rest <;> simp [chain, mergeSurvivor, installed, notFirst]

variable [DecidableEq U] [Fintype U]

/-- The type of a second new job that the requested unit may have beside the one asked for. -/
def Rival (m : Manager U) (request : JobRequest U) (type : JobType) : Prop :=
  type ≠ request.type ∧ jobTypeIsMergeable type request.type = true ∧
    ∀ k, m.metaJob request.unit = some k -> (m.job k).type ≠ type

/-- Jobs that may keep one another in the transaction until the merge: unless it isolates, the units that
have nothing but redundant jobs lose them, and so does a unit whose first job nobody asks for. -/
structure Sustained (E : Units U) (m : Manager U) (request : JobRequest U) (jobs : JobType -> U -> Prop) :
    Prop where
  asked : ∀ type u, jobs type u -> Asked E m request type u
  busy : request.mode ≠ .isolate -> ∀ type u, jobs type u ->
    u = request.unit ∨ ∃ type', Asked E m request type' u ∧ ¬ Superfluous m type' u
  pulled : request.mode ≠ .isolate -> ∀ type u, jobs type u -> type ≠ request.type ∨ u ≠ request.unit ->
    ∃ first, jobs first u ∧ (first ≠ request.type ∨ u ≠ request.unit) ∧
      ∃ type' v matters, jobs type' v ∧ PulledAlong E type' v first u matters

def Unrivalled (E : Units U) (m : Manager U) (request : JobRequest U) : Prop :=
  ∀ jobs, Sustained E m request jobs -> ∀ type, Rival m request type -> ¬ jobs type request.unit

def Contested (E : Units U) (m : Manager U) (request : JobRequest U) : Prop :=
  request.call.ignoreRequirements = false ∧
    ∃ type, Rival m request type ∧ Insists E m request.type request.unit type request.unit

namespace Succeeded

variable {E : Units U} {e : Entry U} {ret : JobId} {m1 m m' final : Manager U}

-- The requested unit's jobs when they are merged: those put in after the requested one, and last
-- the requested one.
theorem chain (stages : Succeeded E e ret m1 m m' final) :
    ∃ others, m.chain e.request.unit = others ++ [ret] ∧
      ∀ j ∈ others, j ∈ m1.chain e.request.unit ∧ (m.job j).type ≠ e.request.type := by
  obtain ⟨gone, dropped, screened⟩ := stages.accepted.screened
  have whole := stages.accepted.wf.marked.trans screened.pruned
  have kept : ret ∉ gone := ((screened.pruned.mem_chain _ ret).mp (stages.requested_busy ret).1).2
  obtain ⟨added, chain, types⟩ := stages.root
  refine ⟨added.filter (· ∉ gone), ?_, fun j mem => ?_⟩
  · rw [whole.chain]
    simp [Manager.without, chain, kept]
  · have inAdded := (mem_filter.mp mem).1
    rw [(whole.same j).type]
    exact ⟨by simp [chain, inAdded], types j inAdded⟩

theorem sustained (stages : Succeeded E e ret m1 m m' final) : Sustained E e.manager e.request
    fun type u => ∃ j ∈ m.chain u, (m.job j).type = type := by
  obtain ⟨built, _⟩ := stages.built
  obtain ⟨gone, pruned⟩ := stages.accepted.pruned
  have wf := stages.accepted.wfMerge
  refine ⟨?_, fun keeping => ?_, fun keeping => ?_⟩
  · rintro _ u ⟨j, mem, rfl⟩
    exact stages.asked mem
  · rintro type u ⟨j, mem, _⟩
    obtain ⟨k, inChain, worth⟩ := stages.accepted.round.busy stages.accepted.wf.marked.wf
      (ne_nil_of_mem mem)
    rw [stages.accepted.wf.marked_chain] at inChain
    rw [stages.accepted.wf.marked.jobIsNoop k (by simp), ← Bool.not_eq_true, stages.noop_iff inChain] at worth
    by_cases anchor : jobIsAnchor m1 k = true
    · obtain ⟨link, inLinks, rfl, subject⟩ := (jobIsAnchor_iff m1 k).mp anchor
      rcases built.anchors link inLinks subject with old | ⟨_, unit⟩ | ⟨isolate, _⟩
      · simp [stages.quiet.links] at old
      · exact .inl (by rw [← unit, stages.accepted.wf.chainUnit u _ inChain])
      · exact absurd isolate keeping
    · exact .inr ⟨_, (built.added stages.quiet u k inChain).1, fun idle => worth ⟨by simpa using anchor, idle⟩⟩
  · rintro _ u ⟨j, mem, rfl⟩ other
    obtain ⟨head, rest, chain⟩ := exists_cons_of_ne_nil (ne_nil_of_mem mem)
    have inHead : head ∈ m.chain u := by simp [chain]
    have first : (m.job head).type ≠ e.request.type ∨ u ≠ e.request.unit := by
      by_cases requested : u = e.request.unit
      · subst requested
        obtain ⟨others, split, new⟩ := stages.chain
        cases others with
        | nil =>
          rw [split] at mem
          obtain rfl : j = ret := by simpa using mem
          refine absurd other ?_
          rw [(pruned.same j).type, stages.built.2.type]
          simp [JobRequest.call]
        | cons k others =>
          obtain rfl : head = k := by
            rw [chain] at split
            exact (List.cons.inj split).1
          exact .inl (new head (by simp)).2
      · exact .inr requested
    refine ⟨_, ⟨head, inHead, rfl⟩, first, ?_⟩
    obtain ⟨link, inLinks, rfl⟩ := stages.accepted.round.headed stages.accepted.wf.marked.wf keeping
      (show m.transactionGet u = some head by simp [Manager.transactionGet, chain])
    have inBuilt : link ∈ m1.links := by
      rw [pruned.links] at inLinks
      exact ((m1.mem_without_links gone link).mp inLinks).1
    have unit := wf.chainUnit u _ inHead
    cases subject : link.subject with
    | none =>
      rcases built.anchors link inBuilt subject with old | ⟨type, requested⟩ | ⟨isolate, _⟩
      · simp [stages.quiet.links] at old
      · rw [← (pruned.same _).type] at type
        rw [← (pruned.same _).unit, unit] at requested
        simp [type, requested] at first
      · exact absurd isolate keeping
    | some s =>
      obtain ⟨added, links, along⟩ := built.growth.links
      rw [stages.quiet.links, append_nil] at links
      have pulled := along link (links ▸ inBuilt) s subject
      rw [← (pruned.same s).type, ← (pruned.same s).unit, ← (pruned.same link.object).type,
        ← (pruned.same link.object).unit, unit] at pulled
      exact ⟨_, _, _, ⟨s, wf.inTransaction_chain (wf.linkSubject link inLinks s subject), rfl⟩, pulled⟩

theorem standsAlone (stages : Succeeded E e ret m1 m m' final)
    (unrivalled : Unrivalled E e.manager e.request) : StandsAlone m e.request.unit := by
  obtain ⟨built, placed⟩ := stages.built
  obtain ⟨gone, pruned⟩ := stages.accepted.pruned
  obtain ⟨others, chain, new⟩ := stages.chain
  -- Every other job that is left merges with the requested one, so it is the installed job.
  have installed : ∀ j ∈ others, m.metaJob e.request.unit = some j := by
    intro j mem
    obtain ⟨inBuilt, ne⟩ := new j mem
    have mergeable := chainConflict_types (stages.accepted.mergeable e.request.unit) j ret
      (by simp [chain, mem]) (by simp [chain])
    rw [(pruned.same ret).type.trans placed.type] at mergeable
    have known : ∃ k, e.manager.metaJob e.request.unit = some k ∧ (e.manager.job k).type = (m.job j).type := by
      by_contra none
      simp only [not_exists, not_and] at none
      exact unrivalled _ stages.sustained (m.job j).type ⟨ne, mergeable, none⟩
        ⟨j, by simp [chain, mem], rfl⟩
    obtain ⟨k, found, type⟩ := known
    rw [stages.metaJob, found]
    refine congrArg some (built.growth.reused e.request.unit j inBuilt ?_ k found ?_).symm
    · simp [stages.quiet.chain]
    · rw [(built.growth.kept k (stages.wf.jobFresh k (stages.wf.metaJobs _ k found).1)).type, type,
        (pruned.same j).type]
  have nodup := stages.accepted.wfMerge.chainNodup e.request.unit
  rw [chain] at nodup
  match others with
  | [] => simp [StandsAlone, chain]
  | [k] => simpa [StandsAlone, chain] using installed k (by simp)
  | k :: l :: rest =>
    have first := installed k (by simp)
    have second := installed l (by simp)
    obtain rfl := some.inj (first.symm.trans second)
    simp at nodup

theorem contested (stages : Succeeded E e ret m1 m m' final) (contested : Contested E e.manager e.request) :
    ¬ StandsAlone m e.request.unit := by
  obtain ⟨requirements, type, ⟨ne, _, unknown⟩, insists⟩ := contested
  obtain ⟨_, pruned⟩ := stages.accepted.pruned
  have typeRet : (m.job ret).type = e.request.type := (pruned.same ret).type.trans stages.built.2.type
  obtain ⟨j, mem, rfl⟩ := stages.insists_kept requirements (stages.requested_busy ret).1 typeRet insists
  obtain ⟨others, chain, _⟩ := stages.chain
  have inOthers : j ∈ others := by
    rw [chain] at mem
    refine (mem_append.mp mem).resolve_right fun last => ne ?_
    rw [mem_singleton.mp last, typeRet]
  unfold StandsAlone
  match others, inOthers with
  | [k], inOthers =>
    obtain rfl := mem_singleton.mp inOthers
    simp only [chain, singleton_append]
    intro found
    rw [stages.metaJob] at found
    exact unknown j found (stages.oldJob (stages.wf.metaJobs _ j found).1).type.symm
  | _ :: _ :: _, _ => simp [chain]

theorem live_iff (stages : Succeeded E e ret m1 m m' final)
    (calm : e.request.mode = .isolate -> Undisturbed E m') :
    ReturnedLive final e.request ret ↔ StandsAlone m e.request.unit := by
  obtain ⟨built, placed⟩ := stages.built
  obtain ⟨_, pruned⟩ := stages.accepted.pruned
  obtain ⟨others, chain, _⟩ := stages.chain
  have nonempty : m.chain e.request.unit ≠ [] := by simp [chain]
  obtain ⟨s, survivor⟩ := mergeSurvivor_exists m nonempty
  obtain ⟨inChain, busy⟩ := stages.requested_busy s
  obtain ⟨installed, type⟩ := (stages.installed calm e.request.unit s survivor).1 busy
  rw [← mergeSurvivor_last stages.accepted.wfMerge e.request.unit ret others chain, survivor,
    some.injEq]
  constructor
  · intro live
    exact some.inj (installed.symm.trans live.metaJob)
  · rintro rfl
    obtain ⟨mem, unit⟩ := (stages.applied calm).wf.metaJobs _ s installed
    refine ⟨mem, unit, installed, ?_⟩
    have typeS : (m.job s).type = e.request.type := (pruned.same s).type.trans placed.type
    rw [type, mergedType]
    split
    · rw [typeS]
      exact jobTypeIsSuperset_refl _
    · rw [← typeS]
      exact mergeTypeOf_superset (stages.accepted.mergeable _) inChain

end Succeeded

-- The first unit requires the second.
def requisiteLoop (requisite : List (Fin 2)) : Units (Fin 2) :=
  loadedUnits 2 fun kind u =>
    if kind = .requires ∧ u = 0 then [1] else if kind = .requisite ∧ u = 1 then requisite else []

end Systemd
