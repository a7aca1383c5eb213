import Systemd.Engine.WellFormed
import Systemd.Shared.Loop

set_option autoImplicit false

namespace Systemd

open Loop List

variable {U : Type} [DecidableEq U]

def transactionDeleteUnit (m : Manager U) (u : U) : Manager U :=
  repeatWhile (fun m => m.transactionGet u) (fun m j => transactionDeleteJob m j true)
    m.transactionList.length m

def transactionCleanDependencies (m : Manager U) : Manager U :=
  { m with
    links := m.links.filter fun link => link.object ∉ m.jobs ∧ ∀ j ∈ m.jobs, link.subject ≠ some j }

def transactionAbort (m : Manager U) : Manager U :=
  transactionCleanDependencies <|
    repeatWhile (fun m => m.transactionHeads.head?)
      (fun m j => if (m.job j).installed then transactionDeleteJob m j true else jobFree m j)
      m.transactionList.length m

def findJobsThatMatter (generation : Nat) : Nat -> Manager U -> List JobDependency -> Manager U
  | 0, m, _ => m
  | fuel + 1, m, links =>
    links.foldl (fun m link =>
      if !link.matters then m
      else if (m.job link.object).generation = generation then m
      else
        findJobsThatMatter generation fuel
          (m.setJob link.object fun job =>
            { job with mattersToAnchor := true, generation := generation })
          (m.subjectList link.object)) m

-- Every level of the recursion marks a job of the transaction.
def transactionFindJobsThatMatterToAnchor (m : Manager U) (generation : Nat) : Manager U :=
  findJobsThatMatter generation m.transactionList.length m m.transactionAnchor

def stopsRunningService (m : Manager U) (j : JobId) : Bool :=
  (m.job j).type == .stop && (m.activeState (m.job j).unit).isActiveOrActivating

def changesExistingJob (m : Manager U) (j : JobId) : Bool :=
  match m.metaJob (m.job j).unit with
  | some other => jobTypeIsConflicting (m.job j).type (m.job other).type
  | none => false

def transactionMinimizeImpact (m : Manager U) : Manager U :=
  repeatWhile
    (fun m => m.transactionList.find? fun j =>
      !(m.job j).mattersToAnchor && (stopsRunningService m j || changesExistingJob m j))
    (fun m j => transactionDeleteJob m j true) m.transactionList.length m

def jobIsNoop (m : Manager U) (k : JobId) : Bool :=
  !jobIsAnchor m k &&
    ((m.job k).installed || jobTypeIsRedundant (m.job k).type (m.activeState (m.job k).unit)) &&
    !changesExistingJob m k

def transactionDropRedundant (m : Manager U) : Manager U :=
  repeatWhile
    (fun m => m.transactionUnits.findSome? fun u =>
      if (m.chain u).all (jobIsNoop m) then m.transactionGet u else none)
    (fun m j => transactionDeleteJob m j false) m.transactionList.length m

def transactionCollectGarbage (m : Manager U) : Manager U :=
  repeatWhile (fun m => m.transactionHeads.find? fun j => (m.objectList j).isEmpty)
    (fun m j => transactionDeleteJob m j true) m.transactionList.length m

def transactionIsDestructive (m : Manager U) : Bool :=
  m.transactionHeads.any fun j =>
    match m.metaJob (m.job j).unit with
    | some other => other ≠ j && !jobTypeIsSuperset (m.job j).type (m.job other).type
    | none => false

variable (m : Manager U)

section

omit [DecidableEq U]

theorem jobIsAnchor_iff (j : JobId) :
    jobIsAnchor m j = true ↔ ∃ link ∈ m.links, link.object = j ∧ link.subject = none := by
  simp only [jobIsAnchor, Manager.objectList, any_filter, any_eq_true, Bool.and_eq_true,
    decide_eq_true_eq]

theorem jobIsAnchor_without (gone : List JobId) (j : JobId) (kept : j ∉ gone) :
    jobIsAnchor (m.without gone) j = jobIsAnchor m j := by
  rw [Bool.eq_iff_iff, jobIsAnchor_iff, jobIsAnchor_iff]
  constructor
  · rintro ⟨link, mem, object, subject⟩
    exact ⟨link, ((m.mem_without_links gone link).mp mem).1, object, subject⟩
  · rintro ⟨link, mem, object, subject⟩
    refine ⟨link, (m.mem_without_links gone link).mpr ⟨mem, object ▸ kept, ?_⟩, object, subject⟩
    simp [subject]

theorem jobIsNoop_without (gone : List JobId) (j : JobId) (kept : j ∉ gone) :
    jobIsNoop (m.without gone) j = jobIsNoop m j := by
  simp [jobIsNoop, jobIsAnchor_without m gone j kept, changesExistingJob]

end

def NeedsClosed (m : Manager U) (gone : List JobId) : Prop :=
  ∀ a b, Needs m a b -> b ∈ gone -> a ∈ gone

variable {m : Manager U} {gone : List JobId}

section

omit [DecidableEq U]

theorem Cascade.needsClosed {j : JobId} (cascade : Cascade m j true gone) : NeedsClosed m gone := by
  rintro a b ⟨link, mem, matters, subject, object⟩ inGone
  exact cascade.closed rfl link mem matters (object ▸ inGone) a subject

theorem needs_without (m : Manager U) (gone : List JobId) (a b : JobId) :
    Needs (m.without gone) a b ↔ Needs m a b ∧ a ∉ gone ∧ b ∉ gone := by
  constructor
  · rintro ⟨link, mem, matters, subject, rfl⟩
    obtain ⟨inLinks, object, others⟩ := (m.mem_without_links gone link).mp mem
    exact ⟨⟨link, inLinks, matters, subject, rfl⟩, others a subject, object⟩
  · rintro ⟨⟨link, mem, matters, subject, rfl⟩, outA, outB⟩
    refine ⟨link, (m.mem_without_links gone link).mpr ⟨mem, outB, ?_⟩, matters, subject, rfl⟩
    rintro s same
    exact Option.some.inj (subject.symm.trans same) ▸ outA

theorem NeedsClosed.append {gone' : List JobId} (first : NeedsClosed m gone)
    (second : NeedsClosed (m.without gone) gone') : NeedsClosed m (gone ++ gone') := by
  intro a b needs inGone
  rw [mem_append] at inGone ⊢
  by_cases outB : b ∈ gone
  · exact .inl (first a b needs outB)
  · by_cases outA : a ∈ gone
    · exact .inl outA
    · exact .inr (second a b ((needs_without m gone a b).mpr ⟨needs, outA, outB⟩)
        (inGone.resolve_left outB))

theorem mem_transactionList_without (wf : WellFormed m) (gone : List JobId) (j : JobId) :
    j ∈ (m.without gone).transactionList ↔ j ∈ m.transactionList ∧ j ∉ gone := by
  rw [← (wf.without gone).inTransaction_iff, ← wf.inTransaction_iff]
  simp only [Manager.InTransaction, Manager.mem_without_chain]
  constructor
  · rintro ⟨u, h, out⟩
    exact ⟨⟨u, h⟩, out⟩
  · rintro ⟨⟨u, h⟩, out⟩
    exact ⟨u, h, out⟩

theorem transactionList_nodup (wf : WellFormed m) : m.transactionList.Nodup := by
  refine nodup_flatMap.mpr ⟨fun u _ => wf.chainNodup u, ?_⟩
  refine wf.unitsNodup.imp fun {u v} ne j inU inV => ne ?_
  exact (wf.chainUnit u j inU).symm.trans (wf.chainUnit v j inV)

theorem transactionList_without_length (wf : WellFormed m) (gone : List JobId) (j : JobId)
    (mem : j ∈ m.transactionList) (inGone : j ∈ gone) :
    (m.without gone).transactionList.length < m.transactionList.length := by
  have nodup := (transactionList_nodup (wf.without gone)).cons (a := j)
    (fun h => ((mem_transactionList_without wf gone j).mp h).2 inGone)
  have fewer : j :: (m.without gone).transactionList ⊆ m.transactionList := by
    intro k h
    rcases mem_cons.mp h with rfl | h
    · exact mem
    · exact ((mem_transactionList_without wf gone k).mp h).1
  have shorter := (nodup.subperm fewer).length_le
  rw [length_cons] at shorter
  omega

end

theorem deletePass_spec (pick : Manager U -> Option JobId) (P : JobId -> Prop) (turns : Nat)
    (m : Manager U) (wf : WellFormed m) (picked : ∀ gone j, pick (m.without gone) = some j -> P j)
    (back : ∀ a b, Needs m a b -> P b -> P a) :
    ∃ gone, repeatWhile pick (fun m j => transactionDeleteJob m j true) turns m = m.without gone ∧
      NeedsClosed m gone ∧ ∀ d ∈ gone, P d := by
  apply repeatWhile_invariant pick _ fun m' =>
    ∃ gone, m' = m.without gone ∧ NeedsClosed m gone ∧ ∀ d ∈ gone, P d
  · rintro _ j ⟨gone, rfl, closed, all⟩ found
    obtain ⟨gone', deleted, cascade⟩ := (wf.without gone).deleteJob_spec j true
    refine ⟨gone ++ gone', by rw [deleted, m.without_without], closed.append cascade.needsClosed, ?_⟩
    have root := picked gone j found
    intro d inGone
    rcases mem_append.mp inGone with first | second
    · exact all d first
    · rcases cascade.reach d second with rfl | path
      · exact root
      · exact Relation.TransGen.closed' (r := Needs (m.without gone)) (P := P)
          (fun {a b} needs => back a b ((needs_without m gone a b).mp needs).1) path root
  · exact ⟨[], wf.without_nil.symm, by simp [NeedsClosed], by simp⟩

theorem deletePass_exhausted (pick : Manager U -> Option JobId)
    (inside : ∀ m j, WellFormed m -> pick m = some j -> m.InTransaction j) (dd : Bool)
    (m : Manager U) (wf : WellFormed m) :
    pick (repeatWhile pick (fun m j => transactionDeleteJob m j dd) m.transactionList.length m) =
      none := by
  apply repeatWhile_exhausted pick _ WellFormed fun m => m.transactionList.length
  · exact fun m j wf _ => wf.deleteJob j dd
  · intro m j wf found
    obtain ⟨gone, deleted, cascade⟩ := wf.deleteJob_spec j dd
    rw [deleted]
    exact transactionList_without_length wf gone j ((wf.inTransaction_iff j).mp (inside m j wf found))
      cascade.root
  · exact wf
  · rfl

def MattersClosed (m : Manager U) : Prop :=
  ∀ link ∈ m.links, link.matters = true ->
    (∀ s, link.subject = some s -> (m.job s).mattersToAnchor = true) ->
    (m.job link.object).mattersToAnchor = true

omit [DecidableEq U] in
theorem MattersClosed.back (closed : MattersClosed m) (a b : JobId) (needs : Needs m a b)
    (idle : (m.job b).mattersToAnchor = false) : (m.job a).mattersToAnchor = false := by
  obtain ⟨link, mem, matters, subject, rfl⟩ := needs
  by_contra busy
  have := closed link mem matters (by simp_all)
  simp_all

theorem transactionMinimizeImpact_spec (m : Manager U) (wf : WellFormed m) (closed : MattersClosed m) :
    ∃ gone, transactionMinimizeImpact m = m.without gone ∧ NeedsClosed m gone ∧
      ∀ d ∈ gone, (m.job d).mattersToAnchor = false := by
  refine deletePass_spec _ (fun d => (m.job d).mattersToAnchor = false) _ m wf ?_ closed.back
  intro gone j found
  have := find?_some found
  simp_all

theorem transactionMinimizeImpact_without (m : Manager U) (wf : WellFormed m) :
    ∃ gone, transactionMinimizeImpact m = m.without gone ∧ NeedsClosed m gone := by
  obtain ⟨gone, minimized, closed, _⟩ := deletePass_spec _ (fun _ => True) _ m wf
    (fun _ _ _ => trivial) (fun _ _ _ _ => trivial)
  exact ⟨gone, minimized, closed⟩

theorem WellFormed.deleteJob_unlinked (wf : WellFormed m) (j : JobId)
    (unlinked : ∀ link ∈ m.links, link.object ≠ j) : transactionDeleteJob m j true = m.without [j] := by
  obtain ⟨gone, deleted, cascade⟩ := wf.deleteJob_spec j true
  rw [deleted]
  apply m.without_congr
  intro d
  rw [mem_singleton]
  constructor
  · intro inGone
    rcases cascade.reach d inGone with same | path
    · exact same
    · obtain ⟨_, _, link, mem, _, _, object⟩ := Relation.TransGen.tail'_iff.mp path
      exact absurd object (unlinked link mem)
  · rintro rfl
    exact cascade.root

omit [DecidableEq U] in
theorem unlinked_of_found {j : JobId}
    (found : m.transactionHeads.find? (fun j => (m.objectList j).isEmpty) = some j) :
    ∀ link ∈ m.links, link.object ≠ j := by
  intro link mem same
  have unlinked : m.objectList j = [] := by simpa using find?_some found
  have := filter_eq_nil_iff.mp unlinked link mem
  simp_all

omit [DecidableEq U] in
theorem inTransaction_of_head {j : JobId} {p : JobId -> Bool} (found : m.transactionHeads.find? p = some j) :
    m.InTransaction j := by
  obtain ⟨u, _, head⟩ := mem_filterMap.mp (mem_of_find?_eq_some found)
  exact ⟨u, WellFormed.transactionGet_mem head⟩

-- A job is collected when the last link to it has gone, so an anchor job never is, and nothing is
-- taken along.
theorem transactionCollectGarbage_spec (m : Manager U) (wf : WellFormed m) :
    ∃ gone, transactionCollectGarbage m = m.without gone ∧ NeedsClosed m gone ∧
      (∀ d ∈ gone, jobIsAnchor m d = false) ∧
      ∀ link ∈ m.links, link.object ∈ gone -> ∃ s ∈ gone, link.subject = some s := by
  unfold transactionCollectGarbage
  generalize m.transactionList.length = turns
  apply repeatWhile_invariant _ _ fun m' =>
    ∃ gone, m' = m.without gone ∧ NeedsClosed m gone ∧ (∀ d ∈ gone, jobIsAnchor m d = false) ∧
      ∀ link ∈ m.links, link.object ∈ gone -> ∃ s ∈ gone, link.subject = some s
  · rintro _ j ⟨gone, rfl, closed, anchors, linked⟩ found
    have noLink := unlinked_of_found found
    obtain ⟨u, mem⟩ := inTransaction_of_head found
    have kept : j ∉ gone := ((m.mem_without_chain gone u j).mp mem).2
    have alone : NeedsClosed (m.without gone) [j] := by
      rintro a b ⟨link, mem, _, _, object⟩ inGone
      exact absurd (object.trans (mem_singleton.mp inGone)) (noLink link mem)
    refine ⟨gone ++ [j], ?_, closed.append alone, ?_, ?_⟩
    · rw [(wf.without gone).deleteJob_unlinked j noLink, m.without_without]
    · intro d inGone
      rcases mem_append.mp inGone with first | second
      · exact anchors d first
      · rw [mem_singleton.mp second, ← Bool.not_eq_true, ← jobIsAnchor_without m gone j kept,
          jobIsAnchor_iff]
        rintro ⟨link, mem, object, _⟩
        exact noLink link mem object
    · intro link mem object
      rcases mem_append.mp object with first | second
      · obtain ⟨s, inGone, subject⟩ := linked link mem first
        exact ⟨s, mem_append_left _ inGone, subject⟩
      · have object := mem_singleton.mp second
        by_contra absent
        refine noLink link ((m.mem_without_links gone link).mpr ⟨mem, object ▸ kept, ?_⟩) object
        exact fun s subject inGone => absent ⟨s, mem_append_left _ inGone, subject⟩
  · exact ⟨[], wf.without_nil.symm, by simp [NeedsClosed], by simp, by simp⟩

theorem transactionCollectGarbage_headed (m : Manager U) (wf : WellFormed m) {u : U} {head : JobId}
    (found : (transactionCollectGarbage m).transactionGet u = some head) :
    ∃ link ∈ (transactionCollectGarbage m).links, link.object = head := by
  have done := deletePass_exhausted
    (fun m => m.transactionHeads.find? fun j => (m.objectList j).isEmpty)
    (fun _ _ _ => inTransaction_of_head) true m wf
  change (transactionCollectGarbage m).transactionHeads.find? _ = none at done
  obtain ⟨gone, collected, _⟩ := transactionCollectGarbage_spec m wf
  have wf' : WellFormed (transactionCollectGarbage m) := collected ▸ wf.without gone
  have mem : head ∈ (transactionCollectGarbage m).transactionHeads :=
    mem_filterMap.mpr ⟨u, wf'.chainMem (WellFormed.transactionGet_mem found), found⟩
  have linked := find?_eq_none.mp done head mem
  obtain ⟨link, inList⟩ := exists_mem_of_ne_nil _ (by simpa using linked)
  obtain ⟨inLinks, object⟩ := mem_filter.mp inList
  exact ⟨link, inLinks, by simpa using object⟩

theorem transactionDropRedundant_spec (m : Manager U) (wf : WellFormed m) :
    ∃ gone, transactionDropRedundant m = m.without gone ∧
      ∀ d ∈ gone, m.InTransaction d ∧
        ∀ k ∈ m.chain (m.job d).unit, jobIsNoop m k = true := by
  unfold transactionDropRedundant
  generalize m.transactionList.length = turns
  apply repeatWhile_invariant _ _ fun m' => ∃ gone, m' = m.without gone ∧
    ∀ d ∈ gone, m.InTransaction d ∧
      ∀ k ∈ m.chain (m.job d).unit, jobIsNoop m k = true
  · rintro _ j ⟨gone, rfl, noops⟩ found
    obtain ⟨u, _, chosen⟩ := exists_of_findSome?_eq_some found
    by_cases all : ((m.without gone).chain u).all (jobIsNoop (m.without gone)) = true
    · rw [if_pos all] at chosen
      obtain ⟨inChain, _⟩ := (m.mem_without_chain gone u j).mp (WellFormed.transactionGet_mem chosen)
      obtain ⟨gone', deleted, cascade⟩ := (wf.without gone).deleteJob_spec j false
      refine ⟨gone ++ gone', by rw [deleted, m.without_without], ?_⟩
      intro d inGone
      rcases mem_append.mp inGone with first | second
      · exact noops d first
      · rw [cascade.alone rfl d second]
        refine ⟨⟨u, inChain⟩, ?_⟩
        intro k mem
        by_cases kGone : k ∈ gone
        · have unitK := wf.chainUnit _ k mem
          exact (noops k kGone).2 k (unitK ▸ mem)
        · rw [← jobIsNoop_without m gone k kGone]
          rw [wf.chainUnit u j inChain] at mem
          exact all_eq_true.mp all k ((m.mem_without_chain gone u k).mpr ⟨mem, kGone⟩)
    · rw [if_neg all] at chosen
      cases chosen
  · exact ⟨[], wf.without_nil.symm, by simp⟩

omit [DecidableEq U] in
theorem inTransaction_of_redundant {j : JobId} {p : U -> Bool}
    (found : (m.transactionUnits.findSome? fun u => if p u then m.transactionGet u else none) = some j) :
    m.InTransaction j := by
  obtain ⟨u, _, chosen⟩ := exists_of_findSome?_eq_some found
  split at chosen
  · exact ⟨u, WellFormed.transactionGet_mem chosen⟩
  · cases chosen

theorem transactionDropRedundant_exhausted (m : Manager U) (wf : WellFormed m) (u : U)
    (remains : (transactionDropRedundant m).chain u ≠ []) :
    ∃ k ∈ (transactionDropRedundant m).chain u, jobIsNoop (transactionDropRedundant m) k = false := by
  have done := deletePass_exhausted
    (fun m => m.transactionUnits.findSome? fun u =>
      if (m.chain u).all (jobIsNoop m) then m.transactionGet u else none)
    (fun _ _ _ => inTransaction_of_redundant) false m wf
  obtain ⟨gone, dropped, _⟩ := transactionDropRedundant_spec m wf
  have mem := ((dropped ▸ wf.without gone : WellFormed (transactionDropRedundant m)).unitsChain u).mpr
    remains
  have := findSome?_eq_none_iff.mp done u mem
  change (if ((transactionDropRedundant m).chain u).all
    (jobIsNoop (transactionDropRedundant m)) then _ else _) = _ at this
  split at this
  · have headNone : ((transactionDropRedundant m).chain u).head? = none := this
    exact absurd (head?_eq_none_iff.mp headNone) remains
  · rename_i notAll
    simpa using notAll

theorem transactionDeleteUnit_spec (m : Manager U) (wf : WellFormed m) (u : U) (P : JobId -> Prop)
    (picked : ∀ j ∈ m.chain u, P j) (back : ∀ a b, Needs m a b -> P b -> P a) :
    ∃ gone, transactionDeleteUnit m u = m.without gone ∧ NeedsClosed m gone ∧
      (∀ d ∈ gone, P d) ∧ ∀ j ∈ m.chain u, j ∈ gone := by
  obtain ⟨gone, deleted, closed, all⟩ := deletePass_spec (fun m => m.transactionGet u) P
    m.transactionList.length m wf
    (fun gone j found =>
      picked j ((m.mem_without_chain gone u j).mp (WellFormed.transactionGet_mem found)).1) back
  refine ⟨gone, deleted, closed, all, ?_⟩
  intro j mem
  by_contra kept
  have done := deletePass_exhausted (fun m => m.transactionGet u)
    (fun m j _ found => ⟨u, WellFormed.transactionGet_mem found⟩) true m wf
  rw [deleted] at done
  have empty : (m.without gone).chain u = [] := head?_eq_none_iff.mp done
  exact ne_nil_of_mem ((m.mem_without_chain gone u j).mpr ⟨mem, kept⟩) empty

theorem transactionAbort_spec (m : Manager U) (wf : WellFormed m) :
    transactionAbort m =
      { m with transactionUnits := [], chain := fun _ => [], links := [] } := by
  let pick : Manager U -> Option JobId := fun m => m.transactionHeads.head?
  let act : Manager U -> JobId -> Manager U := fun m j =>
    if (m.job j).installed then transactionDeleteJob m j true else jobFree m j
  have inside : ∀ m j, pick m = some j -> m.InTransaction j := by
    intro m j found
    obtain ⟨u, _, head⟩ := mem_filterMap.mp (mem_of_head? found)
    exact ⟨u, WellFormed.transactionGet_mem head⟩
  have deletes : ∀ m j, WellFormed m -> ∃ gone, act m j = m.without gone ∧ j ∈ gone := by
    intro m j wf
    by_cases installed : (m.job j).installed = true
    · obtain ⟨gone, deleted, cascade⟩ := wf.deleteJob_spec j true
      exact ⟨gone, by simp [act, installed, deleted], cascade.root⟩
    · have out : (m.job j).installed = false := by simpa using installed
      obtain ⟨gone, freed, cascade⟩ := wf.jobFree_uninstalled j out
      exact ⟨gone, by simp [act, out, freed], cascade.root⟩
  obtain ⟨gone, aborted⟩ : ∃ gone, repeatWhile pick act m.transactionList.length m = m.without gone := by
    apply repeatWhile_invariant pick act fun m' => ∃ gone, m' = m.without gone
    · rintro _ j ⟨gone, rfl⟩ _
      obtain ⟨gone', deleted, _⟩ := deletes _ j (wf.without gone)
      exact ⟨gone ++ gone', by rw [deleted, m.without_without]⟩
    · exact ⟨[], wf.without_nil.symm⟩
  have done : pick (repeatWhile pick act m.transactionList.length m) = none := by
    apply repeatWhile_exhausted pick act WellFormed fun m => m.transactionList.length
    · intro m j wf _
      obtain ⟨gone, deleted, _⟩ := deletes m j wf
      exact deleted ▸ wf.without gone
    · intro m j wf found
      obtain ⟨gone, deleted, mem⟩ := deletes m j wf
      rw [deleted]
      exact transactionList_without_length wf gone j ((wf.inTransaction_iff j).mp (inside m j found))
        mem
    · exact wf
    · rfl
  rw [aborted] at done
  have wf' := wf.without gone
  have chains : ∀ u, (m.without gone).chain u = [] := by
    intro u
    by_contra nonempty
    obtain ⟨j, rest, same⟩ := exists_cons_of_ne_nil nonempty
    have head : (m.without gone).transactionGet u = some j := by
      simp only [Manager.transactionGet, same, head?_cons]
    have mem : j ∈ (m.without gone).transactionHeads :=
      mem_filterMap.mpr ⟨u, (wf'.unitsChain u).mpr nonempty, head⟩
    rw [head?_eq_none_iff.mp done] at mem
    cases mem
  have units : (m.without gone).transactionUnits = [] :=
    eq_nil_iff_forall_not_mem.mpr fun u h => (wf'.unitsChain u).mp h (chains u)
  have links : (m.without gone).links = [] := by
    refine eq_nil_iff_forall_not_mem.mpr fun link h => ?_
    obtain ⟨u, mem⟩ := wf'.linkObject link h
    rw [chains u] at mem
    cases mem
  have same : m.without gone =
      { m with transactionUnits := [], chain := fun _ => [], links := [] } := by
    calc m.without gone
        = { m with
            transactionUnits := (m.without gone).transactionUnits
            chain := (m.without gone).chain
            links := (m.without gone).links } := rfl
      _ = _ := by rw [units, links, funext chains]
  change transactionCleanDependencies (repeatWhile pick act m.transactionList.length m) = _
  rw [aborted, same]
  simp [transactionCleanDependencies]

end Systemd
