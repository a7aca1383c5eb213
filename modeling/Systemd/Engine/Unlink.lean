import Mathlib.Logic.Relation
import Systemd.Engine.Manager

set_option autoImplicit false

namespace Systemd

open List

variable {U : Type}

namespace Manager

-- A job sits in no chain but that of its own unit.
def chainRemove (m : Manager U) (j : JobId) : Manager U :=
  { m with
    transactionUnits := m.transactionUnits.filter fun u => (m.chain u).any (· ≠ j)
    chain := fun u => (m.chain u).filter (· ≠ j) }

def freeSubjectList (m : Manager U) (j : JobId) : Manager U :=
  { m with links := m.links.filter fun link => link.subject ≠ some j }

end Manager

def unlinkWith (objects : Manager U -> JobId -> Bool -> Manager U)
    (m : Manager U) (j : JobId) (deleteDependencies : Bool) : Manager U :=
  objects ((m.chainRemove j).freeSubjectList j) j deleteDependencies

section

variable [DecidableEq U]

def jobDetach (m : Manager U) (j : JobId) : Manager U :=
  if (m.job j).installed then
    let u := (m.job j).unit
    { m.setJob j (fun job => { job with installed := false }) with
      metaJob := if m.metaJob u = some j then Function.update m.metaJob u none else m.metaJob
      jobs := m.jobs.erase j }
  else m

def jobFreeWith (objects : Manager U -> JobId -> Bool -> Manager U)
    (m : Manager U) (j : JobId) : Manager U :=
  let m := unlinkWith objects (jobDetach m j) j true
  { m with runQueue := m.runQueue.erase j }

def deleteWith (objects : Manager U -> JobId -> Bool -> Manager U)
    (m : Manager U) (j : JobId) (deleteDependencies : Bool) : Manager U :=
  let m := unlinkWith objects m j deleteDependencies
  if (m.job j).installed then m else jobFreeWith objects m j

-- The while loop over j->object_list. Every turn frees a link before it deletes another job, so
-- the number of links bounds the loop and the recursion alike.
def unlinkObjects : Nat -> Manager U -> JobId -> Bool -> Manager U
  | 0, m, _, _ => m
  | fuel + 1, m, j, deleteDependencies =>
    match m.objectList j with
    | [] => m
    | link :: _ =>
      let other := if link.matters then link.subject else none
      let m := jobDependencyFree m link
      let m := match other with
        | some other =>
          if deleteDependencies then deleteWith (unlinkObjects fuel) m other deleteDependencies
          else m
        | none => m
      unlinkObjects fuel m j deleteDependencies

def jobFree (m : Manager U) (j : JobId) : Manager U :=
  jobFreeWith (unlinkObjects m.links.length) m j

def transactionDeleteJob (m : Manager U) (j : JobId) (deleteDependencies : Bool) : Manager U :=
  deleteWith (unlinkObjects m.links.length) m j deleteDependencies

end

def JobDependency.touches (gone : List JobId) (link : JobDependency) : Bool :=
  decide (link.object ∈ gone) || link.subject.any (· ∈ gone)

def Manager.without (m : Manager U) (gone : List JobId) : Manager U :=
  { m with
    transactionUnits := m.transactionUnits.filter fun u => (m.chain u).any (· ∉ gone)
    chain := fun u => (m.chain u).filter (· ∉ gone)
    links := m.links.filter fun link => !link.touches gone }

theorem JobDependency.touches_iff (gone : List JobId) (link : JobDependency) :
    link.touches gone = true ↔ link.object ∈ gone ∨ ∃ s ∈ gone, link.subject = some s := by
  cases h : link.subject <;> simp [touches, h]

theorem JobDependency.not_touches_iff (gone : List JobId) (link : JobDependency) :
    (!link.touches gone) = true ↔ link.object ∉ gone ∧ ∀ s, link.subject = some s -> s ∉ gone := by
  cases h : link.subject <;> simp [touches, h]

namespace Manager

variable (m : Manager U) (gone : List JobId) (u : U)

@[simp] theorem without_job : (m.without gone).job = m.job := rfl
@[simp] theorem without_jobs : (m.without gone).jobs = m.jobs := rfl
@[simp] theorem without_metaJob : (m.without gone).metaJob = m.metaJob := rfl
@[simp] theorem without_activeState : (m.without gone).activeState = m.activeState := rfl
@[simp] theorem without_runQueue : (m.without gone).runQueue = m.runQueue := rfl
@[simp] theorem without_currentJobId : (m.without gone).currentJobId = m.currentJobId := rfl
@[simp] theorem without_transactionChain : (m.without gone).chain u = (m.chain u).filter (· ∉ gone) := rfl

theorem mem_without_links (link : JobDependency) :
    link ∈ (m.without gone).links ↔
      link ∈ m.links ∧ link.object ∉ gone ∧ ∀ s, link.subject = some s -> s ∉ gone := by
  simp only [without, mem_filter, JobDependency.not_touches_iff]

theorem mem_without_units :
    u ∈ (m.without gone).transactionUnits ↔ u ∈ m.transactionUnits ∧ ∃ j ∈ m.chain u, j ∉ gone := by
  simp [without, mem_filter, any_eq_true]

theorem mem_without_chain (j : JobId) : j ∈ (m.without gone).chain u ↔ j ∈ m.chain u ∧ j ∉ gone := by
  simp [mem_filter]

theorem without_congr (gone' : List JobId) (same : ∀ j, j ∈ gone ↔ j ∈ gone') :
    m.without gone = m.without gone' := by
  simp only [without, JobDependency.touches, same]

theorem without_without (gone' : List JobId) :
    (m.without gone).without gone' = m.without (gone ++ gone') := by
  have links : (m.links.filter fun link => !link.touches gone).filter (fun link => !link.touches gone') =
      m.links.filter fun link => !link.touches (gone ++ gone') := by
    rw [filter_filter]
    apply filter_congr
    intro link _
    rw [Bool.eq_iff_iff, Bool.and_eq_true, JobDependency.not_touches_iff,
      JobDependency.not_touches_iff, JobDependency.not_touches_iff]
    simp only [mem_append, not_or]
    constructor
    · rintro ⟨⟨a, b⟩, c, d⟩
      exact ⟨⟨c, a⟩, fun s h => ⟨d s h, b s h⟩⟩
    · rintro ⟨⟨a, b⟩, c⟩
      exact ⟨⟨b, fun s h => (c s h).2⟩, a, fun s h => (c s h).1⟩
  have units : (m.transactionUnits.filter fun u => (m.chain u).any (· ∉ gone)).filter
        (fun u => ((m.chain u).filter (· ∉ gone)).any (· ∉ gone')) =
      m.transactionUnits.filter fun u => (m.chain u).any (· ∉ gone ++ gone') := by
    rw [filter_filter]
    apply filter_congr
    intro u _
    rw [Bool.eq_iff_iff]
    simp only [any_filter, Bool.and_eq_true, any_eq_true, decide_eq_true_eq,
      mem_append, not_or]
    constructor
    · rintro ⟨⟨j, mem, one, two⟩, _⟩
      exact ⟨j, mem, one, two⟩
    · rintro ⟨j, mem, one, two⟩
      exact ⟨⟨j, mem, one, two⟩, j, mem, one⟩
  have chains (u : U) : ((m.chain u).filter (· ∉ gone)).filter (· ∉ gone') =
      (m.chain u).filter (· ∉ gone ++ gone') := by
    rw [filter_filter]
    apply filter_congr
    intro j _
    simp [Bool.and_comm]
  simp only [without, links, units, chains]

theorem without_of_absent (chains : ∀ u, ∀ j ∈ m.chain u, j ∉ gone)
    (units : ∀ u ∈ m.transactionUnits, m.chain u ≠ [])
    (links : ∀ link ∈ m.links, link.object ∉ gone ∧ ∀ s, link.subject = some s -> s ∉ gone) :
    m.without gone = m := by
  have chainSame (u : U) : (m.chain u).filter (· ∉ gone) = m.chain u :=
    filter_eq_self.mpr fun j mem => by simpa using chains u j mem
  have unitsSame : (m.transactionUnits.filter fun u => (m.chain u).any (· ∉ gone)) =
      m.transactionUnits := by
    apply filter_eq_self.mpr
    intro u mem
    obtain ⟨j, inChain⟩ := exists_mem_of_ne_nil _ (units u mem)
    exact any_eq_true.mpr ⟨j, inChain, by simpa using chains u j inChain⟩
  have linksSame : (m.links.filter fun link => !link.touches gone) = m.links :=
    filter_eq_self.mpr fun link mem =>
      (JobDependency.not_touches_iff gone link).mpr (links link mem)
  simp only [without, chainSame, unitsSame, linksSame]

theorem unlinked_without (j : JobId) (gone : List JobId) (mem : j ∈ gone) :
    ((m.chainRemove j).freeSubjectList j).without gone = m.without gone := by
  have keep (k : JobId) (out : k ∉ gone) : k ≠ j := fun same => out (same ▸ mem)
  have links : (m.links.filter fun link => link.subject ≠ some j).filter
      (fun link => !link.touches gone) = m.links.filter fun link => !link.touches gone := by
    rw [filter_filter]
    apply filter_congr
    intro link _
    rw [Bool.eq_iff_iff, Bool.and_eq_true, JobDependency.not_touches_iff]
    simp only [decide_eq_true_eq]
    exact ⟨fun h => h.1, fun h => ⟨h, fun same => h.2 j same mem⟩⟩
  have chains (u : U) : ((m.chain u).filter (· ≠ j)).filter (· ∉ gone) =
      (m.chain u).filter (· ∉ gone) := by
    rw [filter_filter]
    apply filter_congr
    intro k _
    rw [Bool.eq_iff_iff, Bool.and_eq_true]
    simp only [decide_eq_true_eq]
    exact ⟨fun h => h.1, fun h => ⟨h, keep k h⟩⟩
  have units : (m.transactionUnits.filter fun u => (m.chain u).any (· ≠ j)).filter
        (fun u => ((m.chain u).filter (· ≠ j)).any (· ∉ gone)) =
      m.transactionUnits.filter fun u => (m.chain u).any (· ∉ gone) := by
    rw [filter_filter]
    apply filter_congr
    intro u _
    rw [Bool.eq_iff_iff]
    simp only [any_filter, Bool.and_eq_true, any_eq_true, decide_eq_true_eq]
    constructor
    · rintro ⟨⟨k, inChain, _, out⟩, _⟩
      exact ⟨k, inChain, out⟩
    · rintro ⟨k, inChain, out⟩
      exact ⟨⟨k, inChain, keep k out, out⟩, k, inChain, keep k out⟩
  simp only [without, chainRemove, freeSubjectList, links, chains, units]

theorem freed_without (link : JobDependency) (gone : List JobId) (touched : link.touches gone = true) :
    (jobDependencyFree m link).without gone = m.without gone := by
  have links : (m.links.erase link).filter (fun link => !link.touches gone) =
      m.links.filter fun link => !link.touches gone := by
    rw [← erase_filter]
    exact erase_of_not_mem (by simp [mem_filter, touched])
  simp only [without, jobDependencyFree, links]

end Manager

def Needs (m : Manager U) (a b : JobId) : Prop :=
  ∃ link ∈ m.links, link.matters = true ∧ link.subject = some a ∧ link.object = b

variable {m : Manager U}

theorem Needs.mono {m' : Manager U} (fewer : ∀ link ∈ m'.links, link ∈ m.links) {a b : JobId}
    (path : Relation.TransGen (Needs m') a b) : Relation.TransGen (Needs m) a b :=
  Relation.TransGen.mono (fun _ _ ⟨link, mem, rest⟩ => ⟨link, fewer link mem, rest⟩) _ _ path

structure Loose (m : Manager U) (j : JobId) : Prop where
  chains : ∀ u, j ∉ m.chain u
  units : ∀ u ∈ m.transactionUnits, m.chain u ≠ []
  links : ∀ link ∈ m.links, link.subject ≠ some j

theorem Loose.chains_apart {j : JobId} (loose : Loose m j) (u : U) : ∀ k ∈ m.chain u, k ∉ [j] := by
  intro k inChain same
  exact loose.chains u (mem_singleton.mp same ▸ inChain)

theorem loose_unlinked (m : Manager U) (j : JobId) : Loose ((m.chainRemove j).freeSubjectList j) j where
  chains := by simp [Manager.chainRemove, Manager.freeSubjectList]
  units := by
    intro u mem
    simp only [Manager.chainRemove, Manager.freeSubjectList, mem_filter, any_eq_true,
      decide_eq_true_eq] at mem ⊢
    obtain ⟨_, k, inChain, ne⟩ := mem
    exact ne_nil_of_mem (mem_filter.mpr ⟨inChain, by simpa using ne⟩)
  links := by simp [Manager.freeSubjectList]

theorem loose_without {j : JobId} (loose : Loose m j) (gone : List JobId) :
    Loose (m.without gone) j where
  chains := fun u mem => loose.chains u ((m.mem_without_chain gone u j).mp mem).1
  units := by
    intro u mem
    obtain ⟨_, k, inChain, out⟩ := (m.mem_without_units gone u).mp mem
    exact ne_nil_of_mem ((m.mem_without_chain gone u k).mpr ⟨inChain, out⟩)
  links := fun link mem => loose.links link ((m.mem_without_links gone link).mp mem).1

structure Cascade (m : Manager U) (j : JobId) (deleteDependencies : Bool) (gone : List JobId) :
    Prop where
  root : j ∈ gone
  reach : ∀ d ∈ gone, d = j ∨ Relation.TransGen (Needs m) d j
  alone : deleteDependencies = false -> ∀ d ∈ gone, d = j
  closed : deleteDependencies = true -> ∀ link ∈ m.links, link.matters = true ->
    link.object ∈ gone -> ∀ s, link.subject = some s -> s ∈ gone

section

variable {m : Manager U} {j : JobId} {link : JobDependency} {gone : List JobId}

theorem Cascade.nothing (absent : ∀ link ∈ m.links, link.object ≠ j) (dd : Bool) :
    Cascade m j dd [j] where
  root := by simp
  reach := by simp
  alone := by simp
  closed := fun _ link mem _ object => absurd (by simpa using object) (absent link mem)

theorem Cascade.skip {dd : Bool} (cascade : Cascade (jobDependencyFree m link) j dd gone)
    (stops : ¬ ∃ other, link.matters = true ∧ link.subject = some other ∧ dd = true) :
    Cascade m j dd gone where
  root := cascade.root
  reach := fun d inGone =>
    (cascade.reach d inGone).imp id (Needs.mono fun l h => mem_of_mem_erase h)
  alone := cascade.alone
  closed := by
    intro deletes l inL mattersL objectL s subjectL
    by_cases same : l = link
    · subst same
      exact absurd ⟨s, mattersL, subjectL, deletes⟩ stops
    · exact cascade.closed deletes l ((mem_erase_of_ne same).mpr inL) mattersL objectL s subjectL

theorem Cascade.follow {other : JobId} {gone1 gone2 : List JobId} (inLinks : link ∈ m.links)
    (matters : link.matters = true) (subject : link.subject = some other) (object : link.object = j)
      (first : Cascade (((jobDependencyFree m link).chainRemove other).freeSubjectList other) other true
      gone1) (rest : Cascade ((jobDependencyFree m link).without gone1) j true gone2) :
    Cascade m j true (gone1 ++ gone2) where
  root := mem_append_right _ rest.root
  reach := by
    have step : Needs m other j := ⟨link, inLinks, matters, subject, object⟩
    have fewer : ∀ l ∈ (jobDependencyFree m link).links, l ∈ m.links :=
      fun l h => mem_of_mem_erase h
    intro d inGone
    rcases mem_append.mp inGone with before | after
    · rcases first.reach d before with rfl | path
      · exact .inr (.single step)
      · exact .inr (.tail (Needs.mono (fun l h => fewer l (mem_filter.mp h).1) path) step)
    · rcases rest.reach d after with rfl | path
      · exact .inl rfl
      · exact .inr (Needs.mono
          (fun l h => fewer l ((Manager.mem_without_links _ gone1 l).mp h).1) path)
  alone := by simp
  closed := by
    intro _ l inL mattersL objectL s subjectL
    by_cases same : s = other
    · exact mem_append_left _ (same ▸ first.root)
    have kept : l ∈ (jobDependencyFree m link).links := by
      refine (mem_erase_of_ne ?_).mpr inL
      rintro rfl
      exact same (Option.some.inj (subjectL.symm.trans subject))
    by_cases early : l.object ∈ gone1
    · refine mem_append_left _ (first.closed rfl l ?_ mattersL early s subjectL)
      exact mem_filter.mpr ⟨kept, by simpa [subjectL] using same⟩
    by_cases gone : s ∈ gone1
    · exact mem_append_left _ gone
    have late : l.object ∈ gone2 := (mem_append.mp objectL).resolve_left early
    refine mem_append_right _ (rest.closed rfl l ?_ mattersL late s subjectL)
    refine (Manager.mem_without_links _ gone1 l).mpr ⟨kept, early, ?_⟩
    rintro s' subject'
    rw [subjectL] at subject'
    cases subject'
    exact gone

end

section

variable [DecidableEq U]

theorem jobFreeWith_idle (objects : Manager U -> JobId -> Bool -> Manager U) (m : Manager U) (j : JobId)
    (gone : List JobId) (mem : j ∈ gone)
    (idle : ∀ dd, objects (m.without gone) j dd = m.without gone) (out : (m.job j).installed = false)
    (queue : j ∉ m.runQueue) : jobFreeWith objects (m.without gone) j = m.without gone := by
  have same : ((m.without gone).chainRemove j).freeSubjectList j = m.without gone := by
    have double := Manager.without_without m gone gone
    have merged : m.without (gone ++ gone) = m.without gone :=
      m.without_congr _ _ (by simp)
    have loose := loose_unlinked (m.without gone) j
    have unchanged := Manager.without_of_absent (((m.without gone).chainRemove j).freeSubjectList j) gone
      (by
        intro u k inChain
        simp only [Manager.chainRemove, Manager.freeSubjectList, mem_filter] at inChain
        exact ((m.mem_without_chain gone u k).mp inChain.1).2)
      loose.units
      (by
        intro link inLinks
        simp only [Manager.freeSubjectList, mem_filter] at inLinks
        exact ((m.mem_without_links gone link).mp inLinks.1).2)
    rw [← unchanged, Manager.unlinked_without _ _ _ mem, double, merged]
  have detach : jobDetach (m.without gone) j = m.without gone := by
    simp [jobDetach, out]
  simp only [jobFreeWith, unlinkWith, detach, same, idle]
  rw [Manager.without_runQueue, erase_of_not_mem queue]
  rfl

variable (fuel : Nat)

theorem unlinkObjects_idle (m : Manager U) (j : JobId) (dd : Bool) (empty : m.objectList j = []) :
    unlinkObjects fuel m j dd = m := by
  cases fuel <;> simp [unlinkObjects, empty]

omit [DecidableEq U] in
theorem objectList_without (m : Manager U) (gone : List JobId) (j : JobId) (mem : j ∈ gone) :
    (m.without gone).objectList j = [] := by
  apply filter_eq_nil_iff.mpr
  intro link inLinks same
  have := ((m.mem_without_links gone link).mp inLinks).2.1
  simp_all

theorem deleteWith_of_unlinked (m : Manager U) (j : JobId) (dd : Bool) (gone : List JobId)
    (mem : j ∈ gone) (unlinked : unlinkWith (unlinkObjects fuel) m j dd = m.without gone)
    (queue : (m.job j).installed = false -> j ∉ m.runQueue) :
    deleteWith (unlinkObjects fuel) m j dd = m.without gone := by
  rw [deleteWith, unlinked]
  by_cases installed : (m.job j).installed = true
  · simp [installed]
  · have out : (m.job j).installed = false := by simpa using installed
    rw [jobFreeWith_idle _ m j gone mem
      (fun dd => unlinkObjects_idle _ _ _ _ (objectList_without _ _ _ mem)) out (queue out)]
    exact ite_self _

-- Induction on the fuel, which both the rest of the loop and the nested deletion consume. The
-- deletion of `other` removes every link of it, so `j` keeps its place as the root of what is left.
theorem unlinkObjects_spec (m : Manager U) (j : JobId) (dd : Bool) (loose : Loose m j)
    (queue : ∀ d, Relation.TransGen (Needs m) d j -> d ∈ m.runQueue -> (m.job d).installed = true)
    (bound : m.links.length ≤ fuel) :
    ∃ gone, unlinkObjects fuel m j dd = m.without gone ∧ Cascade m j dd gone := by
  induction fuel generalizing m j with
  | zero =>
    have none : m.links = [] := length_eq_zero_iff.mp (Nat.le_zero.mp bound)
    refine ⟨[j], ?_, .nothing (by simp [none]) dd⟩
    exact (m.without_of_absent [j] loose.chains_apart loose.units (by simp [none])).symm
  | succ fuel ih =>
    cases found : m.objectList j with
    | nil =>
      have absent : ∀ link ∈ m.links, link.object ≠ j := by
        intro link mem same
        have := filter_eq_nil_iff.mp found link mem
        simp_all
      refine ⟨[j], ?_, .nothing absent dd⟩
      rw [unlinkObjects_idle _ _ _ _ found]
      refine (m.without_of_absent [j] loose.chains_apart loose.units fun link mem =>
        ⟨by simpa using absent link mem, ?_⟩).symm
      intro s subject same
      exact loose.links link mem (by simp_all)
    | cons link rest =>
      have mem : link ∈ m.links ∧ link.object = j := by
        have := mem_filter.mp (found ▸ mem_cons_self : link ∈ m.objectList j)
        simpa using this
      obtain ⟨inLinks, object⟩ := mem
      let m1 := jobDependencyFree m link
      have fewer : ∀ l ∈ m1.links, l ∈ m.links := fun l h => mem_of_mem_erase h
      have bound1 : m1.links.length ≤ fuel := by
        have := length_erase_of_mem inLinks
        simp only [m1, jobDependencyFree]
        omega
      have loose1 : Loose m1 j :=
        ⟨loose.chains, loose.units, fun l h => loose.links l (fewer l h)⟩
      by_cases cascades : ∃ other, link.matters = true ∧ link.subject = some other ∧ dd = true
      · obtain ⟨other, matters, subject, rfl⟩ := cascades
        have step : Needs m other j := ⟨link, inLinks, matters, subject, object⟩
        let m2 := (m1.chainRemove other).freeSubjectList other
        have queue2 : ∀ d, Relation.TransGen (Needs m2) d other -> d ∈ m2.runQueue ->
            (m2.job d).installed = true := fun d path inQueue =>
          queue d (.tail (Needs.mono (fun l h => fewer l (mem_filter.mp h).1) path) step) inQueue
        obtain ⟨gone1, unlinked, cascade1⟩ := ih m2 other (loose_unlinked m1 other) queue2
          ((length_filter_le _ _).trans bound1)
        have unlinked1 : unlinkWith (unlinkObjects fuel) m1 other true = m1.without gone1 := by
          rw [unlinkWith, unlinked, Manager.unlinked_without _ _ _ cascade1.root]
        have deleted : deleteWith (unlinkObjects fuel) m1 other true = m1.without gone1 :=
          deleteWith_of_unlinked fuel m1 other true gone1 cascade1.root unlinked1
            fun out inQueue =>
              Bool.false_ne_true (out.symm.trans (queue other (.single step) inQueue))
        have queue3 : ∀ d, Relation.TransGen (Needs (m1.without gone1)) d j ->
            d ∈ (m1.without gone1).runQueue -> ((m1.without gone1).job d).installed = true :=
          fun d path => queue d
            (Needs.mono (fun l h => fewer l ((m1.mem_without_links gone1 l).mp h).1) path)
        obtain ⟨gone2, finished, cascade2⟩ := ih (m1.without gone1) j (loose_without loose1 gone1)
          queue3 ((length_filter_le _ _).trans bound1)
        have touched : link.touches (gone1 ++ gone2) = true :=
          (JobDependency.touches_iff _ _).mpr
            (.inl (by simp [object, cascade2.root]))
        refine ⟨gone1 ++ gone2, ?_, .follow inLinks matters subject object cascade1 cascade2⟩
        simp only [unlinkObjects, found, matters, subject, if_true]
        rw [show jobDependencyFree m link = m1 from rfl, deleted, finished,
          Manager.without_without, Manager.freed_without _ _ _ touched]
      · have continued : unlinkObjects (fuel + 1) m j dd = unlinkObjects fuel m1 j dd := by
          simp only [unlinkObjects, found]
          cases matters : link.matters <;> cases subject : link.subject <;> cases dd <;>
            simp_all [m1]
        obtain ⟨gone, finished, cascade⟩ := ih m1 j loose1
          (fun d path => queue d (Needs.mono fewer path)) bound1
        have touched : link.touches gone = true :=
          (JobDependency.touches_iff _ _).mpr (.inl (object ▸ cascade.root))
        refine ⟨gone, ?_, cascade.skip cascades⟩
        rw [continued, finished, Manager.freed_without _ _ _ touched]

theorem unlinkWith_spec (m : Manager U) (j : JobId) (dd : Bool)
    (queue : ∀ k ∈ m.runQueue, k ≠ j -> (m.job k).installed = true) :
    ∃ gone, unlinkWith (unlinkObjects m.links.length) m j dd = m.without gone ∧
      Cascade m j dd gone := by
  let m1 := (m.chainRemove j).freeSubjectList j
  have fewer : ∀ l ∈ m1.links, l ∈ m.links := fun l h => (mem_filter.mp h).1
  have loose : Loose m1 j := loose_unlinked m j
  have notRoot : ∀ d, Relation.TransGen (Needs m1) d j -> d ≠ j := by
    rintro d path rfl
    obtain ⟨_, ⟨link, mem, _, subject, _⟩, _⟩ := Relation.TransGen.head'_iff.mp path
    exact loose.links link mem subject
  obtain ⟨gone, unlinked, cascade⟩ := unlinkObjects_spec m.links.length m1 j dd loose
    (fun d path inQueue => queue d inQueue (notRoot d path)) (length_filter_le _ _)
  refine ⟨gone, ?_, cascade.root, ?_, cascade.alone, ?_⟩
  · rw [unlinkWith, unlinked, Manager.unlinked_without _ _ _ cascade.root]
  · exact fun d h => (cascade.reach d h).imp id (Needs.mono fewer)
  · intro deletes link mem matters object s subject
    by_cases same : s = j
    · exact same ▸ cascade.root
    · refine cascade.closed deletes link ?_ matters object s subject
      exact mem_filter.mpr ⟨mem, by simpa [subject] using same⟩

theorem transactionDeleteJob_spec (m : Manager U) (j : JobId) (dd : Bool)
    (queue : ∀ k ∈ m.runQueue, (m.job k).installed = true) :
    ∃ gone, transactionDeleteJob m j dd = m.without gone ∧ Cascade m j dd gone := by
  obtain ⟨gone, unlinked, cascade⟩ := unlinkWith_spec m j dd fun k inQueue _ => queue k inQueue
  refine ⟨gone, deleteWith_of_unlinked _ m j dd gone cascade.root unlinked ?_, cascade⟩
  exact fun out inQueue => by simp [queue j inQueue] at out

theorem jobDetach_links (m : Manager U) (j : JobId) : (jobDetach m j).links = m.links := by
  unfold jobDetach
  split <;> rfl

theorem jobDetach_runQueue (m : Manager U) (j : JobId) : (jobDetach m j).runQueue = m.runQueue := by
  unfold jobDetach
  split <;> rfl

theorem jobDetach_job_of_ne (m : Manager U) (j k : JobId) (ne : k ≠ j) :
    (jobDetach m j).job k = m.job k := by
  unfold jobDetach
  split
  · simp [Manager.setJob, Function.update_of_ne ne]
  · rfl

theorem jobFree_spec (m : Manager U) (j : JobId)
    (queue : ∀ k ∈ m.runQueue, (m.job k).installed = true) :
    ∃ gone, jobFree m j =
        { (jobDetach m j).without gone with runQueue := m.runQueue.erase j } ∧
      Cascade m j true gone := by
  obtain ⟨gone, unlinked, cascade⟩ := unlinkWith_spec (jobDetach m j) j true (by
    intro k inQueue ne
    rw [jobDetach_job_of_ne m j k ne]
    exact queue k (jobDetach_runQueue m j ▸ inQueue))
  have sameNeeds : Needs (jobDetach m j) = Needs m := by
    funext a b
    simp only [Needs, jobDetach_links]
  refine ⟨gone, ?_, cascade.root, sameNeeds ▸ cascade.reach, cascade.alone, ?_⟩
  · rw [jobDetach_links] at unlinked
    simp only [jobFree, jobFreeWith, unlinked, Manager.without_runQueue, jobDetach_runQueue]
  · simpa only [jobDetach_links] using cascade.closed

end

end Systemd
