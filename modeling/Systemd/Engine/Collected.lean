import Mathlib.Data.Set.Finite.Basic
import Systemd.Engine.Anchor

set_option autoImplicit false

namespace Systemd

open Loop Relation List

variable {U : Type}

def PulledBy (m : Manager U) (a b : JobId) : Prop :=
  ∃ link ∈ m.links, link.subject = some a ∧ link.object = b

def Wanted (m : Manager U) (j : JobId) : Prop :=
  ∃ anchor, jobIsAnchor m anchor = true ∧ ReflTransGen (PulledBy m) anchor j

def Shields (m : Manager U) (a b : JobId) : Prop :=
  ∃ u, [a, b].Sublist (m.chain u)

def Holds (m : Manager U) (a b : JobId) : Prop :=
  PulledBy m a b ∨ Shields m a b

structure Collected (m : Manager U) (gone : List JobId) : Prop where
  anchors : ∀ d ∈ gone, jobIsAnchor m d = false
  holders : ∀ a b, Holds m a b -> b ∈ gone -> a ∈ gone
  cycles : ∀ d ∈ gone, ¬ TransGen (Holds m) d d

theorem pulledBy_without (m : Manager U) (gone : List JobId) (a b : JobId) :
    PulledBy (m.without gone) a b ↔ PulledBy m a b ∧ a ∉ gone ∧ b ∉ gone := by
  constructor
  · rintro ⟨link, mem, subject, rfl⟩
    obtain ⟨inLinks, object, others⟩ := (m.mem_without_links gone link).mp mem
    exact ⟨⟨link, inLinks, subject, rfl⟩, others a subject, object⟩
  · rintro ⟨⟨link, mem, subject, rfl⟩, outA, outB⟩
    refine ⟨link, (m.mem_without_links gone link).mpr ⟨mem, outB, ?_⟩, subject, rfl⟩
    rintro s same
    exact Option.some.inj (subject.symm.trans same) ▸ outA

variable {m : Manager U} {b a : JobId} {gone : List JobId}

theorem head_shields {u : U} {head j : JobId} (found : m.transactionGet u = some head)
    (mem : j ∈ m.chain u) : j = head ∨ Shields m head j := by
  obtain ⟨rest, chain⟩ := head?_eq_some_iff.mp found
  rw [chain] at mem
  rcases mem_cons.mp mem with same | later
  · exact .inl same
  · refine .inr ⟨u, ?_⟩
    rw [chain]
    exact (singleton_sublist.mpr later).cons_cons head

theorem Shields.of_without (shields : Shields (m.without gone) a b) : Shields m a b := by
  obtain ⟨u, sublist⟩ := shields
  exact ⟨u, sublist.trans filter_sublist⟩

theorem Holds.of_without (holds : Holds (m.without gone) a b) : Holds m a b := by
  rcases holds with pulled | shields
  · exact .inl ((pulledBy_without m gone a b).mp pulled).1
  · exact .inr shields.of_without

theorem Holds.inTransaction (wf : WellFormed m) (holds : Holds m a b) : m.InTransaction b := by
  rcases holds with ⟨link, mem, _, rfl⟩ | ⟨u, sublist⟩
  · exact wf.linkObject link mem
  · exact ⟨u, sublist.subset (by simp)⟩

theorem Wanted.within {j : JobId} (wanted : Wanted m j) (P : JobId -> Prop)
    (anchors : ∀ link ∈ m.links, link.subject = none -> P link.object)
    (steps : ∀ link ∈ m.links, ∀ s, link.subject = some s -> P s -> P link.object) : P j := by
  obtain ⟨anchor, isAnchor, path⟩ := wanted
  induction path with
  | refl =>
    obtain ⟨link, mem, rfl, subject⟩ := (jobIsAnchor_iff _ _).mp isAnchor
    exact anchors link mem subject
  | tail _ step ih =>
    obtain ⟨link, mem, subject, rfl⟩ := step
    exact steps link mem _ subject ih

namespace Collected

variable {m : Manager U} {gone : List JobId}

theorem none (m : Manager U) : Collected m [] where
  anchors := by simp
  holders := by simp
  cycles := by simp

section

variable (collected : Collected m gone)
include collected

theorem wanted_kept {j : JobId} (wanted : Wanted m j) : j ∉ gone := by
  obtain ⟨anchor, isAnchor, path⟩ := wanted
  induction path with
  | refl =>
    intro inGone
    simp [collected.anchors anchor inGone] at isAnchor
  | tail _ step ih => exact fun inGone => ih (collected.holders _ _ (.inl step) inGone)

theorem wanted_iff (j : JobId) : Wanted (m.without gone) j ↔ Wanted m j := by
  constructor
  · rintro ⟨anchor, isAnchor, path⟩
    have anchorKept : anchor ∉ gone := by
      obtain ⟨link, mem, rfl, _⟩ := (jobIsAnchor_iff _ _).mp isAnchor
      exact ((m.mem_without_links gone link).mp mem).2.1
    rw [jobIsAnchor_without m gone anchor anchorKept] at isAnchor
    exact ⟨anchor, isAnchor,
      ReflTransGen.mono (fun a b pulled => ((pulledBy_without m gone a b).mp pulled).1) _ _ path⟩
  · rintro ⟨anchor, isAnchor, path⟩
    have anchorKept : anchor ∉ gone := collected.wanted_kept ⟨anchor, isAnchor, .refl⟩
    refine ⟨anchor, (jobIsAnchor_without m gone anchor anchorKept).trans isAnchor, ?_⟩
    induction path with
    | refl => exact .refl
    | tail path step ih =>
      have outA := collected.wanted_kept ⟨anchor, isAnchor, path⟩
      have outB := collected.wanted_kept ⟨anchor, isAnchor, path.tail step⟩
      exact ih.tail ((pulledBy_without m gone _ _).mpr ⟨step, outA, outB⟩)

theorem turn (wf : WellFormed m) {u : U} {j : JobId} (head : (m.without gone).transactionGet u = some j)
    (unlinked : ∀ link ∈ (m.without gone).links, link.object ≠ j) : Collected m (gone ++ [j]) := by
  have inChain := WellFormed.transactionGet_mem head
  obtain ⟨inBefore, kept⟩ := (m.mem_without_chain gone u j).mp inChain
  have holders : ∀ a, Holds m a j -> a ∈ gone := by
    intro a holds
    by_contra outA
    rcases holds with ⟨link, mem, subject, object⟩ | ⟨v, sublist⟩
    · refine unlinked link ((m.mem_without_links gone link).mpr ⟨mem, object ▸ kept, ?_⟩) object
      rintro s same
      exact Option.some.inj (subject.symm.trans same) ▸ outA
    · have sameUnit : v = u := by
        have inV : j ∈ m.chain v := sublist.subset (by simp)
        exact (wf.chainUnit v j inV).symm.trans (wf.chainUnit u j inBefore)
      subst sameUnit
      have stillBefore : [a, j].Sublist ((m.without gone).chain v) := by
        have := sublist.filter fun k => decide (k ∉ gone)
        simpa [outA, kept] using this
      obtain ⟨rest, chain⟩ := head?_eq_some_iff.mp head
      have nodup := (wf.without gone).chainNodup v
      rw [chain] at stillBefore nodup
      cases stillBefore with
      | cons _ later => exact (nodup_cons.mp nodup).1 (later.subset (by simp))
      | cons_cons _ later => exact (nodup_cons.mp nodup).1 (later.subset (by simp))
  have acyclic : ¬ TransGen (Holds m) j j := by
    intro loop
    obtain ⟨a, path, last⟩ := TransGen.tail'_iff.mp loop
    exact collected.cycles a (holders a last) (TransGen.head' last path)
  constructor
  · intro d mem
    rcases mem_append.mp mem with first | second
    · exact collected.anchors d first
    · rw [mem_singleton.mp second, ← Bool.not_eq_true, ← jobIsAnchor_without m gone j kept,
        jobIsAnchor_iff]
      rintro ⟨link, mem, object, _⟩
      exact unlinked link mem object
  · intro a b holds mem
    rcases mem_append.mp mem with first | second
    · exact mem_append_left _ (collected.holders a b holds first)
    · exact mem_append_left _ (holders a (mem_singleton.mp second ▸ holds))
  · intro d mem
    rcases mem_append.mp mem with first | second
    · exact collected.cycles d first
    · rwa [mem_singleton.mp second]

end

end Collected

section

variable [DecidableEq U]

theorem collectGarbage_collected (m : Manager U) (wf : WellFormed m) :
    ∃ gone, transactionCollectGarbage m = m.without gone ∧ Collected m gone := by
  apply repeatWhile_invariant _ _ fun m' => ∃ gone, m' = m.without gone ∧ Collected m gone
  · rintro _ j ⟨gone, rfl, collected⟩ found
    have unlinked := unlinked_of_found found
    obtain ⟨u, _, head⟩ := mem_filterMap.mp (mem_of_find?_eq_some found)
    refine ⟨gone ++ [j], ?_, collected.turn wf head unlinked⟩
    rw [(wf.without gone).deleteJob_unlinked j unlinked, m.without_without]
  · exact ⟨[], wf.without_nil.symm, .none m⟩

theorem collectGarbage_held (m : Manager U) (wf : WellFormed m) (u : U) (j : JobId)
    (remains : j ∈ (transactionCollectGarbage m).chain u) :
    jobIsAnchor (transactionCollectGarbage m) j = true ∨
      ∃ a, (transactionCollectGarbage m).InTransaction a ∧ Holds (transactionCollectGarbage m) a j := by
  obtain ⟨gone, collected, _⟩ := collectGarbage_collected m wf
  have wf' : WellFormed (transactionCollectGarbage m) := collected ▸ wf.without gone
  obtain ⟨head, found⟩ : ∃ head, (transactionCollectGarbage m).transactionGet u = some head := by
    obtain ⟨head, rest, chain⟩ := exists_cons_of_ne_nil (ne_nil_of_mem remains)
    exact ⟨head, by rw [Manager.transactionGet, chain, head?_cons]⟩
  have inChain := WellFormed.transactionGet_mem found
  rcases head_shields found remains with rfl | shields
  · obtain ⟨link, inLinks, object⟩ := transactionCollectGarbage_headed m wf found
    cases subject : link.subject with
    | none => exact .inl ((jobIsAnchor_iff _ _).mpr ⟨link, inLinks, object, subject⟩)
    | some a =>
      exact .inr ⟨a, wf'.linkSubject link inLinks a subject, .inl ⟨link, inLinks, subject, object⟩⟩
  · exact .inr ⟨head, ⟨u, inChain⟩, .inr shields⟩

-- Counting links agrees with reachability unless unwanted jobs hold each other in a cycle, or one
-- stands in its unit's list where the iteration does not come by.
theorem collectGarbage_leaves_wanted_iff (m : Manager U) (wf : WellFormed m) :
    (∀ j, (transactionCollectGarbage m).InTransaction j -> Wanted (transactionCollectGarbage m) j) ↔
      (∀ a b, Wanted m a -> Shields m a b -> Wanted m b) ∧
        ∀ j, TransGen (Holds m) j j -> Wanted m j := by
  obtain ⟨gone, done, collected⟩ := collectGarbage_collected m wf
  constructor
  · intro wanted
    have spared : ∀ a j, Holds m a j -> j ∉ gone -> Wanted m j := by
      intro a j holds kept
      obtain ⟨u, mem⟩ := holds.inTransaction wf
      refine (collected.wanted_iff j).mp (done ▸ wanted j ?_)
      exact done ▸ ⟨u, (m.mem_without_chain gone u j).mpr ⟨mem, kept⟩⟩
    constructor
    · intro a b wantedA shields
      exact spared a b (.inr shields) fun inGone =>
        collected.wanted_kept wantedA (collected.holders a b (.inr shields) inGone)
    · intro j loop
      obtain ⟨a, _, last⟩ := TransGen.tail'_iff.mp loop
      exact spared a j last fun inGone => collected.cycles j inGone loop
  · rintro ⟨behind, cyclic⟩ j mem
    have held := collectGarbage_held m wf
    rw [done] at mem held ⊢
    by_contra unwanted
    -- The unwanted jobs that are left over: each is held by another of them.
    let Left := {k // (m.without gone).InTransaction k ∧ ¬ Wanted m k}
    have finite : Finite Left := by
      refine Set.Finite.subset (finite_toSet m.transactionList) ?_
      rintro k ⟨⟨u, inChain⟩, _⟩
      exact (wf.inTransaction_iff k).mp ⟨u, ((m.mem_without_chain gone u k).mp inChain).1⟩
    have acyclic : Cycles.Acyclic fun a b : Left => Holds (m.without gone) a.1 b.1 := by
      intro k loop
      refine k.2.2 (cyclic k.1 ?_)
      exact TransGen.lift (fun k : Left => k.1) (fun _ _ => Holds.of_without) _ _ loop
    obtain ⟨k, _, least⟩ := acyclic.exists_minimal (fun _ => True)
      ⟨⟨j, mem, fun wanted => unwanted ((collected.wanted_iff j).mpr wanted)⟩, trivial⟩
    obtain ⟨u, remains⟩ := k.2.1
    rcases held u k.1 remains with anchor | ⟨a, inside, holds⟩
    · exact k.2.2 ((collected.wanted_iff k.1).mp ⟨k.1, anchor, .refl⟩)
    · by_cases wantedA : Wanted m a
      · rcases holds with pulled | shields
        · obtain ⟨anchor, isAnchor, path⟩ := wantedA
          exact k.2.2 ⟨anchor, isAnchor, path.tail ((pulledBy_without m gone a k.1).mp pulled).1⟩
        · exact k.2.2 (behind a k.1 wantedA shields.of_without)
      · exact least ⟨a, inside, wantedA⟩ trivial holds

end

theorem collectGarbage_leaves_wanted_chain : Wanted (transactionCollectGarbage chainTransaction) 3 := by
  have built := chainTransaction_built
  have single : ∀ u, (chainTransaction.chain u).length ≤ 1 := by decide
  have unshielded : ∀ a b, ¬ Shields chainTransaction a b := by
    rintro a b ⟨u, sublist⟩
    have := sublist.length_le.trans (single u)
    simp at this
  have forward : ∀ link ∈ chainTransaction.links, ∀ s, link.subject = some s -> s < link.object := by
    have all : chainTransaction.links.all (fun link => link.subject.all (· < link.object)) = true := by
      decide
    intro link mem s subject
    simpa [subject] using all_eq_true.mp all link mem
  refine (collectGarbage_leaves_wanted_iff chainTransaction built.wf).mpr ⟨?_, ?_⟩ 3
    ⟨2, by decide⟩
  · exact fun a b _ shields => absurd shields (unshielded a b)
  · intro j loop
    have rising : ∀ k, TransGen (Holds chainTransaction) j k -> j < k := by
      have step : ∀ a b, Holds chainTransaction a b -> a < b := by
        rintro a b (⟨link, mem, subject, rfl⟩ | shields)
        · exact forward link mem a subject
        · exact absurd shields (unshielded a b)
      intro k path
      induction path with
      | single holds => exact step j _ holds
      | tail _ holds ih => exact ih.trans (step _ _ holds)
    exact absurd (rising j loop) (lt_irrefl j)

-- The first unit wants the second, which is up already and requires the third; that one and the
-- fourth require each other.
def wantedKnot : Units (Fin 4) :=
  loadedUnits 4 fun kind u =>
    if kind = .wants ∧ u = 0 then [1]
    else if kind = .requires ∧ u = 1 then [2]
    else if kind = .requires ∧ u = 2 then [3]
    else if kind = .requires ∧ u = 3 then [2]
    else []

def knotManager : Manager (Fin 4) :=
  { startupManager (0 : Fin 4) with activeState := fun u => if u = 1 then .active else .inactive }

def knotTransaction : Manager (Fin 4) :=
  transactionFindJobsThatMatterToAnchor
    (buildTransaction wantedKnot knotManager ⟨.start, 0, .replace, false⟩).1 1

-- The first unit wants the second, which is up already and requires the third; the first also has
-- the third as a requisite.
def wantedRequisite : Units (Fin 3) :=
  loadedUnits 3 fun kind u =>
    if kind = .wants ∧ u = 0 then [1]
    else if kind = .requires ∧ u = 1 then [2]
    else if kind = .requisite ∧ u = 0 then [2]
    else []

def requisiteTransaction : Manager (Fin 3) :=
  transactionFindJobsThatMatterToAnchor
    (buildTransaction wantedRequisite chainManager ⟨.start, 0, .replace, false⟩).1 1

-- Once the start of the second unit has gone as redundant, nobody asks for what it pulled in: the two
-- starts of the knot, which keep each other, and the start behind the verification of the requisite.
theorem unwanted_jobs_kept :
    (∃ before after, PassCall wantedKnot .replace knotTransaction .collectGarbage before after ∧
      after.InTransaction 3 ∧ ¬ Wanted after 3) ∧
    ∃ before after, PassCall wantedRequisite .replace requisiteTransaction .collectGarbage before after ∧
      after.InTransaction 3 ∧ ¬ Wanted after 3 := by
  constructor
  · refine ⟨_, _, .collectGarbage (by decide), ⟨2, by decide⟩, fun wanted => ?_⟩
    have first : (3 : JobId) = 1 :=
      wanted.within (· = 1)
        (by
          have all : (transactionCollectGarbage (thinned .replace knotTransaction)).links.all
              (fun link => link.subject.isSome || link.object == 1) = true := by
            decide
          intro link mem subject
          simpa [subject] using all_eq_true.mp all link mem)
        (by
          have all : (transactionCollectGarbage (thinned .replace knotTransaction)).links.all
              (fun link => link.subject != some 1) = true := by
            decide
          rintro link mem _ subject rfl
          simpa [subject] using all_eq_true.mp all link mem)
    cases first
  · refine ⟨_, _, .collectGarbage (by decide), ⟨2, by decide⟩, fun wanted => ?_⟩
    have other : (3 : JobId) ≠ 3 := by
      have all : (transactionCollectGarbage (thinned .replace requisiteTransaction)).links.all
          (fun link => link.object != 3) = true := by
        decide
      have unlinked : ∀ link ∈ (transactionCollectGarbage (thinned .replace requisiteTransaction)).links,
          link.object ≠ 3 := fun link mem => by simpa using all_eq_true.mp all link mem
      exact wanted.within (· ≠ 3) (fun link mem _ => unlinked link mem)
        fun link mem _ _ _ => unlinked link mem
    exact other rfl

end Systemd
