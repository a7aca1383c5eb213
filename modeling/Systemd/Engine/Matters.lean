import Systemd.Engine.Passes

set_option autoImplicit false

namespace Systemd

open Loop List

variable {U : Type}

def Job.marked (generation : Nat) (job : Job U) : Job U :=
  { job with mattersToAnchor := true, generation := generation }

/-- From `m` to `m'` some jobs were marked, and whoever was marked has seen his links followed. -/
structure MarkStep (generation : Nat) (m m' : Manager U) : Prop where
  frame : m' = { m with job := m'.job }
  marks : ∀ j, m'.job j = m.job j ∨
    (m.job j).generation ≠ generation ∧ m'.job j = (m.job j).marked generation
  followed : ∀ link ∈ m.links, link.matters = true -> ∀ s, link.subject = some s ->
    (m.job s).generation ≠ generation -> (m'.job s).generation = generation ->
    (m'.job link.object).generation = generation

namespace MarkStep

variable {generation : Nat} {m m' m'' : Manager U}

theorem refl (m : Manager U) : MarkStep generation m m :=
  ⟨rfl, fun _ => .inl rfl, fun _ _ _ _ _ fresh marked => absurd marked fresh⟩

theorem links (step : MarkStep generation m m') : m'.links = m.links := by
  rw [step.frame]

theorem keeps (step : MarkStep generation m m') {j : JobId}
    (marked : (m.job j).generation = generation) : (m'.job j).generation = generation := by
  rcases step.marks j with same | ⟨fresh, _⟩
  · rwa [same]
  · exact absurd marked fresh

theorem trans (first : MarkStep generation m m') (second : MarkStep generation m' m'') :
    MarkStep generation m m'' where
  frame := by rw [second.frame, first.frame]
  marks := by
    intro j
    rcases second.marks j with same | ⟨fresh, changed⟩
    · rw [same]
      exact first.marks j
    · rcases first.marks j with same | ⟨_, marked⟩
      · rw [same] at fresh changed
        exact .inr ⟨fresh, changed⟩
      · exact absurd (by rw [marked]; rfl) fresh
  followed := by
    intro link mem matters s subject fresh marked
    by_cases early : (m'.job s).generation = generation
    · exact second.keeps (first.followed link mem matters s subject fresh early)
    · exact second.followed link (first.links ▸ mem) matters s subject early marked

end MarkStep

def unmarkedCount (generation : Nat) (nodes : List JobId) (m : Manager U) : Nat :=
  (nodes.filter fun j => (m.job j).generation ≠ generation).length

variable {m m' : Manager U}

theorem unmarkedCount_mono {generation : Nat} (nodes : List JobId) (step : MarkStep generation m m') :
    unmarkedCount generation nodes m' ≤ unmarkedCount generation nodes m := by
  apply List.Sublist.length_le
  apply monotone_filter_right
  intro j unmarked
  simp only [decide_eq_true_eq] at unmarked ⊢
  exact fun marked => unmarked (step.keeps marked)

theorem unmarkedCount_lt {generation : Nat} (nodes : List JobId) (j : JobId)
    (step : ∀ k, (m.job k).generation = generation -> (m'.job k).generation = generation)
    (mem : j ∈ nodes) (fresh : (m.job j).generation ≠ generation)
    (marked : (m'.job j).generation = generation) :
    unmarkedCount generation nodes m' < unmarkedCount generation nodes m := by
  refine length_filter_lt_of_dropped nodes j mem ?_ (by simpa using fresh) (by simpa using marked)
  intro k unmarked
  simp only [decide_eq_true_eq] at unmarked ⊢
  exact fun h => unmarked (step k h)

-- Induction on the fuel, and inside it on the list of links; the fuel covers the jobs not marked.
theorem findJobsThatMatter_spec (generation fuel : Nat) (nodes : List JobId) (m : Manager U)
    (links : List JobDependency) (objects : ∀ link ∈ m.links, link.object ∈ nodes)
    (known : ∀ link ∈ links, link ∈ m.links) (bound : unmarkedCount generation nodes m ≤ fuel) :
    MarkStep generation m (findJobsThatMatter generation fuel m links) ∧
      ∀ link ∈ links, link.matters = true ->
        ((findJobsThatMatter generation fuel m links).job link.object).generation = generation := by
  induction fuel generalizing m links with
  | zero =>
    have all : ∀ j ∈ nodes, (m.job j).generation = generation := by
      intro j mem
      have empty := length_eq_zero_iff.mp (Nat.le_zero.mp bound)
      have := filter_eq_nil_iff.mp empty j mem
      simpa using this
    exact ⟨.refl m, fun link mem _ => all _ (objects link (known link mem))⟩
  | succ fuel ih =>
    simp only [findJobsThatMatter]
    induction links generalizing m with
    | nil => exact ⟨.refl m, by simp⟩
    | cons link rest ihLinks =>
      simp only [foldl_cons]
      generalize next : (if (!link.matters) = true then m
        else if (m.job link.object).generation = generation then m
        else findJobsThatMatter generation fuel
          (m.setJob link.object fun job =>
            { job with mattersToAnchor := true, generation := generation })
          (m.subjectList link.object)) = m1
      have inLinks := known link (by simp)
      have first : MarkStep generation m m1 ∧
          (link.matters = true -> (m1.job link.object).generation = generation) := by
        by_cases matters : link.matters = true
        · by_cases marked : (m.job link.object).generation = generation
          · simp only [matters, marked, Bool.not_true, Bool.false_eq_true, if_false, if_true] at next
            exact next ▸ ⟨.refl m, fun _ => marked⟩
          · simp only [matters, marked, Bool.not_true, Bool.false_eq_true, if_false] at next
            let m0 := m.setJob link.object (Job.marked generation)
            have here : (m0.job link.object) = (m.job link.object).marked generation := by
              simp [m0, Manager.setJob]
            have away : ∀ k, k ≠ link.object -> m0.job k = m.job k := fun k ne => by
              simp [m0, Manager.setJob, Function.update_of_ne ne]
            have keeps : ∀ k, (m.job k).generation = generation ->
                (m0.job k).generation = generation := fun k h => by
              by_cases same : k = link.object
              · rw [same, here]
                rfl
              · rwa [away k same]
            have smaller := unmarkedCount_lt nodes link.object keeps (objects link inLinks) marked
              (by rw [here]; rfl)
            obtain ⟨step, reached⟩ := ih m0 (m.subjectList link.object) objects
              (fun l mem => (mem_filter.mp mem).1) (by omega)
            change findJobsThatMatter generation fuel m0 (m.subjectList link.object) = m1 at next
            rw [next] at step reached
            have done : (m1.job link.object).generation = generation :=
              step.keeps (by rw [here]; rfl)
            refine ⟨⟨by rw [step.frame]; rfl, ?_, ?_⟩, fun _ => done⟩
            · intro j
              by_cases same : j = link.object
              · subst same
                rcases step.marks link.object with h | ⟨fresh, _⟩
                · exact .inr ⟨marked, h.trans here⟩
                · exact absurd (by rw [here]; rfl) fresh
              · rw [← away j same]
                exact step.marks j
            · intro l mem mattersL s subject fresh _
              by_cases same : s = link.object
              · exact reached l (mem_filter.mpr ⟨mem, by simpa [subject] using same⟩) mattersL
              · exact step.followed l mem mattersL s subject (by rwa [away s same]) ‹_›
        · simp only [matters, Bool.not_false, if_true] at next
          exact next ▸ ⟨.refl m, fun h => absurd h matters⟩
      obtain ⟨step, linkDone⟩ := first
      obtain ⟨steps, restDone⟩ := ihLinks m1 (step.links ▸ objects)
        (fun l mem => step.links ▸ known l (mem_cons_of_mem _ mem))
        ((unmarkedCount_mono nodes step).trans bound)
      refine ⟨step.trans steps, ?_⟩
      intro l mem matters
      rcases mem_cons.mp mem with rfl | later
      · exact steps.keeps (linkDone matters)
      · exact restDone l later matters

theorem transactionFindJobsThatMatterToAnchor_spec (m : Manager U) (generation : Nat)
    (wf : WellFormed m) :
    MarkStep generation m (transactionFindJobsThatMatterToAnchor m generation) ∧
      ∀ link ∈ m.links, link.subject = none -> link.matters = true ->
        ((transactionFindJobsThatMatterToAnchor m generation).job link.object).generation =
          generation := by
  obtain ⟨step, reached⟩ := findJobsThatMatter_spec generation m.transactionList.length
    m.transactionList m m.transactionAnchor
    (fun link mem => (wf.inTransaction_iff _).mp (wf.linkObject link mem))
    (fun link mem => (mem_filter.mp mem).1) (length_filter_le _ _)
  exact ⟨step, fun link mem anchor matters =>
    reached link (mem_filter.mpr ⟨mem, by simpa using anchor⟩) matters⟩

theorem findJobsThatMatter_closed (m : Manager U) (generation : Nat) (wf : WellFormed m) (fresh : ∀ j,
      m.InTransaction j -> (m.job j).generation ≠ generation ∧ (m.job j).mattersToAnchor = false) :
    MattersClosed (transactionFindJobsThatMatterToAnchor m generation) := by
  obtain ⟨step, anchored⟩ := transactionFindJobsThatMatterToAnchor_spec m generation wf
  have matters_iff : ∀ j, m.InTransaction j ->
      (((transactionFindJobsThatMatterToAnchor m generation).job j).mattersToAnchor = true ↔
        ((transactionFindJobsThatMatterToAnchor m generation).job j).generation = generation) := by
    intro j mem
    rcases step.marks j with same | ⟨_, marked⟩
    · rw [same, (fresh j mem).2]
      simp [(fresh j mem).1]
    · rw [marked]
      simp [Job.marked]
  intro link mem matters subjects
  rw [step.links] at mem
  rw [matters_iff _ (wf.linkObject link mem)]
  cases subject : link.subject with
  | none => exact anchored link mem subject matters
  | some s =>
    have inside := wf.linkSubject link mem s subject
    exact step.followed link mem matters s subject (fresh s inside).1
      ((matters_iff s inside).mp (subjects s subject))

end Systemd
