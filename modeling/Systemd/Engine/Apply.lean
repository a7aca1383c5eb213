import Systemd.Engine.Reentry

set_option autoImplicit false

namespace Systemd

open Loop Relation List Option

variable {U : Type}

/-- No failure of a job that is cancelled reaches a unit with OnFailure= units, or an installed job
that is itself in the transaction. -/
def Undisturbed (E : Units U) (m : Manager U) : Prop :=
  ∀ a b, Doomed E m a -> Propagates E m a b ->
    E.dependencies .onFailure b = [] ∧ ∀ k, m.metaJob b = some k -> k ∉ m.chain b

variable {m : Manager U} {E : Units U}

theorem Undisturbed.harmless (calm : Undisturbed E m) : Harmless E m :=
  fun a b doomed edge => (calm a b doomed edge).1

theorem Undisturbed.not_evicted (calm : Undisturbed E m) (u : U) : ¬ Evicted E m u := by
  have spared : ∀ a, Doomed E m a -> ∀ k, m.metaJob a = some k -> k ∉ m.chain a := by
    intro a doomed
    induction doomed with
    | outside a j _ outside =>
      intro k _ inChain
      rw [head?_eq_none_iff.mp outside] at inChain
      cases inChain
    | failed a b doomed edge _ => exact (calm a b doomed edge).2
    | evicted a b k d _ found inChain _ _ ih => exact absurd inChain (ih k found)
  rintro ⟨a, k, d, doomed, found, inChain, _⟩
  exact spared a doomed k found inChain

theorem nextJob_eq (before after : List JobId) (j : JobId) (fresh : j ∉ before) :
    nextJob (before ++ j :: after) j = after.head? := by
  have skipped : (before ++ j :: after).dropWhile (· ≠ j) = j :: after := by
    rw [dropWhile_append_of_pos fun k mem => by
      simpa using fun same : k = j => fresh (same ▸ mem)]
    simp
  rw [nextJob, skipped, tail_cons]

theorem sublist_split {before after rest jobs : List JobId} {j n : JobId}
    (nodup : (before ++ j :: after).Nodup) (next : after = n :: rest)
    (fewer : jobs.Sublist (before ++ j :: after)) (gone : j ∉ jobs) (mem : n ∈ jobs) :
    ∃ before' after', jobs = before' ++ n :: after' ∧ ∀ k ∈ before', k ∈ before := by
  subst next
  obtain ⟨left, right, rfl, inBefore, inAfter⟩ := sublist_append_iff.mp fewer
  have notLeft : n ∉ left := by
    intro inLeft
    have := disjoint_of_nodup_append nodup (inBefore.subset inLeft)
    simp at this
  have inRight : n ∈ right := (mem_append.mp mem).resolve_left notLeft
  cases right with
  | nil => cases inRight
  | cons k right =>
    have tail : (k :: right).Sublist (n :: rest) := by
      rcases sublist_cons_iff.mp inAfter with without | ⟨_, same, _⟩
      · exact without
      · exact absurd (by simp [same]) gone
    have nodupRest : (n :: rest).Nodup := (nodup_cons.mp (nodup_append.mp nodup).2.1).2
    rcases sublist_cons_iff.mp tail with without | ⟨_, same, _⟩
    · exact absurd (without.subset inRight) (nodup_cons.mp nodupRest).1
    · obtain ⟨rfl, rfl⟩ := List.cons.inj same
      exact ⟨left, _, rfl, fun k inLeft => inBefore.subset inLeft⟩

theorem cancelOthers_complete {finish : FinishFunction U} (quiet : FinishQuiet E m finish)
    (whole : ∀ u, ¬ Evicted E m u) (fuel : Nat) (w w' : World U) (before after : List JobId)
    (cancelling : Cancelling E m w.manager) (jobs : w.manager.jobs = before ++ after)
    (inside : ∀ k ∈ before, m.transactionGet (m.job k).unit ≠ none)
    (ran : cancelOthers finish fuel w after.head? = .ok w') :
    ∀ k ∈ w'.manager.jobs, m.transactionGet (m.job k).unit ≠ none := by
  induction fuel generalizing w before after with
  | zero =>
    cases after with
    | nil =>
      obtain rfl : w = w' := Except.ok.inj ran
      simpa [jobs] using inside
    | cons j rest => cases ran
  | succ fuel ih =>
    cases after with
    | nil =>
      obtain rfl : w = w' := Except.ok.inj ran
      simpa [jobs] using inside
    | cons j rest =>
      have mem : j ∈ w.manager.jobs := by simp [jobs]
      have nodup := cancelling.settled.wf.jobsNodup
      rw [jobs] at nodup
      have fresh : j ∉ before := fun h => by
        have := disjoint_of_nodup_append nodup h
        simp at this
      have unit : (w.manager.job j).unit = (m.job j).unit := by rw [cancelling.job j]
      have sameChain := (cancelling.chain (m.job j).unit).resolve_right fun h => whole _ h.2
      have sameGet : w.manager.transactionGet (w.manager.job j).unit =
          m.transactionGet (m.job j).unit := by
        rw [unit, Manager.transactionGet, sameChain, Manager.transactionGet]
      rw [head?_cons, cancelOthers] at ran
      simp only [mem, if_true, sameGet] at ran
      rw [jobs, nextJob_eq before rest j fresh] at ran
      by_cases outside : m.transactionGet (m.job j).unit = none
      · simp only [outside, if_true] at ran
        obtain ⟨w1, finished, ran⟩ := bind_ok ran
        have doomed : Doomed E m (w.manager.job j).unit := by
          rw [unit]
          refine .outside _ j ?_ outside
          exact unit ▸ cancelling.metaJob_some (cancelling.settled.wf.jobMeta j mem)
        obtain ⟨step, freed⟩ := quiet w j .canceled w1 finished mem doomed (.inl rfl)
        obtain ⟨cancelling1, _, fewer⟩ := step cancelling
        have gone := freed cancelling
        rw [jobs] at fewer
        cases next : rest with
        | nil =>
          rw [next] at ran fewer
          obtain rfl : w1 = w' := by
            cases fuel <;> exact Except.ok.inj ran
          intro k inJobs
          rcases mem_append.mp (fewer.subset inJobs) with old | last
          · exact inside k old
          · exact absurd (mem_singleton.mp last ▸ inJobs) gone
        | cons n rest' =>
          rw [next] at ran
          have live : n ∈ w1.manager.jobs := by
            by_contra dead
            cases fuel with
            | zero => cases ran
            | succ fuel =>
              rw [head?_cons, cancelOthers] at ran
              simp only [dead, if_false] at ran
              cases ran
          obtain ⟨before', after', split, old⟩ := sublist_split nodup next fewer gone live
          exact ih w1 before' (n :: after') cancelling1 split (fun k h => inside k (old k h)) ran
      · simp only [outside, if_false] at ran
        refine ih w (before ++ [j]) rest cancelling (by simp [jobs]) ?_ ran
        intro k inBefore
        rcases mem_append.mp inBefore with old | last
        · exact inside k old
        · rwa [mem_singleton.mp last]

variable [DecidableEq U]

structure Applied (mode : JobMode) (m m' : Manager U) : Prop where
  wf : WellFormed m'
  activeState : m'.activeState = m.activeState
  job : ∀ k, m'.job k = { m.job k with installed := (m'.job k).installed }
  placed : ∀ u j, m.transactionGet u = some j -> m'.metaJob u = some j
  others : ∀ u, m.transactionGet u = none ->
    m'.metaJob u = if mode = .isolate then none else m.metaJob u

variable [Fintype U]

theorem transactionApply_applied {fuel : Nat} {w w' : World U} {mode : JobMode}
    (settled : Settled w.manager) (calm : mode = .isolate -> Undisturbed E w.manager)
    (applied : transactionApply (jobFinishAndInvalidate E fuel) fuel w mode = .ok w') :
    Applied mode w.manager w'.manager := by
  obtain ⟨w1, rfl, rest⟩ := transactionApply_cases applied
  rcases rest with ⟨isolate, cancelled⟩ | ⟨keeping, rfl⟩
  · have undisturbed := calm isolate
    have quiet := jobFinishAndInvalidate_quiet undisturbed.harmless fuel
    obtain ⟨cancelling, _, _⟩ := cancelOthers_quiet quiet fuel w w1 _ cancelled (.refl settled)
    have left := cancelOthers_complete quiet undisturbed.not_evicted fuel w w1 [] w.manager.jobs
      (.refl settled) rfl (by simp) cancelled
    have sameGet : ∀ u, w1.manager.transactionGet u = w.manager.transactionGet u := by
      intro u
      have same := (cancelling.chain u).resolve_right fun h => undisturbed.not_evicted u h.2
      simp only [Manager.transactionGet, same]
    have installed := installTransaction_spec cancelling.settled
    refine ⟨installed.wf, installed.activeState.trans cancelling.activeState, fun k => ?_, ?_, ?_⟩
    · change (installTransaction w1.manager).job k = _
      rw [installed.job k, cancelling.job k]
      rfl
    · intro u j found
      change (installTransaction w1.manager).metaJob u = _
      simp [installed.metaJob u, sameGet u, found]
    · intro u outside
      change (installTransaction w1.manager).metaJob u = _
      rw [installed.metaJob u, sameGet u, outside, if_pos isolate, none_or]
      cases found : w1.manager.metaJob u with
      | none => rfl
      | some k =>
        obtain ⟨inJobs, unit⟩ := cancelling.settled.wf.metaJobs u k found
        rw [cancelling.job k] at unit
        exact absurd (unit ▸ outside) (left k inJobs)
  · have installed := installTransaction_spec settled
    refine ⟨installed.wf, installed.activeState, installed.job, ?_, ?_⟩
    · intro u j found
      change (installTransaction w1.manager).metaJob u = _
      simp [installed.metaJob u, found]
    · intro u outside
      change (installTransaction w1.manager).metaJob u = _
      rw [installed.metaJob u, outside, if_neg keeping, none_or]

end Systemd
