import Systemd.Engine.Install
import Systemd.Engine.Run

set_option autoImplicit false

namespace Systemd

open Loop

variable {U : Type}

structure Route (R : World U -> World U -> Prop) : Prop where
  refl : ∀ w, R w w
  trans : ∀ {w w' w'' : World U}, R w w' -> R w' w'' -> R w w''

def Present (m : Manager U) (j : JobId) : Prop :=
  j ∈ m.jobs ∨ ∃ u, m.metaJob u = some j

theorem WellFormed.present {m : Manager U} (wf : WellFormed m) {j : JobId} (present : Present m j) :
    j ∈ m.jobs := by
  rcases present with mem | ⟨u, found⟩
  · exact mem
  · exact (wf.metaJobs u j found).1

def Finishes (R : World U -> World U -> Prop) (finish : FinishFunction U) : Prop :=
  ∀ w j result w', Present w.manager j -> finish w j result = .ok w' -> R w w'

def Adds (R : World U -> World U -> Prop) (add : AddJobFunction U) : Prop :=
  ∀ w request w' result, add w request = .ok (w', result) -> R w w'

theorem transactionApply_cases [DecidableEq U] {finish : FinishFunction U} {fuel : Nat} {w w' : World U}
    {mode : JobMode} (applied : transactionApply finish fuel w mode = .ok w') :
    ∃ w1, w' = w1.set (installTransaction w1.manager) ∧
      (mode = .isolate ∧ cancelOthers finish fuel w w.manager.jobs.head? = .ok w1 ∨
        mode ≠ .isolate ∧ w1 = w) := by
  unfold transactionApply at applied
  split at applied
  · rename_i isolate
    obtain ⟨w1, cancelled, rest⟩ := bind_ok applied
    exact ⟨w1, (Except.ok.inj rest).symm, .inl ⟨isolate, cancelled⟩⟩
  · rename_i keeping
    exact ⟨w, (Except.ok.inj applied).symm, .inr ⟨keeping, rfl⟩⟩

namespace Route

variable {R : World U -> World U -> Prop} {E : Units U} {finish : FinishFunction U}
  {add : AddJobFunction U} {fuel : Nat} {w w' : World U} {j : Option JobId} {u : U} {others : List U}
  {type : JobType} {mode : JobMode}

section

variable (route : Route R)
include route

section

variable (finishes : Finishes R finish)
include finishes

theorem cancelOthers (ran : cancelOthers finish fuel w j = .ok w') : R w w' := by
  induction fuel generalizing w j with
  | zero =>
    cases j with
    | none =>
      obtain rfl : w = w' := Except.ok.inj ran
      exact route.refl w
    | some j => cases ran
  | succ fuel ih =>
    cases j with
    | none =>
      obtain rfl : w = w' := Except.ok.inj ran
      exact route.refl w
    | some j =>
      rw [Systemd.cancelOthers] at ran
      by_cases mem : j ∈ w.manager.jobs
      · simp only [mem, if_true] at ran
        by_cases outside : w.manager.transactionGet (w.manager.job j).unit = none
        · simp only [outside, if_true] at ran
          obtain ⟨w1, finished, rest⟩ := bind_ok ran
          exact route.trans (finishes w j .canceled w1 (.inl mem) finished) (ih rest)
        · simp only [outside, if_false] at ran
          exact ih ran
      · simp only [mem, if_false] at ran
        cases ran

theorem failEach {fails : Job U -> Bool} (ran : failEach finish fails w others = .ok w') : R w w' := by
  refine foldlM_steps _ R route.refl (fun _ _ _ => route.trans) ?_ others w w' ran
  intro w other w' step
  cases found : w.manager.metaJob other with
  | none =>
    simp only [found] at step
    exact Except.ok.inj step ▸ route.refl w
  | some k =>
    simp only [found] at step
    split at step
    · exact finishes w k .dependency w' (.inr ⟨other, found⟩) step
    · exact Except.ok.inj step ▸ route.refl w

theorem failDependents (ran : failDependents E finish w u type = .ok w') : R w w' := by
  unfold Systemd.failDependents at ran
  split at ran
  · obtain ⟨w1, first, ran⟩ := bind_ok ran
    obtain ⟨w2, second, third⟩ := bind_ok ran
    exact route.trans (route.trans (route.failEach finishes first)
      (route.failEach finishes second)) (route.failEach finishes third)
  · split at ran
    · exact route.failEach finishes ran
    · exact Except.ok.inj ran ▸ route.refl w

end

theorem unitTriggerOnFailure (adds : Adds R add) (ran : unitTriggerOnFailure E add w u = .ok w') : R w w' := by
  refine foldlM_steps _ R route.refl (fun _ _ _ => route.trans) ?_ _ w w' ran
  intro w other w' step
  obtain ⟨⟨w1, result⟩, added, rest⟩ := bind_ok step
  obtain rfl : w1 = w' := Except.ok.inj rest
  exact adds w _ w1 result added

end

theorem addOnce (adds : Adds R add) {request : JobRequest U}
    (ran : (do
      let (w, _) ← add w request
      .ok w) = Except.ok (ε := Fault) w') : R w w' := by
  obtain ⟨⟨w1, result⟩, added, rest⟩ := bind_ok ran
  obtain rfl : w1 = w' := Except.ok.inj rest
  exact adds w request w1 result added

section

variable (route : Route R)
include route

section

variable (adds : Adds R add)
include adds

theorem unitCheckUnneeded (ran : unitCheckUnneeded E add w u = .ok w') : R w w' := by
  unfold Systemd.unitCheckUnneeded at ran
  simp only at ran
  split at ran
  · exact addOnce adds ran
  · exact Except.ok.inj ran ▸ route.refl w

theorem addForEach {wanted : World U -> U -> Bool} {override : Bool}
    (ran : addForEach add wanted type mode override w others = .ok w') : R w w' := by
  refine foldlM_steps _ R route.refl (fun _ _ _ => route.trans) ?_ others w w' ran
  intro w other w' step
  split at step
  · exact addOnce adds step
  · exact Except.ok.inj step ▸ route.refl w

theorem checkUnneededEach (ran : checkUnneededEach E add w others = .ok w') : R w w' := by
  refine foldlM_steps _ R route.refl (fun _ _ _ => route.trans) ?_ others w w' ran
  intro w other w' step
  split at step
  · exact route.unitCheckUnneeded adds step
  · exact Except.ok.inj step ▸ route.refl w

theorem triggersNotify {triggered : Nat} (ran : triggersNotify add w u triggered = .ok w') : R w w' := by
  unfold Systemd.triggersNotify at ran
  split at ran
  · exact route.addForEach adds ran
  · exact Except.ok.inj ran ▸ route.refl w

theorem retroactivelyStopDependencies (ran : retroactivelyStopDependencies E add w u = .ok w') : R w w' := by
  obtain ⟨w1, ran1, ran⟩ := bind_ok ran
  obtain ⟨w2, ran2, ran⟩ := bind_ok ran
  obtain ⟨w3, ran3, ran⟩ := bind_ok ran
  obtain ⟨w4, ran4, ran⟩ := bind_ok ran
  obtain ⟨w5, ran5, ran⟩ := bind_ok ran
  obtain ⟨w6, ran6, ran7⟩ := bind_ok ran
  refine route.trans (route.addForEach adds ran1) ?_
  refine route.trans (route.checkUnneededEach adds ran2) ?_
  refine route.trans (route.checkUnneededEach adds ran3) ?_
  refine route.trans (route.checkUnneededEach adds ran4) ?_
  refine route.trans (route.checkUnneededEach adds ran5) ?_
  exact route.trans (route.checkUnneededEach adds ran6)
    (route.checkUnneededEach adds ran7)

end

theorem notifyJob (finishes : Finishes R finish)
    (queues : ∀ w u j, w.manager.metaJob u = some j -> R w (w.set (jobAddToRunQueue w.manager j)))
    {ns : UnitActiveState} {reloadSuccess unexpected : Bool}
    (ran : notifyJob finish w u ns reloadSuccess = .ok (w', unexpected)) : R w w' := by
  unfold Systemd.notifyJob at ran
  cases found : w.manager.metaJob u with
  | none =>
    simp only [found] at ran
    obtain ⟨rfl, _⟩ := Prod.mk.inj (Except.ok.inj ran)
    exact route.refl w
  | some j =>
    simp only [found] at ran
    have woken : R w (w.set (if (w.manager.job j).state = .waiting then
          jobAddToRunQueue w.manager j else w.manager)) ∧
        (if (w.manager.job j).state = .waiting then jobAddToRunQueue w.manager j
          else w.manager).metaJob u = some j := by
      split
      · refine ⟨queues w u j found, ?_⟩
        unfold jobAddToRunQueue
        split
        · exact found
        · exact found
      · exact ⟨route.refl w, found⟩
    revert ran woken
    generalize (if (w.manager.job j).state = .waiting then jobAddToRunQueue w.manager j
      else w.manager) = m
    intro ran woken
    split at ran
    · obtain ⟨rfl, _⟩ := Prod.mk.inj (Except.ok.inj ran)
      exact woken.1
    · obtain ⟨w1, finished, rest⟩ := bind_ok ran
      obtain ⟨rfl, _⟩ := Prod.mk.inj (Except.ok.inj rest)
      exact route.trans woken.1 (finishes (w.set m) j _ w1 (.inr ⟨u, woken.2⟩) finished)

end

variable [DecidableEq U]

theorem transactionApply (route : Route R) (finishes : Finishes R finish)
    (installs : ∀ w, R w (w.set (installTransaction w.manager)))
    (applied : transactionApply finish fuel w mode = .ok w') : R w w' := by
  obtain ⟨w1, rfl, rest⟩ := transactionApply_cases applied
  refine route.trans ?_ (installs w1)
  rcases rest with ⟨_, cancelled⟩ | ⟨_, rfl⟩
  · exact route.cancelOthers finishes cancelled
  · exact route.refl w1

theorem retroactivelyStartDependencies (route : Route R) (adds : Adds R add)
    (ran : retroactivelyStartDependencies E add w u = .ok w') : R w w' := by
  obtain ⟨w1, ran1, ran⟩ := bind_ok ran
  obtain ⟨w2, ran2, ran⟩ := bind_ok ran
  obtain ⟨w3, ran3, ran⟩ := bind_ok ran
  obtain ⟨w4, ran4, ran⟩ := bind_ok ran
  obtain ⟨w5, ran5, ran⟩ := bind_ok ran
  obtain ⟨w6, ran6, ran7⟩ := bind_ok ran
  refine route.trans (route.addForEach adds ran1) ?_
  refine route.trans (route.addForEach adds ran2) ?_
  refine route.trans (route.addForEach adds ran3) ?_
  refine route.trans (route.addForEach adds ran4) ?_
  refine route.trans (route.addForEach adds ran5) ?_
  exact route.trans (route.addForEach adds ran6)
    (route.addForEach adds ran7)

theorem unitNotify (route : Route R) (finishes : Finishes R finish) (adds : Adds R add)
    (queues : ∀ w u j, w.manager.metaJob u = some j -> R w (w.set (jobAddToRunQueue w.manager j)))
    {os ns : UnitActiveState} {reloadSuccess : Bool} {triggered : Nat}
    (ran : unitNotify E finish add w u os ns reloadSuccess triggered = .ok w') : R w w' := by
  obtain ⟨w0, again, ran⟩ := bind_ok ran
  obtain ⟨⟨w1, unexpected⟩, notified, ran⟩ := bind_ok ran
  refine route.trans (route.triggersNotify adds again) ?_
  refine route.trans (route.notifyJob finishes queues notified) ?_
  have trigger : ∀ w2, (if ns ≠ os ∧ ns = .failed then do
        let w ← Systemd.unitTriggerOnFailure E add w2 u
        Systemd.unitCheckUnneeded E add w u
      else do
        let w ← Except.ok w2
        Systemd.unitCheckUnneeded E add w u) = Except.ok w' -> R w2 w' := by
    intro w2 ran
    split at ran
    · obtain ⟨w3, triggered, checked⟩ := bind_ok ran
      exact route.trans (route.unitTriggerOnFailure adds triggered)
        (route.unitCheckUnneeded adds checked)
    · exact route.unitCheckUnneeded adds ran
  by_cases idle : w1.manager.nReloading = 0
  · simp only [idle, if_true] at ran
    split at ran
    · split at ran
      · obtain ⟨w2, started, ran⟩ := bind_ok ran
        exact route.trans (route.retroactivelyStartDependencies adds started) (trigger w2 ran)
      · split at ran
        · obtain ⟨w2, stopped, ran⟩ := bind_ok ran
          exact route.trans (route.retroactivelyStopDependencies adds stopped)
            (trigger w2 ran)
        · exact trigger w1 ran
    · exact trigger w1 ran
  · simp only [idle, if_false] at ran
    exact route.unitCheckUnneeded adds ran

end Route

end Systemd
