import Systemd.Engine.Asks
import Systemd.Engine.Runs

set_option autoImplicit false

namespace Systemd

open List

variable {U : Type} [DecidableEq U]

def reusedJob (m : Manager U) (type : JobType) (u : U) : Option JobId :=
  match (m.chain u).find? fun j => (m.job j).type = type with
  | some j => some j
  | none =>
    match m.metaJob u with
    | some j => if (m.job j).type = type then some j else none
    | none => none

/-- The jobs that are queued already and that the request comes to have the flags it gives them. -/
structure FlagsAgree [Fintype U] (E : Units U) (m : Manager U) (request : JobRequest U) : Prop where
  override : ∀ ask ∈ requestAsks E m request, ∀ j ∈ m.jobs, ask.Names (m.job j) ->
    (m.job j).override = ask.override
  ignoreOrder : request.mode = .ignoreDependencies -> refusal E request.type request.unit = none ->
    ∀ j ∈ m.jobs, reusedJob m request.type request.unit = some j -> (m.job j).ignoreOrder = true

def FlagsKept (m m' : Manager U) : Prop :=
  ∀ j ∈ m.jobs, (m'.job j).override = (m.job j).override ∧
    (m'.job j).ignoreOrder = (m.job j).ignoreOrder

omit [DecidableEq U] in
instance (m m' : Manager U) : Decidable (FlagsKept m m') :=
  inferInstanceAs (Decidable (∀ j ∈ m.jobs, _ ∧ _))

theorem transactionAddOneJob_reused (m : Manager U) (type : JobType) (u : U) (override : Bool)
    (j : JobId) (old : j < m.currentJobId) :
    (transactionAddOneJob m type u override).2.1 = j ↔ reusedJob m type u = some j := by
  unfold transactionAddOneJob reusedJob
  cases found : (m.chain u).find? fun j => decide ((m.job j).type = type) with
  | some k => simp
  | none =>
    cases installed : m.metaJob u with
    | none => simpa [jobNew] using old.ne'
    | some k =>
      by_cases same : (m.job k).type = type
      · simp [same]
      · simpa [same, jobNew] using old.ne'

section

variable {E : Units U} {order : Bool} {m0 m : Manager U} {asks : List (Ask U)}

theorem Walked.isolateStops (walked : Walked E order m0 asks m) (u : U) :
    Systemd.isolateStops m E u = (Systemd.isolateStops m0 E u && !asks.any (·.unit = u)) := by
  have empty : m.transactionGet u = none ↔
      m0.transactionGet u = none ∧ asks.any (·.unit = u) = false := by
    simp only [Manager.transactionGet, head?_eq_none_iff, any_eq_false,
      decide_eq_true_eq, eq_nil_iff_forall_not_mem]
    constructor
    · intro none
      have unasked : ∀ type, ¬ askedFor m0 asks type u = true := fun type asked => by
        obtain ⟨j, mem, _⟩ := (walked.known type u).mp asked
        exact none j mem
      refine ⟨fun j mem => none j (walked.growth.mem_chain mem), fun ask inAsks same => ?_⟩
      refine unasked ask.type ?_
      simp only [askedFor, Bool.or_eq_true, any_eq_true, decide_eq_true_eq]
      exact .inr ⟨ask, inAsks, same, rfl⟩
    · rintro ⟨none, unasked⟩ j mem
      have asked := (walked.known (m.job j).type u).mpr ⟨j, mem, rfl⟩
      simp only [askedFor, Bool.or_eq_true, any_eq_true, decide_eq_true_eq] at asked
      rcases asked with ⟨k, inChain, _⟩ | ⟨ask, inAsks, same, _⟩
      · exact none k inChain
      · exact unasked ask inAsks same
  have get : decide (m.transactionGet u = none) =
      (decide (m0.transactionGet u = none) && !asks.any (·.unit = u)) := by
    rw [Bool.eq_iff_iff]
    simpa only [decide_eq_true_eq, Bool.and_eq_true, Bool.not_eq_true'] using empty
  simp only [Systemd.isolateStops, walked.growth.activeState, walked.growth.metaJob, get, Bool.and_assoc]

variable [Fintype U]

theorem isolate_walked (wf0 : WellFormed m0) (units : List U) (walked : Walked E false m0 asks m) :
    Walked E false m0
      (units.foldl (fun asks u =>
        if isolateStops m0 E u && !asks.any (·.unit = u) then
          (walkWithDepth E m0 (Fintype.card (U × JobType)) asks true (isolateAsk u)).1
        else asks) asks)
      (units.foldl (isolateStep E) m) := by
  induction units generalizing asks m with
  | nil => exact walked
  | cons u rest ih =>
    simp only [foldl_cons]
    refine ih ?_
    rw [isolateStep, walked.isolateStops u]
    by_cases stops : (isolateStops m0 E u && !asks.any (·.unit = u)) = true
    · rw [if_pos stops, if_pos stops]
      exact (addWithDepth_follows E wf0 _ m asks (isolateCall u) walked
        (callFrom_none E m _ rfl) rfl).1
    · rw [if_neg stops, if_neg stops]
      exact walked

theorem build_walked (E : Units U) {m' : Manager U} (wf : WellFormed m) (request : JobRequest U)
    (outcome : Except (RequestError U) JobId) (built : buildTransaction E m request = (m', outcome)) :
    Walked E (decide (request.mode = .ignoreDependencies)) m (requestAsks E m request) m' := by
  obtain ⟨walked, same⟩ := addWithDepth_follows E wf (Fintype.card (U × JobType)) m [] request.call
    (.start E (decide (request.mode = .ignoreDependencies)) wf) (callFrom_none E m _ rfl) rfl
  unfold buildTransaction transactionAddJobAndDependencies at built
  unfold requestAsks
  cases added : addWithDepth E (Fintype.card (U × JobType)) m request.call with
  | mk m1 result =>
    cases went : walkWithDepth E m (Fintype.card (U × JobType)) []
        (!request.call.ignoreRequirements) request.call.ask with
    | mk asks status =>
      rw [added, went] at walked same
      rw [added] at built
      cases result with
      | error e =>
        obtain rfl : .error e = status := same
        obtain ⟨rfl, _⟩ := Prod.mk.inj built
        exact walked
      | ok ret =>
        obtain rfl : .ok () = status := same
        obtain ⟨rfl, _⟩ := Prod.mk.inj built
        by_cases isolate : request.mode = .isolate
        · have heeded : decide (request.mode = .ignoreDependencies) = false := by simp [isolate]
          rw [heeded] at walked ⊢
          simp only [isolate, if_true]
          exact isolate_walked wf E.units walked
        · simpa only [if_neg isolate] using walked

end

section

variable [Fintype U]

variable {m m' : Manager U}

variable (E : Units U)

theorem build_alone (wf : WellFormed m) (request : JobRequest U)
    (alone : request.mode = .ignoreDependencies) (outcome : Except (RequestError U) JobId)
    (built : buildTransaction E m request = (m', outcome)) (j : JobId) (mem : j ∈ m.jobs) :
    (m'.job j).ignoreOrder = ((m.job j).ignoreOrder ||
      decide (refusal E request.type request.unit = none ∧
        reusedJob m request.type request.unit = some j)) := by
  have keeping : request.mode ≠ .isolate := by simp [alone]
  have single : ∃ add, transactionAddJobAndDependencies E = addJobAndDependencies E add := by
    unfold transactionAddJobAndDependencies
    cases Fintype.card (U × JobType) with
    | zero => exact ⟨_, rfl⟩
    | succ depth => exact ⟨_, rfl⟩
  obtain ⟨add, single⟩ := single
  unfold buildTransaction at built
  rw [single] at built
  cases refused : refusal E request.type request.unit with
  | some e =>
    have same : addJobAndDependencies E add m request.call = (m, .error e) := by
      simp [addJobAndDependencies, JobRequest.call, refused]
    simp only [same] at built
    obtain ⟨rfl, _⟩ := Prod.mk.inj built
    simp
  | none =>
    have old := wf.jobFresh j mem
    have reused := transactionAddOneJob_reused m request.type request.unit request.override j old
    cases one : transactionAddOneJob m request.type request.unit request.override with
    | mk m1 rest =>
      obtain ⟨ret, isNew⟩ := rest
      rw [one] at reused
      have entered : m' = enterJob m1 request.call ret := by
        rw [addJobAndDependencies_eq add m1 ret isNew refused one,
          if_neg (by simp [JobRequest.call, alone])] at built
        simp only [if_neg keeping] at built
        exact (Prod.mk.inj built).1.symm
      have before : (m1.job j).ignoreOrder = (m.job j).ignoreOrder := by
        rcases transactionAddOneJob_spec E wf m1 ret isNew one with ⟨_, rfl, _⟩ | ⟨rfl, _⟩
        · rfl
        · obtain ⟨others, _, taken⟩ := transactionAddOneJob_jobs m m1 _ _ _ ret one
          by_cases same : j = ret
          · exact same ▸ (taken (same ▸ old)).2.2
          · rw [others j old same]
      rw [entered, enterJob_ignoreOrder, before]
      by_cases same : ret = j
      · simp [same, reused.mp same, JobRequest.call, alone]
      · have other : reusedJob m request.type request.unit ≠ some j := fun found =>
          same (reused.mpr found)
        simp [Ne.symm same, other]

theorem build_flags (wf : WellFormed m) (request : JobRequest U)
    (outcome : Except (RequestError U) JobId) (built : buildTransaction E m request = (m', outcome)) :
    FlagsKept m m' ↔ FlagsAgree E m request := by
  have walked := build_walked E wf request outcome built
  constructor
  · intro kept
    refine ⟨fun ask inAsks j mem names => ?_, fun alone accepted j mem reused => ?_⟩
    · rw [← (kept j mem).1]
      exact walked.asked j mem ask inAsks names
    · rw [← (kept j mem).2, build_alone E wf request alone outcome built j mem]
      simp [accepted, reused]
  · intro agree j mem
    constructor
    · by_cases named : ∃ ask ∈ requestAsks E m request, ask.Names (m.job j)
      · obtain ⟨ask, inAsks, names⟩ := named
        rw [walked.asked j mem ask inAsks names, agree.override ask inAsks j mem names]
      · exact walked.unasked j mem fun ask inAsks names => named ⟨ask, inAsks, names⟩
    · by_cases alone : request.mode = .ignoreDependencies
      · rw [build_alone E wf request alone outcome built j mem]
        by_cases taken : refusal E request.type request.unit = none ∧
            reusedJob m request.type request.unit = some j
        · simp [agree.ignoreOrder alone taken.1 j mem taken.2]
        · simp [taken]
      · exact walked.ordered (by simp [alone]) j mem

theorem rejected_requests_keep_flags (fuel : Nat) (w w' : World U) (request : JobRequest U)
    (e : RequestError U) (wf : WellFormed w.manager)
    (rejected : managerAddJob E fuel w request = .ok (w', .error e)) :
    FlagsKept w.manager w'.manager ↔
      (requestRefusal E request = none -> FlagsAgree E w.manager request) := by
  cases fuel with
  | zero =>
    rw [managerAddJob] at rejected
    cases rejected
  | succ fuel =>
    rw [managerAddJob] at rejected
    cases addJobBody_cases rejected with
    | refused _ refused => exact ⟨fun _ admitted => by simp [refused] at admitted, fun _ _ _ => ⟨rfl, rfl⟩⟩
    | unbuilt m1 _ admitted built =>
      obtain ⟨wf1, _, _⟩ := (buildTransaction_spec wf built).1
      simp only [admitted, forall_const, ← build_flags E wf request _ built, World.set,
        transactionAbort_spec m1 wf1]
      rfl
    | rejected m1 m2 ret _ admitted built check =>
      obtain ⟨wf1, growth, _⟩ := (buildTransaction_spec wf built).1
      have frame := transactionCheck_checked wf1 check
      simp only [admitted, forall_const, ← build_flags E wf request _ built, World.set,
        transactionAbort_spec m2 frame.wf]
      -- The checks leave the flags of installed jobs alone, and so does giving up.
      refine forall_congr' fun j => forall_congr' fun mem => ?_
      have installed : (m1.job j).installed = true :=
        (growth.kept j (wf.jobFresh j mem)).installed.trans (wf.jobInstalled j mem)
      obtain ⟨_, override, ignoreOrder⟩ := frame.kept j installed
      rw [override, ignoreOrder]

theorem rejection_of_eval (fuel : Nat) (w : World U) (request : JobRequest U) (P : World U -> Bool) (run
      : (managerAddJob E fuel w request).toOption.any (fun result => !result.2.toOption.isSome && P
      result.1) = true) :
    ∃ w' e, managerAddJob E fuel w request = .ok (w', .error e) ∧ P w' = true := by
  cases outcome : managerAddJob E fuel w request with
  | error fault => simp [outcome, Except.toOption] at run
  | ok result =>
    obtain ⟨w', status⟩ := result
    cases status with
    | ok ret => simp [outcome, Except.toOption] at run
    | error e => exact ⟨w', e, rfl, by simpa [outcome, Except.toOption] using run⟩

end

-- The unit 1 requires the unit 0, whose start job is queued, and the unit 2, which is masked.
def maskedNeighbour : Units (Fin 3) :=
  { loadedUnits 3 (fun kind u => if kind = .requires ∧ u = 1 then [0, 2] else []) with
    loadState := fun u => if u = 2 then .masked else .loaded }

theorem rejected_requests_keep_flags_masked :
    ∃ w w' e, Reachable maskedNeighbour w ∧ w.manager.jobs = [1] ∧
      managerAddJob maskedNeighbour 9 w ⟨.start, 1, .replace, false⟩ = .ok (w', .error e) ∧
      FlagsAgree maskedNeighbour w.manager ⟨.start, 1, .replace, false⟩ := by
  obtain ⟨w, run, facts⟩ := reachable_of_run maskedNeighbour 0 9 [.addJob ⟨.start, 0, .replace, false⟩]
    (fun w => decide (w.manager.jobs = [1] ∧
      (managerAddJob maskedNeighbour 9 w ⟨.start, 1, .replace, false⟩).toOption.any (fun result =>
        !result.2.toOption.isSome && decide (FlagsKept w.manager result.1.manager)) = true))
    (by decide)
  obtain ⟨jobs, rejected⟩ := of_decide_eq_true facts
  obtain ⟨w', e, ran, kept⟩ := rejection_of_eval maskedNeighbour 9 w ⟨.start, 1, .replace, false⟩
    (fun w' => decide (FlagsKept w.manager w'.manager)) rejected
  refine ⟨w, w', e, run, jobs, ran, ?_⟩
  exact (rejected_requests_keep_flags maskedNeighbour 9 w w' _ e run.settled.1.wf ran).mp
    (of_decide_eq_true kept) (by decide)

/-- The request fails on the masked unit, and the job of the unit 0 has been made one that survives
the failure of what it requires. -/
theorem rejected_request_overrides :
    ∃ w w' e, Reachable maskedNeighbour w ∧
      managerAddJob maskedNeighbour 9 w ⟨.start, 1, .replace, true⟩ = .ok (w', .error e) ∧
      ¬ FlagsKept w.manager w'.manager := by
  obtain ⟨w, run, facts⟩ := reachable_of_run maskedNeighbour 0 9 [.addJob ⟨.start, 0, .replace, false⟩]
    (fun w => (managerAddJob maskedNeighbour 9 w ⟨.start, 1, .replace, true⟩).toOption.any
      fun result => !result.2.toOption.isSome && decide (¬ FlagsKept w.manager result.1.manager))
    (by decide)
  obtain ⟨w', e, ran, changed⟩ := rejection_of_eval maskedNeighbour 9 w ⟨.start, 1, .replace, true⟩
    (fun w' => decide (¬ FlagsKept w.manager w'.manager)) facts
  exact ⟨w, w', e, run, ran, of_decide_eq_true changed⟩

end Systemd
