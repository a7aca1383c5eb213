import Systemd.Engine.Atomic

set_option autoImplicit false

namespace Systemd

open Loop List Function

variable {U : Type} [DecidableEq U]

structure Ask (U : Type) where
  type : JobType
  unit : U
  override : Bool
  deriving DecidableEq

def Ask.Names (ask : Ask U) (job : Job U) : Prop := ask.unit = job.unit ∧ ask.type = job.type

def AddCall.ask (call : AddCall U) : Ask U := ⟨call.type, call.unit, call.override⟩

/-- A walk over the dependencies alone: which jobs it asks for, and how it comes back. The flag tells
whether to follow the dependencies of the unit it starts from. -/
abbrev Walk (U : Type) := List (Ask U) -> Bool -> Ask U -> List (Ask U) × Status U

def askedFor (m : Manager U) (asks : List (Ask U)) (type : JobType) (u : U) : Bool :=
  (m.chain u).any (fun j => (m.job j).type = type) ||
    asks.any fun ask => ask.unit = u ∧ ask.type = type

def furtherAsks (E : Units U) (ask : Ask U) : List (Pull × Ask U) :=
  (pulls ask.type ask.override).flatMap fun pull =>
    (pullUnits E ask.unit pull.set).map fun dep => (pull, ⟨pull.type, dep, pull.override⟩)

def walkPull (walk : Walk U) (asks : List (Ask U)) (pull : Pull × Ask U) :
    List (Ask U) × Status U :=
  match walk asks true pull.2 with
  | (asks, .ok ()) => (asks, .ok ())
  | (asks, .error e) =>
    if pull.1.ignored ∨ e.errno = .ebadr then (asks, .ok ()) else (asks, .error e)

def walkBody (E : Units U) (m : Manager U) (walk : Walk U) : Walk U := fun asks requirements ask =>
  match refusal E ask.type ask.unit with
  | some e => (asks, .error e)
  | none =>
    if askedFor m asks ask.type ask.unit then (asks, .ok ())
    else if requirements then forEach (walkPull walk) (ask :: asks) (furtherAsks E ask)
    else (ask :: asks, .ok ())

def walkWithDepth (E : Units U) (m : Manager U) : Nat -> Walk U
  | 0 => walkBody E m fun asks _ _ => (asks, .error .noMemory)
  | depth + 1 => walkBody E m (walkWithDepth E m depth)

def isolateAsk (u : U) : Ask U := ⟨.stop, u, false⟩

def isolateAsks [Fintype U] (E : Units U) (m : Manager U) (asks : List (Ask U)) : List (Ask U) :=
  E.units.foldl (fun asks u =>
    if isolateStops m E u && !asks.any (·.unit = u) then
      (walkWithDepth E m (Fintype.card (U × JobType)) asks true (isolateAsk u)).1
    else asks) asks

/-- The jobs a request asks for before it is done or gives up. The walk reads the dependencies and
load states of the units; of the manager it reads whose jobs an isolating request is to stop and
what is in the transaction already. -/
def requestAsks [Fintype U] (E : Units U) (m : Manager U) (request : JobRequest U) :
    List (Ask U) :=
  match walkWithDepth E m (Fintype.card (U × JobType)) [] (!request.call.ignoreRequirements)
      request.call.ask with
  | (asks, .error _) => asks
  | (asks, .ok ()) => if request.mode = .isolate then isolateAsks E m asks else asks

/-- A manager in the middle of building a transaction, and the walk that has got as far. `order` is
the ignore_order flag of the request. -/
structure Walked (E : Units U) (order : Bool) (m0 : Manager U) (asks : List (Ask U)) (m : Manager U) :
    Prop where
  wf : WellFormed m
  growth : Growth E (fun _ _ => True) m0 m
  known : ∀ type u, askedFor m0 asks type u = true ↔
    ∃ j ∈ m.chain u, (m.job j).type = type
  asked : ∀ j ∈ m0.jobs, ∀ ask ∈ asks, ask.Names (m0.job j) -> (m.job j).override = ask.override
  unasked : ∀ j ∈ m0.jobs, (∀ ask ∈ asks, ¬ ask.Names (m0.job j)) ->
    (m.job j).override = (m0.job j).override
  ordered : order = false -> ∀ j ∈ m0.jobs, (m.job j).ignoreOrder = (m0.job j).ignoreOrder

variable (E : Units U) (m : Manager U) (call : AddCall U) (ret : JobId)

theorem Walked.start (order : Bool) {m : Manager U} (wf : WellFormed m) : Walked E order m [] m where
  wf := wf
  growth := .refl m
  known := by simp [askedFor]
  asked := by simp
  unasked := fun _ _ _ => rfl
  ordered := fun _ _ _ => rfl

theorem transactionAddOneJob_jobs (m' : Manager U) (type : JobType) (u : U) (override : Bool)
    (ret : JobId) (added : transactionAddOneJob m type u override = (m', ret, true)) :
    (∀ k < m.currentJobId, k ≠ ret -> m'.job k = m.job k) ∧ (m'.job ret).override = override ∧
      (ret < m.currentJobId -> m.metaJob u = some ret ∧ (m.job ret).type = type ∧
        (m'.job ret).ignoreOrder = (m.job ret).ignoreOrder) := by
  unfold transactionAddOneJob at added
  cases found : (m.chain u).find? fun j => decide ((m.job j).type = type) with
  | some j => simp [found] at added
  | none =>
    have made (state : transactionPrepend ((jobNew m type u).1.setJob m.currentJobId fun job => { job with
          generation := 0, marker := none, mattersToAnchor := false, override := override })
          u m.currentJobId = m') (id : m.currentJobId = ret) :
        (∀ k < m.currentJobId, k ≠ ret -> m'.job k = m.job k) ∧ (m'.job ret).override = override ∧
          (ret < m.currentJobId -> m.metaJob u = some ret ∧ (m.job ret).type = type ∧
            (m'.job ret).ignoreOrder = (m.job ret).ignoreOrder) := by
      subst state id
      refine ⟨fun k small other => ?_, by simp [transactionPrepend, Manager.setJob],
        fun small => absurd small (lt_irrefl _)⟩
      simp [transactionPrepend, Manager.setJob, update_of_ne other, jobNew]
    cases installed : m.metaJob u with
    | none =>
      obtain ⟨state, id⟩ : _ = m' ∧ m.currentJobId = ret := by
        simpa [found, installed, jobNew] using added
      rw [← installed]
      exact made state id
    | some k =>
      by_cases same : (m.job k).type = type
      · simp only [found, installed, same, if_true, Prod.mk.injEq, and_true] at added
        obtain ⟨rfl, rfl⟩ := added
        refine ⟨fun other _ ne => ?_, by simp [transactionPrepend, Manager.setJob],
          fun _ => ⟨rfl, same, by simp [transactionPrepend, Manager.setJob]⟩⟩
        simp [transactionPrepend, Manager.setJob, update_of_ne ne]
      · obtain ⟨state, id⟩ : _ = m' ∧ m.currentJobId = ret := by
          simpa [found, installed, same, jobNew] using added
        rw [← installed]
        exact made state id

omit [DecidableEq U] in
theorem enterJob_override (j : JobId) :
    ((enterJob m call ret).job j).override = (m.job j).override := by
  by_cases same : j = ret
  · simp [enterJob, jobDependencyNew, Manager.setJob, same]
  · simp [enterJob, jobDependencyNew, Manager.setJob, update_of_ne same]

omit [DecidableEq U] in
theorem enterJob_ignoreOrder (j : JobId) :
    ((enterJob m call ret).job j).ignoreOrder =
      if j = ret then (m.job j).ignoreOrder || call.ignoreOrder else (m.job j).ignoreOrder := by
  by_cases same : j = ret
  · simp [enterJob, jobDependencyNew, Manager.setJob, same]
  · simp [enterJob, jobDependencyNew, Manager.setJob, same]

theorem askedFor_cons (ask : Ask U) (asks : List (Ask U)) (type : JobType) (u : U) :
    askedFor m (ask :: asks) type u = true ↔
      (ask.unit = u ∧ ask.type = type) ∨ askedFor m asks type u = true := by
  simp only [askedFor, any_cons, Bool.or_eq_true, decide_eq_true_eq]
  tauto

namespace Walked

variable {E : Units U} {order : Bool} {m0 m : Manager U} {asks : List (Ask U)}

theorem again (walked : Walked E order m0 asks m) (call : AddCall U) (valid : CallFrom E m call)
    (sameOrder : call.ignoreOrder = order) (ret : JobId) (mem : ret ∈ m.chain call.unit)
    (typed : (m.job ret).type = call.type) : Walked E order m0 asks (enterJob m call ret) := by
  obtain ⟨wf, growth, _⟩ := enterJob_spec walked.wf valid mem typed fun _ _ => True
  refine ⟨wf, walked.growth.trans walked.wf growth, fun type u => ?_, ?_, ?_, ?_⟩
  · rw [walked.known type u]
    refine exists_congr fun j => and_congr_right fun inChain => ?_
    rw [(growth.kept j (walked.wf.chainFresh u j inChain)).type]
  · intro j inJobs ask inAsks names
    rw [enterJob_override]
    exact walked.asked j inJobs ask inAsks names
  · intro j inJobs none
    rw [enterJob_override]
    exact walked.unasked j inJobs none
  · intro heeded j inJobs
    rw [enterJob_ignoreOrder, sameOrder, heeded, Bool.or_false, ite_self]
    exact walked.ordered heeded j inJobs

theorem add (walked : Walked E order m0 asks m) (wf0 : WellFormed m0) (call : AddCall U)
    (m1 : Manager U) (ret : JobId)
    (one : transactionAddOneJob m call.type call.unit call.override = (m1, ret, true)) :
    Walked E order m0 (call.ask :: asks) m1 := by
  obtain ⟨others, override, old⟩ := transactionAddOneJob_jobs m m1 _ _ _ ret one
  have added : Added E m call.type call.unit m1 ret := by
    rcases transactionAddOneJob_spec E walked.wf m1 ret true one with ⟨same, _⟩ | ⟨_, added⟩
    · cases same
    · exact added
  have growth : Growth E (fun _ _ => True) m m1 := added.growth.mono fun _ _ _ => trivial
  have kept : ∀ j ∈ m0.jobs, j < m.currentJobId ∧ SameJob (m0.job j) (m.job j) := by
    intro j inJobs
    have small := wf0.jobFresh j inJobs
    exact ⟨small.trans_le walked.growth.ids, walked.growth.kept j small⟩
  refine ⟨added.wf, walked.growth.trans walked.wf growth, fun type u => ?_, ?_, ?_, ?_⟩
  · rw [askedFor_cons, walked.known type u]
    by_cases here : u = call.unit
    · subst here
      have types : ∀ j ∈ m.chain call.unit, (m1.job j).type = (m.job j).type :=
        fun j mem => (growth.kept j (walked.wf.chainFresh _ j mem)).type
      simp only [added.chain, mem_cons, exists_eq_or_imp, added.typed, AddCall.ask, true_and]
      refine or_congr_right (exists_congr fun j => and_congr_right fun mem => ?_)
      rw [types j mem]
    · simp only [added.others u here, AddCall.ask, Ne.symm here, false_and, false_or]
      refine exists_congr fun j => and_congr_right fun mem => ?_
      rw [(growth.kept j (walked.wf.chainFresh u j mem)).type]
  · intro j inJobs ask inAsks names
    obtain ⟨small, same⟩ := kept j inJobs
    by_cases taken : j = ret
    · subst taken
      obtain ⟨found, type, _⟩ := old small
      rcases mem_cons.mp inAsks with rfl | earlier
      · exact override
      · have twice : askedFor m0 asks call.type call.unit = true := by
          simp only [askedFor, Bool.or_eq_true, any_eq_true, decide_eq_true_eq]
          refine .inr ⟨ask, earlier, names.1.trans ?_, names.2.trans (same.type.symm.trans type)⟩
          rw [← same.unit]
          exact (walked.wf.metaJobs _ j found).2
        obtain ⟨k, mem, typed⟩ := (walked.known _ _).mp twice
        exact absurd typed (added.absent k mem)
    · rw [others j small taken]
      rcases mem_cons.mp inAsks with rfl | earlier
      · refine absurd (added.reused j ?_ (same.type.trans names.2.symm)).symm taken
        have unit : call.unit = (m0.job j).unit := names.1
        rw [walked.growth.metaJob, unit]
        exact wf0.jobMeta j inJobs
      · exact walked.asked j inJobs ask earlier names
  · intro j inJobs none
    obtain ⟨small, same⟩ := kept j inJobs
    have untaken : j ≠ ret := by
      rintro rfl
      obtain ⟨found, type, _⟩ := old small
      refine none call.ask (by simp) ⟨?_, type.symm.trans same.type⟩
      exact (walked.wf.metaJobs _ j found).2.symm.trans same.unit
    rw [others j small untaken]
    exact walked.unasked j inJobs fun ask earlier => none ask (mem_cons_of_mem _ earlier)
  · intro heeded j inJobs
    obtain ⟨small, _⟩ := kept j inJobs
    by_cases taken : j = ret
    · subst taken
      rw [(old small).2.2]
      exact walked.ordered heeded j inJobs
    · rw [others j small taken]
      exact walked.ordered heeded j inJobs

end Walked

/-- A call of transaction_add_job_and_dependencies asks for what the walk asks for, and comes back the
same way. -/
def Follows (E : Units U) (order : Bool) (m0 : Manager U) (add : AddFunction U) (walk : Walk U) :
    Prop :=
  ∀ m asks call, Walked E order m0 asks m -> CallFrom E m call -> call.ignoreOrder = order ->
    Walked E order m0 (walk asks (!call.ignoreRequirements) call.ask).1 (add m call).1 ∧
      (add m call).2.map (fun _ => ()) = (walk asks (!call.ignoreRequirements) call.ask).2

omit [DecidableEq U] in
theorem furtherAsks_eq :
    furtherAsks E call.ask = (pullCalls E call ret).map fun item => (item.1, item.2.ask) := by
  simp only [furtherAsks, pullCalls, map_flatMap, map_map, AddCall.ask]
  rfl

omit [DecidableEq U] in
theorem pullCalls_ignoreOrder (item : Pull × AddCall U) (mem : item ∈ pullCalls E call ret) :
    item.2.ignoreOrder = call.ignoreOrder := by
  obtain ⟨pull, _, inItems⟩ := mem_flatMap.mp mem
  obtain ⟨dep, _, rfl⟩ := mem_map.mp inItems
  rfl

theorem walkBody_eq (walk : Walk U) (asks : List (Ask U)) (requirements : Bool) (ask : Ask U)
    (accepted : refusal E ask.type ask.unit = none) :
    walkBody E m walk asks requirements ask =
      if askedFor m asks ask.type ask.unit = true then (asks, .ok ())
      else if requirements = true then forEach (walkPull walk) (ask :: asks) (furtherAsks E ask)
      else (ask :: asks, .ok ()) := by
  simp only [walkBody, accepted]

variable {m0 : Manager U} {order : Bool}

theorem Walked.loop {E : Units U} {add : AddFunction U} {walk : Walk U} (spec : AddSpec E add)
    (follows : Follows E order m0 add walk) (call : AddCall U) (sameOrder : call.ignoreOrder = order)
    (ret : JobId) (items : List (Pull × AddCall U))
    (known : ∀ item ∈ items, item ∈ pullCalls E call ret) (m : Manager U) (asks : List (Ask U))
    (walked : Walked E order m0 asks m) (placed : Placed m call ret) :
    Walked E order m0 (forEach (walkPull walk) asks (items.map fun item => (item.1, item.2.ask))).1
        (forEach (pullIn add) m items).1 ∧
      (forEach (pullIn add) m items).2 =
        (forEach (walkPull walk) asks (items.map fun item => (item.1, item.2.ask))).2 := by
  induction items generalizing m asks with
  | nil => exact ⟨walked, rfl⟩
  | cons item rest ih =>
    have inCalls := known item (by simp)
    have valid := pullCalls_valid walked.wf placed inCalls
    obtain ⟨_, _, _, _, _, _, requirements⟩ := pullCalls_mem inCalls
    obtain ⟨walked1, same⟩ := follows m asks item.2 walked valid
      ((pullCalls_ignoreOrder E call ret item inCalls).trans sameOrder)
    have placed1 := placed.grow walked.wf (spec.growth m item.2 walked.wf valid)
    have later := ih (fun x mem => known x (mem_cons_of_mem _ mem))
    rw [requirements, Bool.not_false] at walked1 same
    rw [map_cons, forEach, forEach]
    simp only [pullIn, walkPull]
    cases called : add m item.2 with
    | mk m1 outcome =>
      cases went : walk asks true item.2.ask with
      | mk asks1 status =>
        rw [called, went] at walked1 same
        rw [called] at placed1
        cases outcome with
        | ok job =>
          obtain rfl : .ok () = status := same
          exact later m1 asks1 walked1 placed1
        | error e =>
          obtain rfl : .error e = status := same
          by_cases passed : item.1.ignored = true ∨ e.errno = .ebadr
          · simp only [if_pos passed]
            exact later m1 asks1 walked1 placed1
          · simpa only [if_neg passed, and_true] using walked1

theorem addJobAndDependencies_follows (wf0 : WellFormed m0) (add : AddFunction U) (walk : Walk U)
    (spec : AddSpec E add) (follows : Follows E order m0 add walk) :
    Follows E order m0 (addJobAndDependencies E add) (walkBody E m0 walk) := by
  intro m asks call walked valid sameOrder
  cases refused : refusal E call.type call.unit with
  | some e =>
    simp only [addJobAndDependencies, walkBody, AddCall.ask, refused]
    exact ⟨walked, rfl⟩
  | none =>
    cases one : transactionAddOneJob m call.type call.unit call.override with
    | mk m1 rest =>
      obtain ⟨ret, isNew⟩ := rest
      rw [addJobAndDependencies_eq add m1 ret isNew refused one]
      rcases transactionAddOneJob_spec E walked.wf m1 ret isNew one with
        ⟨rfl, rfl, mem, typed⟩ | ⟨rfl, added⟩
      · have known : askedFor m0 asks call.ask.type call.ask.unit = true :=
          (walked.known _ _).mpr ⟨ret, mem, typed⟩
        rw [walkBody_eq E m0 walk asks _ call.ask refused, if_pos known, if_neg (by simp)]
        exact ⟨walked.again call valid sameOrder ret mem typed, rfl⟩
      · have new : ¬ askedFor m0 asks call.ask.type call.ask.unit = true := by
          intro known
          obtain ⟨j, mem, typed⟩ := (walked.known _ _).mp known
          exact added.absent j mem typed
        have walked1 := walked.add wf0 call m1 ret one
        have valid1 := added.growth.callFrom walked.wf valid
        have mem : ret ∈ m1.chain call.unit := by simp [added.chain]
        have walked2 := walked1.again call valid1 sameOrder ret mem added.typed
        obtain ⟨_, _, placed⟩ := enterJob_spec added.wf valid1 mem added.typed
          fun _ _ => True
        rw [walkBody_eq E m0 walk asks _ call.ask refused, if_neg new]
        by_cases recurse : call.ignoreRequirements = false
        · have follow : (!call.ignoreRequirements) = true := by simp [recurse]
          rw [if_pos follow, if_pos ⟨rfl, recurse⟩, furtherAsks_eq E call ret]
          obtain ⟨walked3, same⟩ := Walked.loop spec follows call sameOrder ret _ (fun _ h => h) _ _
            walked2 placed
          cases loop : forEach (pullIn add) (enterJob m1 call ret) (pullCalls E call ret) with
          | mk m3 outcome =>
            rw [loop] at walked3 same
            cases outcome with
            | ok => exact ⟨walked3, same⟩
            | error e => exact ⟨walked3, same⟩
        · have alone : ¬ (!call.ignoreRequirements) = true := by simpa using recurse
          rw [if_neg alone, if_neg fun both => recurse both.2]
          exact ⟨walked2, rfl⟩

theorem addWithDepth_follows (wf0 : WellFormed m0) (depth : Nat) :
    Follows E order m0 (addWithDepth E depth) (walkWithDepth E m0 depth) := by
  induction depth with
  | zero =>
    exact addJobAndDependencies_follows E wf0 _ _ (noMemory_spec E)
      fun _ _ _ walked _ _ => ⟨walked, rfl⟩
  | succ depth ih => exact addJobAndDependencies_follows E wf0 _ _ (addWithDepth_spec E depth) ih

end Systemd
