import Systemd.Engine.Apply

set_option autoImplicit false

namespace Systemd

open Loop List

variable {U : Type}

def jobKey (j : JobId) : Nat := j % 2 ^ 32

def Bound (m : Manager U) (key : Nat) (j : JobId) : Prop :=
  j ∈ m.jobs ∧ jobKey j = key

def SameBindings (m m' : Manager U) : Prop :=
  ∀ key j, Bound m' key j ↔ Bound m key j

variable (allocates : JobId -> Bool) (m : Manager U)

theorem sameBindings_iff (m' : Manager U) : SameBindings m m' ↔ ∀ k, k ∈ m'.jobs ↔ k ∈ m.jobs := by
  constructor
  · intro same k
    simpa [Bound] using same (jobKey k) k
  · intro same key k
    rw [Bound, Bound, same k]

-- hashmap_put on m->jobs; `allocates` says whether there is memory for the entry of a job.
def hashmapPutJob (allocates : JobId -> Bool) (m : Manager U) (j : JobId) : Manager U × Except Errno Unit :=
  match m.jobs.find? fun k => jobKey k = jobKey j with
  | some k => if k = j then (m, .ok ()) else (m, .error .eexist)
  | none =>
    if allocates j then ({ m with jobs := m.jobs ++ [j] }, .ok ()) else (m, .error .enomem)

def hashmapRemoveJob (m : Manager U) (j : JobId) : Manager U :=
  { m with jobs := m.jobs.filter fun k => jobKey k ≠ jobKey j }

-- The jobs of transaction_jobs that are not installed already.
def uninstalledJobs (m : Manager U) : List JobId :=
  m.transactionHeads.filter fun j => !(m.job j).installed

def insertJobs (allocates : JobId -> Bool) (m : Manager U) : Manager U × Except Errno Unit :=
  forEach (hashmapPutJob allocates) m (uninstalledJobs m)

def rollbackJobs (m : Manager U) : Manager U :=
  (uninstalledJobs m).foldl hashmapRemoveJob m

-- What transaction_apply goes on with once the insertions are over, or at `rollback`.
def afterInsertions [DecidableEq U] (m : Manager U) : Except Errno Unit -> Manager U
  | .ok () => transactionCleanDependencies (m.transactionUnits.foldl installJob m)
  | .error _ => rollbackJobs m

-- transaction_apply with a table that refuses insertions: under an id that is taken, or for want of
-- memory.
def transactionApplyTable [DecidableEq U] (finish : FinishFunction U) (fuel : Nat)
    (allocates : JobId -> Bool) (w : World U) (mode : JobMode) :
    Except Fault (World U × Except Errno Unit) := do
  let w ← if mode = .isolate then cancelOthers finish fuel w w.manager.jobs.head? else .ok w
  let (m, result) := insertJobs allocates w.manager
  .ok (w.set (afterInsertions m result), result)

theorem transactionApplyTable_cases [DecidableEq U] (finish : FinishFunction U) (fuel : Nat)
    (allocates : JobId -> Bool) (w w' : World U) (mode : JobMode) (result : Except Errno Unit)
    (applied : transactionApplyTable finish fuel allocates w mode = .ok (w', result)) :
    ∃ w1,
      (mode = .isolate ∧ cancelOthers finish fuel w w.manager.jobs.head? = .ok w1 ∨
        mode ≠ .isolate ∧ w1 = w) ∧
      ∃ m, insertJobs allocates w1.manager = (m, result) ∧ w' = w1.set (afterInsertions m result) := by
  have rest (w1 : World U) (ran : (let (m, result) := insertJobs allocates w1.manager
        Except.ok (w1.set (afterInsertions m result), result)) = Except.ok (ε := Fault) (w', result)) :
      ∃ m, insertJobs allocates w1.manager = (m, result) ∧ w' = w1.set (afterInsertions m result) := by
    cases inserted : insertJobs allocates w1.manager with
    | mk m outcome =>
      rw [inserted] at ran
      obtain ⟨rfl, rfl⟩ := Prod.mk.inj (Except.ok.inj ran)
      exact ⟨m, rfl, rfl⟩
  unfold transactionApplyTable at applied
  split at applied
  · rename_i isolate
    obtain ⟨w1, cancelled, ran⟩ := bind_ok applied
    exact ⟨w1, .inl ⟨isolate, cancelled⟩, rest w1 ran⟩
  · rename_i keeping
    exact ⟨w, .inr ⟨keeping, rfl⟩, rest w applied⟩

theorem hashmapPutJob_state (j : JobId) :
    (hashmapPutJob allocates m j).1 = m ∨
      (hashmapPutJob allocates m j).1 = { m with jobs := m.jobs ++ [j] } := by
  unfold hashmapPutJob
  split
  · split
    · exact .inl rfl
    · exact .inl rfl
  · split
    · exact .inr rfl
    · exact .inl rfl

theorem insertions_state (items : List JobId) :
    ∃ new, new ⊆ items ∧ (forEach (hashmapPutJob allocates) m items).1 = { m with jobs := m.jobs ++ new } := by
  induction items generalizing m with
  | nil => exact ⟨[], by simp, by simp [forEach]⟩
  | cons j rest ih =>
    have state := hashmapPutJob_state allocates m j
    rw [forEach]
    cases put : hashmapPutJob allocates m j with
    | mk m1 outcome =>
      rw [put] at state
      have here : ∃ new, new ⊆ [j] ∧ m1 = { m with jobs := m.jobs ++ new } := by
        rcases state with rfl | rfl
        · exact ⟨[], by simp, by simp⟩
        · exact ⟨[j], by simp, rfl⟩
      obtain ⟨new, inHere, rfl⟩ := here
      cases outcome with
      | error e => exact ⟨new, fun k mem => by simp [mem_singleton.mp (inHere mem)], rfl⟩
      | ok =>
        obtain ⟨later, inRest, same⟩ := ih { m with jobs := m.jobs ++ new }
        refine ⟨new ++ later, ?_, by simp [same]⟩
        intro k mem
        rcases mem_append.mp mem with first | second
        · simp [mem_singleton.mp (inHere first)]
        · exact mem_cons_of_mem j (inRest second)

theorem removals_state (items : List JobId) :
    items.foldl hashmapRemoveJob m =
      { m with jobs := m.jobs.filter fun k => ∀ j ∈ items, jobKey k ≠ jobKey j } := by
  induction items generalizing m with
  | nil => simp
  | cons j rest ih =>
    rw [foldl_cons, ih, hashmapRemoveJob]
    simp only [filter_filter, forall_mem_cons, Bool.decide_and, Bool.and_comm]

theorem rollbackJobs_jobs (m' : Manager U) (e : Errno)
    (failed : insertJobs allocates m = (m', .error e)) (k : JobId) :
    k ∈ (rollbackJobs m').jobs ↔ k ∈ m.jobs ∧ ∀ j ∈ uninstalledJobs m, jobKey k ≠ jobKey j := by
  obtain ⟨new, inItems, same⟩ := insertions_state allocates m (uninstalledJobs m)
  rw [insertJobs] at failed
  rw [failed] at same
  obtain rfl : m' = { m with jobs := m.jobs ++ new } := same
  have items : uninstalledJobs { m with jobs := m.jobs ++ new } = uninstalledJobs m := rfl
  rw [rollbackJobs, removals_state, items]
  simp only [mem_filter, mem_append, decide_eq_true_eq]
  constructor
  · rintro ⟨old | inNew, free⟩
    · exact ⟨old, free⟩
    · exact absurd rfl (free k (inItems inNew))
  · rintro ⟨old, free⟩
    exact ⟨.inl old, free⟩

theorem insertJobs_putNewJobs (fresh : ∀ j ∈ uninstalledJobs m, j ∉ m.jobs)
    (nodup : (uninstalledJobs m).Nodup) (unwrapped : ∀ j k, j ∈ uninstalledJobs m -> k ∈ m.jobs ∨ k ∈
      uninstalledJobs m -> jobKey k = jobKey j -> k = j) :
    insertJobs (fun _ => true) m = (putNewJobs m, .ok ()) := by
  have all : ∀ (items : List JobId) (m : Manager U), (∀ j ∈ items, j ∉ m.jobs) -> items.Nodup ->
      (∀ j k, j ∈ items -> k ∈ m.jobs ∨ k ∈ items -> jobKey k = jobKey j -> k = j) ->
      forEach (hashmapPutJob fun _ => true) m items = ({ m with jobs := m.jobs ++ items }, .ok ()) := by
    intro items
    induction items with
    | nil => simp [forEach]
    | cons j rest ih =>
      intro m fresh nodup unwrapped
      have free : m.jobs.find? (fun k => decide (jobKey k = jobKey j)) = none := by
        refine find?_eq_none.mpr fun k mem same => ?_
        have equal := unwrapped j k (by simp) (.inl mem) (by simpa using same)
        exact fresh j (by simp) (equal ▸ mem)
      obtain ⟨notLater, nodupRest⟩ := nodup_cons.mp nodup
      rw [forEach, hashmapPutJob, free]
      simp only [if_true]
      rw [ih _ ?_ nodupRest ?_]
      · simp
      · intro k mem inJobs
        rcases mem_append.mp inJobs with old | here
        · exact fresh k (mem_cons_of_mem j mem) old
        · exact notLater (mem_singleton.mp here ▸ mem)
      · intro k l mem known same
        refine unwrapped k l (mem_cons_of_mem j mem) ?_ same
        rcases known with inJobs | later
        · rcases mem_append.mp inJobs with old | here
          · exact .inl old
          · exact .inr (by simp [mem_singleton.mp here])
        · exact .inr (mem_cons_of_mem j later)
  exact all (uninstalledJobs m) m fresh nodup unwrapped

end Systemd
