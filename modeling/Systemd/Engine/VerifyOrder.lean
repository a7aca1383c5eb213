import Systemd.Engine.Passes
import Systemd.Shared.Search

set_option autoImplicit false

namespace Systemd

open Loop Cycles Search Relation List Function

variable {U : Type}

def unitMattersToAnchor (m : Manager U) (u : U) : Bool :=
  (m.chain u).any fun j => (m.job j).mattersToAnchor

-- The job that stands for a unit in the ordering graph: the prospective one, else the installed one.
def orderJob (m : Manager U) (u : U) : Option JobId :=
  match m.transactionGet u with
  | some j => some j
  | none => m.metaJob u

def walkBack (m : Manager U) (generation : Nat) (target : JobId) : Nat -> Option JobId -> List JobId
  | 0, _ | _, none => []
  | fuel + 1, some k =>
    if k = target then [k]
    else k :: walkBack m generation target fuel
      (if (m.job k).generation = generation ∧ (m.job k).marker ≠ some k then (m.job k).marker
        else none)

def jobCount (m : Manager U) : Nat :=
  m.jobs.length + m.transactionList.length

section

variable [DecidableEq U]

def breakCycle (m : Manager U) (generation : Nat) (j : JobId) (origin : Option JobId) :
    Manager U × Status U :=
  match (walkBack m generation j (jobCount m) origin).find? fun k =>
      !(m.job k).installed && !unitMattersToAnchor m (m.job k).unit with
  | some k => (transactionDeleteUnit m (m.job k).unit, .error .again)
  | none => (m, .error .orderIsCyclic)

def transactionVerifyOrderOne (E : Units U) (generation : Nat) :
    Nat -> Manager U -> JobId -> Option JobId -> Manager U × Status U
  | fuel, m, j, origin =>
    if (m.job j).generation = generation then
      if (m.job j).marker = none then (m, .ok ()) else breakCycle m generation j origin
    else
      match fuel with
      | 0 => (m, .ok ())
      | fuel + 1 =>
        let m := m.setJob j fun job =>
          { job with marker := some (origin.getD j), generation := generation }
        match forEach (fun m u =>
            match orderJob m u with
            | some o => transactionVerifyOrderOne E generation fuel m o (some j)
            | none => (m, .ok ())) m (E.dependencies .before (m.job j).unit) with
        | (m, .ok ()) => (m.setJob j fun job => { job with marker := none }, .ok ())
        | (m, .error e) => (m, .error e)

def transactionVerifyOrder (E : Units U) (m : Manager U) (generation : Nat) :
    Manager U × Status U :=
  forEach (fun m j => transactionVerifyOrderOne E generation (jobCount m) m j none)
    m m.transactionHeads

end

def OrderedBefore (E : Units U) (a b : U) : Prop := b ∈ E.dependencies .before a

def HasJob (m : Manager U) (u : U) : Prop := ∃ j, orderJob m u = some j

def Unbreakable (m : Manager U) (u : U) : Prop :=
  ∃ j, orderJob m u = some j ∧ ((m.job j).installed = true ∨ unitMattersToAnchor m u = true)

def orderNext (E : Units U) (m : Manager U) (j : JobId) : List JobId :=
  (E.dependencies .before (m.job j).unit).filterMap (orderJob m)

def marksOf (m : Manager U) (j : JobId) : Mark JobId :=
  ⟨(m.job j).generation, (m.job j).marker⟩

def withMarks (m : Manager U) (marks : JobId -> Mark JobId) : Manager U :=
  { m with
    job := fun j =>
      { m.job j with generation := (marks j).generation, marker := (marks j).marker } }

variable (E : Units U) (m : Manager U)

theorem withMarks_marksOf : withMarks m (marksOf m) = m := rfl

theorem withMarks_set (marks : JobId -> Mark JobId) (j : JobId) (mark : Mark JobId) :
    (withMarks m marks).setJob j (fun job =>
      { job with generation := mark.generation, marker := mark.marker }) =
      withMarks m (update marks j mark) := by
  simp only [withMarks, Manager.setJob, Manager.mk.injEq, and_true]
  funext k
  by_cases same : k = j
  · simp [same]
  · simp [update_of_ne same]

theorem walkBack_eq (marks : JobId -> Mark JobId) (generation : Nat) (target : JobId) (fuel : Nat)
    (origin : Option JobId) :
    walkBack (withMarks m marks) generation target fuel origin =
      walk marks generation target fuel origin := by
  induction fuel generalizing origin with
  | zero => cases origin <;> rfl
  | succ fuel ih =>
    cases origin with
    | none => rfl
    | some k =>
      rw [walkBack, walk, ih]
      rfl

def orderNodes (m : Manager U) : List JobId := m.jobs ++ m.transactionList

theorem orderNodes_length : (orderNodes m).length = jobCount m :=
  length_append

variable {m : Manager U} {j : JobId}

section

variable (wf : WellFormed m)
include wf

theorem orderJob_mem {u : U} (found : orderJob m u = some j) :
    j ∈ orderNodes m ∧ (m.job j).unit = u := by
  unfold orderJob at found
  cases head : m.transactionGet u with
  | some k =>
    obtain rfl : k = j := by simpa [head] using found
    have inChain := WellFormed.transactionGet_mem head
    exact ⟨mem_append_right _ ((wf.inTransaction_iff k).mp ⟨u, inChain⟩),
      wf.chainUnit u k inChain⟩
  | none =>
    obtain ⟨inJobs, unit⟩ := wf.metaJobs u j (by simpa [head] using found)
    exact ⟨mem_append_left _ inJobs, unit⟩

theorem mem_orderNext {E : Units U} {k : JobId} (mem : k ∈ orderNext E m j) :
    OrderedBefore E (m.job j).unit (m.job k).unit ∧ orderJob m (m.job k).unit = some k := by
  obtain ⟨u, before, found⟩ := mem_filterMap.mp mem
  obtain ⟨_, unit⟩ := orderJob_mem wf found
  exact ⟨unit ▸ before, unit ▸ found⟩

theorem orderNodes_closed : ∀ j ∈ orderNodes m, ∀ k ∈ orderNext E m j, k ∈ orderNodes m :=
  fun _ _ _ mem => (orderJob_mem wf (mem_orderNext wf mem).2).1

theorem transactionHeads_mem (mem : j ∈ m.transactionHeads) : j ∈ orderNodes m := by
  have head := (wf.mem_heads j).mp mem
  exact mem_append_right _ ((wf.inTransaction_iff j).mp ⟨_, WellFormed.transactionGet_mem head⟩)

end

def orderSearch (E : Units U) (m : Manager U) (generation : Nat) :
    (JobId -> Mark JobId) × Except (JobId × Option JobId) Unit :=
  forEach (fun marks j => search (orderNext E m) generation (jobCount m) marks j none) (marksOf m)
    m.transactionHeads

theorem orderSearch_touched (m : Manager U) (generation : Nat) :
    Touched generation (marksOf m) (orderSearch E m generation).1 :=
  forEach_always _ (Touched generation) (fun _ _ => .inl rfl) (fun _ _ _ => .trans) _
    (fun j _ marks => search_touched _ marks j none) _

theorem orderSearch_clear (wf : WellFormed m) (generation : Nat) (marks : JobId -> Mark JobId)
    (clear : orderSearch E m generation = (marks, .ok ())) (j : JobId) (head : j ∈ m.transactionHeads) :
    Closed generation (marksOf m j) ∨
      Acc (fun b a => b ∈ orderNext E m a ∧ ¬ Closed generation (marksOf m b)) j := by
  let stale : JobId -> Prop := fun k => Closed generation (marksOf m k)
  have bound : unvisited generation (orderNodes m) (marksOf m) ≤ jobCount m :=
    (length_filter_le _ _).trans (orderNodes_length m).le
  have begun : Sound (orderNext E m) stale generation (marksOf m) := fun k closed => .inl closed
  obtain ⟨sound, closed⟩ := searchEach_clear (fun k mem => transactionHeads_mem wf mem) bound
    (fun k mem marks marks' bound clear => search_clear (orderNodes_closed E wf) mem bound clear) clear begun
  exact sound j (closed j head)

theorem orderSearch_met (wf : WellFormed m) (generation : Nat) (marks : JobId -> Mark JobId)
    (target : JobId) (found : Option JobId)
    (settled : ∀ j ∈ orderNodes m, ¬ Opened generation (marksOf m j))
    (failed : orderSearch E m generation = (marks, .error (target, found))) :
    ∃ trail, Met (orderNext E m) generation (orderNodes m) marks target found trail := by
  obtain ⟨middle, j, mem, step, stopped⟩ := searchEach_stops failed
  have empty : Trail (orderNext E m) generation (orderNodes m) (marksOf m) [] :=
    ⟨.nil, by simp, fun k inNodes opened => absurd opened (settled k inNodes), by simp, .nil⟩
  exact search_met (orderNodes_closed E wf) (transactionHeads_mem wf mem) (empty.extend step) (by simp)
    stopped

section

variable [DecidableEq U]

def verifyResult (m : Manager U) (generation : Nat)
    (outcome : (JobId -> Mark JobId) × Except (JobId × Option JobId) Unit) : Manager U × Status U :=
  match outcome with
  | (marks, .ok ()) => (withMarks m marks, .ok ())
  | (marks, .error (j, origin)) => breakCycle (withMarks m marks) generation j origin

theorem breakCycle_error (m : Manager U) (generation : Nat) (j : JobId) (origin : Option JobId) :
    ∃ e, (breakCycle m generation j origin).2 = .error e := by
  unfold breakCycle
  split
  · exact ⟨_, rfl⟩
  · exact ⟨_, rfl⟩

theorem forEach_verifyResult (m : Manager U) (generation : Nat) {A B : Type} (pick : A -> Option B)
    (body : Manager U -> A -> Manager U × Status U)
    (step : (JobId -> Mark JobId) -> B -> (JobId -> Mark JobId) × Except (JobId × Option JobId) Unit) (hit :
      ∀ marks a b, pick a = some b -> body (withMarks m marks) a = verifyResult m generation (step marks
      b)) (miss : ∀ marks a, pick a = none -> body (withMarks m marks) a = (withMarks m marks, .ok ()))
    (items : List A) (marks : JobId -> Mark JobId) :
    forEach body (withMarks m marks) items =
      verifyResult m generation (forEach step marks (items.filterMap pick)) := by
  induction items generalizing marks with
  | nil => rfl
  | cons a rest ih =>
    cases picked : pick a with
    | none =>
      rw [filterMap_cons_none picked, ← ih, forEach]
      simp [miss marks a picked]
    | some b =>
      rw [filterMap_cons_some picked, forEach, forEach, hit marks a b picked]
      cases first : step marks b with
      | mk marks1 outcome =>
        cases outcome with
        | ok => simp only [verifyResult, ih]
        | error e =>
          obtain ⟨reason, failed⟩ := breakCycle_error (withMarks m marks1) generation e.1 e.2
          simp only [verifyResult]
          rw [← Prod.mk.eta (p := breakCycle (withMarks m marks1) generation e.1 e.2), failed]

variable (E : Units U)

theorem transactionVerifyOrderOne_eq (m : Manager U) (generation fuel : Nat)
    (marks : JobId -> Mark JobId) (j : JobId) (origin : Option JobId) :
    transactionVerifyOrderOne E generation fuel (withMarks m marks) j origin =
      verifyResult m generation (search (orderNext E m) generation fuel marks j origin) := by
  induction fuel generalizing marks j origin with
  | zero =>
    rw [transactionVerifyOrderOne, search]
    by_cases visited : (marks j).generation = generation
    · by_cases done : (marks j).marker = none
      · simp [withMarks, visited, done, verifyResult]
      · simp [withMarks, visited, done, verifyResult]
    · simp [withMarks, visited, verifyResult]
  | succ fuel ih =>
    rw [transactionVerifyOrderOne, search]
    by_cases visited : (marks j).generation = generation
    · by_cases done : (marks j).marker = none
      · simp [withMarks, visited, done, verifyResult]
      · simp [withMarks, visited, done, verifyResult]
    · have loop := forEach_verifyResult m generation (orderJob m)
        (fun m u => match orderJob m u with
          | some o => transactionVerifyOrderOne E generation fuel m o (some j)
          | none => (m, .ok ()))
        (fun marks w => search (orderNext E m) generation fuel marks w (some j))
        (fun marks u o found => by
          have same : orderJob (withMarks m marks) u = some o := found
          simp only [same]
          exact ih marks o (some j))
        (fun marks u missing => by
          have same : orderJob (withMarks m marks) u = none := missing
          simp only [same])
        (E.dependencies .before (m.job j).unit)
        (update marks j ⟨generation, some (origin.getD j)⟩)
      have opened := withMarks_set m marks j ⟨generation, some (origin.getD j)⟩
      have unit : ((withMarks m (update marks j ⟨generation, some (origin.getD j)⟩)).job
        j).unit = (m.job j).unit := rfl
      have new : ¬ ((withMarks m marks).job j).generation = generation := visited
      simp only [new, visited, if_false]
      rw [opened, unit, loop]
      have children : orderNext E m j =
        (E.dependencies .before (m.job j).unit).filterMap (orderJob m) := rfl
      rw [children]
      cases forEach (fun marks w => search (orderNext E m) generation fuel marks w (some j))
          (update marks j ⟨generation, some (origin.getD j)⟩)
          ((E.dependencies .before (m.job j).unit).filterMap (orderJob m)) with
      | mk marks2 outcome =>
        cases outcome with
        | ok =>
          simp only [verifyResult]
          rw [← withMarks_set m marks2 j]
          rfl
        | error e =>
          obtain ⟨reason, failed⟩ := breakCycle_error (withMarks m marks2) generation e.1 e.2
          simp only [verifyResult]
          rw [← Prod.mk.eta (p := breakCycle (withMarks m marks2) generation e.1 e.2), failed]

theorem transactionVerifyOrder_eq (m : Manager U) (generation : Nat) :
    transactionVerifyOrder E m generation = verifyResult m generation (orderSearch E m generation) := by
  have loop := forEach_verifyResult m generation some
    (fun m j => transactionVerifyOrderOne E generation (jobCount m) m j none)
    (fun marks j => search (orderNext E m) generation (jobCount m) marks j none)
    (fun marks a b same => by
      obtain rfl := Option.some.inj same
      exact transactionVerifyOrderOne_eq E m generation (jobCount m) marks a none)
    (fun marks a missing => by cases missing) m.transactionHeads (marksOf m)
  rw [withMarks_marksOf, filterMap_some] at loop
  exact loop

variable {m' m : Manager U}

-- A cycle through a unit of the transaction is overlooked only where the search takes one of its
-- jobs for finished from the start.
theorem transactionVerifyOrder_acyclic (wf : WellFormed m) (generation : Nat)
    (verified : transactionVerifyOrder E m generation = (m', .ok ())) (u : U)
    (mem : u ∈ m.transactionUnits) (loop : TransGen (Within (HasJob m) (OrderedBefore E)) u u) :
    ∃ v k, TransGen (Within (HasJob m) (OrderedBefore E)) v v ∧ orderJob m v = some k ∧
      Closed generation (marksOf m k) := by
  by_contra none
  have fresh : ∀ v k, TransGen (Within (HasJob m) (OrderedBefore E)) v v -> orderJob m v = some k ->
      ¬ Closed generation (marksOf m k) := fun v k onLoop found closed =>
    none ⟨v, k, onLoop, found, closed⟩
  obtain ⟨marks, clear⟩ : ∃ marks, orderSearch E m generation = (marks, .ok ()) := by
    rw [transactionVerifyOrder_eq] at verified
    cases outcome : orderSearch E m generation with
    | mk marks result =>
      cases result with
      | ok => exact ⟨marks, rfl⟩
      | error e =>
        rw [outcome] at verified
        obtain ⟨reason, failed⟩ := breakCycle_error (withMarks m marks) generation e.1 e.2
        have status := congrArg Prod.snd verified
        simp only [verifyResult] at status
        rw [failed] at status
        cases status
  obtain ⟨j, head⟩ : ∃ j, m.transactionGet u = some j := by
    obtain ⟨j, rest, chain⟩ := exists_cons_of_ne_nil ((wf.unitsChain u).mp mem)
    exact ⟨j, by simp [Manager.transactionGet, chain]⟩
  have found : orderJob m u = some j := by simp [orderJob, head]
  have unit := (orderJob_mem wf found).2
  have inHeads : j ∈ m.transactionHeads := (wf.mem_heads j).mpr (unit ▸ head)
  have acc := (orderSearch_clear E wf generation marks clear j inHeads).resolve_left
    (fresh u j loop found)
  let step (a b : U) : Prop :=
    Within (fun w => TransGen (Within (HasJob m) (OrderedBefore E)) w w)
      (Within (HasJob m) (OrderedBefore E)) a b
  have accUnit : ∀ j, Acc (fun b a => b ∈ orderNext E m a ∧ ¬ Closed generation (marksOf m b)) j ->
      ∀ u, orderJob m u = some j -> Acc (fun b a => step a b) u := by
    intro j acc
    induction acc with
    | intro j _ ih =>
      intro u found
      refine ⟨_, ?_⟩
      rintro v ⟨_, onLoop, _, ⟨k, foundV⟩, before⟩
      refine ih k ⟨?_, fresh v k onLoop foundV⟩ v foundV
      rw [orderNext, (orderJob_mem wf found).2]
      exact mem_filterMap.mpr ⟨v, before, foundV⟩
  exact not_transGen_of_acc u (accUnit j acc u found) (transGen_onLoop u loop)

inductive VerifyCase (m : Manager U) (generation : Nat) : Manager U × Status U -> Prop where
  | clear (marks : JobId -> Mark JobId) : Touched generation (marksOf m) marks ->
      VerifyCase m generation (withMarks m marks, .ok ())
  | cyclic (marks : JobId -> Mark JobId) : Touched generation (marksOf m) marks ->
      VerifyCase m generation (withMarks m marks, .error .orderIsCyclic)
  | broken (marks : JobId -> Mark JobId) (u : U) : Touched generation (marksOf m) marks ->
      unitMattersToAnchor m u = false ->
      VerifyCase m generation (transactionDeleteUnit (withMarks m marks) u, .error .again)

theorem transactionVerifyOrder_cases (m : Manager U) (generation : Nat) :
    VerifyCase m generation (transactionVerifyOrder E m generation) := by
  have touched := orderSearch_touched E m generation
  rw [transactionVerifyOrder_eq]
  cases outcome : orderSearch E m generation with
  | mk marks result =>
    rw [outcome] at touched
    cases result with
    | ok => exact .clear marks touched
    | error e =>
      simp only [verifyResult, breakCycle]
      split
      · rename_i k picked
        have spared := find?_some picked
        simp only [Bool.and_eq_true, Bool.not_eq_true'] at spared
        exact .broken marks _ touched spared.2
      · exact .cyclic marks touched

theorem transactionVerifyOrder_cycle (wf : WellFormed m) (generation : Nat)
    (settled : ∀ j ∈ orderNodes m, ¬ Opened generation (marksOf m j)) (e : RequestError U)
    (failed : transactionVerifyOrder E m generation = (m', .error e)) :
    (e = .orderIsCyclic ∧ ∃ u, TransGen (Within (Unbreakable m) (OrderedBefore E)) u u) ∨
    (e = .again ∧ ∃ u marks, TransGen (Within (HasJob m) (OrderedBefore E)) u u ∧
      m' = transactionDeleteUnit (withMarks m marks) u) := by
  rw [transactionVerifyOrder_eq] at failed
  cases outcome : orderSearch E m generation with
  | mk marks result =>
    cases result with
    | ok =>
      rw [outcome] at failed
      cases congrArg Prod.snd failed
    | error met =>
      obtain ⟨target, origin⟩ := met
      rw [outcome] at failed
      obtain ⟨trail, met⟩ := orderSearch_met E wf generation marks target origin settled outcome
      let path := walk marks generation target (jobCount m) origin
      have loops := fun k => walk_loop (v := k) met (orderNodes_length m).le
      have onPath : ∀ k ∈ path, orderJob m (m.job k).unit = some k := by
        intro k mem
        obtain ⟨_, _, _, _, edge⟩ := TransGen.tail'_iff.mp (loops k mem)
        exact (mem_orderNext wf edge).2
      have lift : ∀ inside : U -> Prop, (∀ k ∈ path, inside (m.job k).unit) -> ∀ k ∈ path,
          TransGen (Within inside (OrderedBefore E)) (m.job k).unit (m.job k).unit := by
        intro inside all k mem
        refine TransGen.lift (fun k => (m.job k).unit) ?_ k k (loops k mem)
        rintro a b ⟨inA, inB, edge⟩
        exact ⟨all a inA, all b inB, (mem_orderNext wf edge).1⟩
      simp only [verifyResult, breakCycle, walkBack_eq] at failed
      split at failed
      · rename_i k picked
        obtain ⟨rfl, same⟩ := Prod.mk.inj failed
        refine .inr ⟨(Except.error.inj same).symm, (m.job k).unit, marks, ?_, rfl⟩
        exact lift (HasJob m) (fun k mem => ⟨k, onPath k mem⟩) k
          (mem_of_find?_eq_some picked)
      · rename_i missed
        obtain ⟨rfl, same⟩ := Prod.mk.inj failed
        refine .inl ⟨(Except.error.inj same).symm, ?_⟩
        have all : ∀ k ∈ path, Unbreakable m (m.job k).unit := by
          intro k mem
          refine ⟨k, onPath k mem, ?_⟩
          have kept := find?_eq_none.mp missed k mem
          by_cases installed : (m.job k).installed = true
          · exact .inl installed
          · refine .inr ?_
            by_contra spared
            exact kept (by simpa [withMarks, unitMattersToAnchor, installed] using spared)
        have nonempty : target ∈ path := walk_target met (orderNodes_length m).le
        exact ⟨_, lift (Unbreakable m) all target nonempty⟩

end

end Systemd
