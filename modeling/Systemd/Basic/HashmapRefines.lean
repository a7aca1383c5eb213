import Systemd.Basic.HashmapMoves

set_option autoImplicit false

namespace Systemd.Maps

open Association Option Function

section

variable {M K V : Type} [DecidableEq M] [DecidableEq V]

def onMap {R : Type} (A : M -> List (K × V)) (h : M) (answer : R -> Answer V)
    (result : List (K × V) × R) : Option ((M -> List (K × V)) × Answer V) :=
  some (update A h result.1, answer result.2)

-- A NULL handle is either an empty map or an assertion that fails.
def expectedCall (null : V) (same : K -> K -> Bool) (A : M -> List (K × V)) :
    Operation M K V -> Option ((M -> List (K × V)) × Answer V)
  | .put none _ _ => none
  | .put (some h) key value => onMap A h .code (expectedPut same key value (A h))
  | .replace none _ _ => none
  | .replace (some h) key value => onMap A h .code (expectedReplace same key value (A h))
  | .remove none _ => some (A, .value null)
  | .remove (some h) key => onMap A h .value (expectedRemove null same key (A h))
  | .removeValue none _ _ => some (A, .value null)
  | .removeValue (some h) key value =>
    onMap A h .value (expectedRemoveValue null same key value (A h))
  | .removeAndPut none _ _ _ => some (A, .code (.error .enoent))
  | .removeAndPut (some h) oldKey newKey value =>
    onMap A h .code (expectedRemoveAndPut same oldKey newKey value (A h))
  | .removeAndReplace none _ _ _ => some (A, .code (.error .enoent))
  | .removeAndReplace (some h) oldKey newKey value =>
    onMap A h .code (expectedRemoveAndReplace same oldKey newKey value (A h))
  | .move none _ => none
  | .move (some _) none => some (A, .nothing)
  | .move (some h) (some other) =>
    some (update (update A other (present same (A h) (A other))) h
      (A h ++ missing same (A h) (A other)), .nothing)
  | .moveOne _ none _ => some (A, .code (.ok 0))
  | .moveOne none (some _) _ => none
  | .moveOne (some h) (some other) key =>
    some ((expectedMoveOne same h other key A).1, .code (expectedMoveOne same h other key A).2)
  | .merge none _ => none
  | .merge (some _) none => some (A, .code (.ok 0))
  | .merge (some h) (some other) =>
    some (update A h (A h ++ missing same (A h) (A other)), .code (.ok 0))
  | .stealFirst none => some (A, .value null)
  | .stealFirst (some h) => onMap A h .value (expectedStealFirst null (A h))
  | .clear none => some (A, .nothing)
  | .clear (some h) => some (update A h [], .nothing)

-- The map to which a call can add entries.
def growing : Operation M K V -> Option M
  | .put h _ _ => h
  | .replace h _ _ => h
  | .move h _ => h
  | .moveOne h _ _ => h
  | .merge h _ => h
  | _ => none

-- n_entries is an unsigned int, and link_entry asserts that it does not overflow.
def counted (op : Operation M K V) (A : M -> List (K × V)) : Bool :=
  (growing op).all fun h => (A h).length < 2 ^ 32

def expectedCalls (null : V) (same : K -> K -> Bool) (A : M -> List (K × V)) :
    List (Operation M K V) -> Option ((M -> List (K × V)) × List (Answer V))
  | [] => some (A, [])
  | op :: rest => do
    let (A, answer) ← expectedCall null same A op
    if counted op A then
      let (A, ans) ← expectedCalls null same A rest
      some (A, answer :: ans)
    else
      none

def executeAll (null : V) (s : Store M K V) :
    List (Operation M K V) -> Option (Store M K V × List (Answer V))
  | [] => some (s, [])
  | op :: rest => do
    let (s, answer) ← execute null s op
    let (s, ans) ← executeAll null s rest
    some (s, answer :: ans)

variable {compareFunc : K -> K -> Int} {s : Store M K V} {order : M -> List Ptr}
  {A : M -> List (K × V)}

def Matches (compareFunc : K -> K -> Int) (null : V) (s : Store M K V) (A : M -> List (K × V))
    (op : Operation M K V) : Prop :=
  match expectedCall null (sameKey compareFunc) A op with
  | none => execute null s op = none
  | some (A', answer) =>
    if counted op A' then
      ∃ s' order', execute null s op = some (s', answer) ∧ Represents compareFunc s' order' A'
    else
      execute null s op = none

variable {op : Operation M K V} {null : V} {A' : M -> List (K × V)} {reply : Answer V}
  {hashFunc : K -> UInt32}

theorem matches_of_grows {R : Type} (wrap : Store M K V × R -> Store M K V × Answer V) {h : M}
    {answer : R} {result : Option (Store M K V × R)}
    (expected : expectedCall null (sameKey compareFunc) A op = some (A', reply))
    (grows : Represents.Grows compareFunc result A' h answer) (target : growing op = some h)
    (executed : execute null s op = result.map wrap) (wrapped : ∀ s', wrap (s', answer) = (s', reply)) :
    Matches compareFunc null s A op := by
  rw [Matches, expected]
  simp only [counted, target, all_some, decide_eq_true_eq]
  by_cases fits : (A' h).length < 2 ^ 32
  · obtain ⟨s', order', returned, rep⟩ := grows.1 fits
    rw [if_pos fits]
    refine ⟨s', order', ?_, rep⟩
    rw [executed, returned, map_some, wrapped]
  · rw [if_neg fits, executed, grows.2 fits, map_none]

theorem matches_of_returns {R : Type} (wrap : Store M K V × R -> Store M K V × Answer V) {answer : R}
    {result : Option (Store M K V × R)}
    (expected : expectedCall null (sameKey compareFunc) A op = some (A', reply))
    (returns : Represents.Returns compareFunc result A' answer) (target : growing op = none)
    (executed : execute null s op = result.map wrap) (wrapped : ∀ s', wrap (s', answer) = (s', reply)) :
    Matches compareFunc null s A op := by
  obtain ⟨s', order', returned, rep⟩ := returns
  rw [Matches, expected]
  simp only [counted, target, all_none, if_true]
  refine ⟨s', order', ?_, rep⟩
  rw [executed, returned, map_some, wrapped]

section

variable (rep : Represents compareFunc s order A)
include rep

theorem matches_of_same (expected : expectedCall null (sameKey compareFunc) A op = some (A, reply))
    (executed : execute null s op = some (s, reply)) : Matches compareFunc null s A op := by
  have fits : counted op A = true := by
    rw [counted, all_eq_true]
    intro h _
    simpa using rep.length_lt h
  rw [Matches, expected]
  simp only [fits, if_true]
  exact ⟨s, order, executed, rep⟩

theorem Represents.execute_matches (null : V) (op : Operation M K V) :
    Matches compareFunc null s A op := by
  cases op with
  | put h key value =>
    cases h with
    | none => rfl
    | some h => exact matches_of_grows answerCode rfl (rep.hashmapPut h key value) rfl rfl fun _ => rfl
  | replace h key value =>
    cases h with
    | none => rfl
    | some h => exact matches_of_grows answerCode rfl (rep.hashmapReplace h key value) rfl rfl fun _ => rfl
  | remove h key =>
    cases h with
    | none => exact matches_of_same rep rfl rfl
    | some h => exact matches_of_returns answerValue rfl (rep.hashmapRemove null h key) rfl rfl fun _ => rfl
  | removeValue h key value =>
    cases h with
    | none => exact matches_of_same rep rfl rfl
    | some h =>
      exact matches_of_returns answerValue rfl (rep.hashmapRemoveValue null h key value) rfl rfl
        fun _ => rfl
  | removeAndPut h oldKey newKey value =>
    cases h with
    | none => exact matches_of_same rep rfl rfl
    | some h =>
      exact matches_of_returns answerCode rfl (rep.hashmapRemoveAndPut h oldKey newKey value) rfl rfl
        fun _ => rfl
  | removeAndReplace h oldKey newKey value =>
    cases h with
    | none => exact matches_of_same rep rfl rfl
    | some h =>
      exact matches_of_returns answerCode rfl (rep.hashmapRemoveAndReplace h oldKey newKey value) rfl rfl
        fun _ => rfl
  | move h other =>
    cases h with
    | none => rfl
    | some h =>
      cases other with
      | none => exact matches_of_same rep rfl rfl
      | some other =>
        have moved := rep.hashmapMove h other
        refine matches_of_grows (fun result => (result.1, .nothing)) rfl moved rfl ?_
          fun _ => rfl
        rw [map_map]
        rfl
  | moveOne h other key =>
    cases other with
    | none => exact matches_of_same rep (by cases h <;> rfl) (by cases h <;> rfl)
    | some other =>
      cases h with
      | none => rfl
      | some h =>
        exact matches_of_grows answerCode rfl (rep.hashmapMoveOne h other key) rfl rfl fun _ => rfl
  | merge h other =>
    cases h with
    | none => rfl
    | some h =>
      cases other with
      | none => exact matches_of_same rep rfl rfl
      | some other =>
        have merged := rep.hashmapMerge h other
        refine matches_of_grows (fun result => (result.1, .code (.ok 0))) rfl merged rfl ?_
          fun _ => rfl
        rw [map_map]
        rfl
  | stealFirst h =>
    cases h with
    | none => exact matches_of_same rep rfl rfl
    | some h => exact matches_of_returns answerValue rfl (rep.hashmapStealFirst null h) rfl rfl fun _ => rfl
  | clear h =>
    cases h with
    | none => exact matches_of_same rep rfl rfl
    | some h =>
      obtain ⟨s', order', cleared, rep'⟩ := rep.hashmapClear h
      simp only [Matches, expectedCall, counted, growing, all_none, if_true]
      exact ⟨s', order', by rw [execute, cleared, map_some], rep'⟩

theorem Represents.executeAll_matches (null : V) (ops : List (Operation M K V)) :
    match expectedCalls null (sameKey compareFunc) A ops with
    | none => executeAll null s ops = none
    | some (A', ans) =>
      ∃ s' order', executeAll null s ops = some (s', ans) ∧
        Represents compareFunc s' order' A' := by
  induction ops generalizing s order A with
  | nil => exact ⟨s, order, rfl, rep⟩
  | cons op rest ih =>
    have step := rep.execute_matches null op
    rw [Matches] at step
    rw [expectedCalls]
    cases expected : expectedCall null (sameKey compareFunc) A op with
    | none =>
      rw [expected] at step
      simp [executeAll, step]
    | some next =>
      obtain ⟨A', answer⟩ := next
      simp only [expected] at step
      by_cases fits : counted op A' = true
      · rw [if_pos fits] at step
        obtain ⟨s', order', executed, rep'⟩ := step
        have run := ih rep'
        cases rested : expectedCalls null (sameKey compareFunc) A' rest with
        | none =>
          rw [rested] at run
          simp [executeAll, executed, fits, rested, run]
        | some last =>
          rw [rested] at run
          obtain ⟨s'', order'', executed', rep''⟩ := run
          simp only [bind_eq_bind, bind_some, fits, if_true, rested]
          refine ⟨s'', order'', ?_, rep''⟩
          simp [executeAll, executed, executed']
      · rw [if_neg fits] at step
        simp [executeAll, step, fits]

end

def newMaps (hashFunc : K -> UInt32) (compareFunc : K -> K -> Int) : Store M K V :=
  { cell := fun _ => none
    bucketNext := fun _ => none
    bucketPrevious := fun _ => none
    iterateNext := fun _ => none
    iteratePrevious := fun _ => none
    nextEntry := 0
    maps := fun _ =>
      { hashFunc
        compareFunc
        byHash := fun _ => none
        iterateListHead := none
        iterateListTail := none
        nEntries := 0 } }

omit [DecidableEq M] [DecidableEq V] in
theorem newMaps_represents (lawful : Lawful hashFunc compareFunc) :
    Represents compareFunc (newMaps hashFunc compareFunc : Store M K V) (fun _ => [])
      (fun _ => []) where
  valid :=
    { iterate := fun _ => Chains.Chain.nil
      head := fun _ => rfl
      tail := fun _ => rfl
      buckets := fun _ _ => ⟨[], Chains.Chain.nil, rfl, by simp⟩
      cells := by simp
      apart := by simp
      keys := by simp
      count := fun _ => rfl
      fresh := by simp [newMaps]
      lawful := fun _ => lawful }
  compare := fun _ => rfl
  contents := fun _ => rfl

theorem hashmap_refines_association_list (lawful : Lawful hashFunc compareFunc) (null : V)
    (ops : List (Operation M K V)) :
    match expectedCalls null (sameKey compareFunc) (fun _ => []) ops with
    | none => executeAll null (newMaps hashFunc compareFunc) ops = none
    | some (A, ans) =>
      ∃ s order, executeAll null (newMaps hashFunc compareFunc) ops = some (s, ans) ∧
        Valid s order ∧ ∀ h, (order h).map s.cell = (A h).map some ∧
          hashmapSize s h = (A h).length ∧ hashmapIterate s h = some (A h) ∧
          ∀ key, hashmapGet null s h key =
            some (expectedGet null (sameKey compareFunc) key (A h)) := by
  have run := (newMaps_represents (M := M) (V := V) lawful).executeAll_matches null ops
  split
  · next expected =>
      rw [expected] at run
      exact run
  · next A ans expected =>
      rw [expected] at run
      obtain ⟨s, order, executed, rep⟩ := run
      refine ⟨s, order, executed, rep.valid, ?_⟩
      intro h
      exact ⟨rep.contents h, rep.hashmapSize h, rep.hashmapIterate h, rep.hashmapGet null h⟩

end

def differ (a b : Nat) : Int := (a : Int) - b

theorem differ_lawful : Lawful Nat.toUInt32 differ := by
  have same : ∀ a b, differ a b = 0 ↔ a = b := by
    intro a b
    simp only [differ]
    omega
  refine ⟨⟨?_, ?_, ?_⟩, ?_⟩
  · intro a
    exact (same a a).mpr rfl
  · intro a b equal
    exact (same b a).mpr ((same a b).mp equal).symm
  · intro a b c first second
    exact (same a c).mpr (((same a b).mp first).trans ((same b c).mp second))
  · intro a b equal
    rw [(same a b).mp equal]

-- 1 and 128 share a bucket.
def collidingCalls : List (Operation Bool Nat Nat) :=
  [.put (some true) 1 10, .put (some true) 128 11, .put (some true) 5 12, .put (some true) 128 99,
    .replace (some true) 1 20, .removeAndPut (some true) 128 3 13, .put (some false) 5 50,
    .move (some false) (some true)]

theorem colliding_maps_refine :
    ∃ s order, executeAll 0 (newMaps Nat.toUInt32 differ) collidingCalls =
        some (s, [.code (.ok 1), .code (.ok 1), .code (.ok 1), .code (.error .eexist), .code (.ok 0),
          .code (.ok 0), .code (.ok 1), .nothing]) ∧
      Valid s order ∧ hashmapIterate s false = some [(5, 50), (1, 20), (3, 13)] ∧
      hashmapSize s true = 1 ∧ hashmapGet 0 s false 3 = some 13 := by
  obtain ⟨s, order, executed, valid, maps⟩ :=
    hashmap_refines_association_list differ_lawful 0 collidingCalls
  exact ⟨s, order, executed, valid, (maps false).2.2.1, (maps true).2.1, (maps false).2.2.2 3⟩

end Systemd.Maps
