import Mathlib.Data.Fintype.Basic
import Systemd.Basic.OrderedSet
import Systemd.Engine.Manager

set_option autoImplicit false

namespace Systemd

open List Option

namespace UnitDependency

def all : List UnitDependency :=
  [.requires, .requiresOverridable, .requisite, .requisiteOverridable, .wants, .bindTo,
    .requiredBy, .requiredByOverridable, .wantedBy, .boundBy, .conflicts, .conflictedBy,
    .before, .after, .onFailure, .references, .referencedBy]

theorem mem_all (d : UnitDependency) : d ∈ all := by
  cases d <;> decide

instance : Fintype UnitDependency where
  elems := all.toFinset
  complete d := mem_toFinset.mpr (mem_all d)

-- none is _UNIT_DEPENDENCY_INVALID.
def inverse : UnitDependency -> Option UnitDependency
  | .requires => some .requiredBy
  | .requiresOverridable => some .requiredByOverridable
  | .wants => some .wantedBy
  | .requisite => some .requiredBy
  | .requisiteOverridable => some .requiredByOverridable
  | .bindTo => some .boundBy
  | .requiredBy => none
  | .requiredByOverridable => none
  | .wantedBy => none
  | .boundBy => some .bindTo
  | .conflicts => some .conflictedBy
  | .conflictedBy => some .conflicts
  | .before => some .after
  | .after => some .before
  | .onFailure => none
  | .references => some .referencedBy
  | .referencedBy => some .references

end UnitDependency

/-- The dependency sets of all units; none is a set that was never allocated. -/
abbrev Links (U : Type) := U -> UnitDependency -> Option (OrderedSet U)

inductive AddAllocation where
  | ownSet
  | inverseSet
  | referencesSet
  | referencedBySet
  | ownEntry
  | inverseEntry
  | referencesEntry
  | referencedByEntry
  deriving DecidableEq

namespace Links

variable {U : Type}

def Linked (links : Links U) (d : UnitDependency) (x y : U) : Prop :=
  ∃ set, links x d = some set ∧ y ∈ set

variable {d : UnitDependency} {links : Links U} {x u other : U} {body : Links U -> U -> Option (Links U)}
  {set : Links U -> Option (OrderedSet U)}

theorem linked_some {y : U} {set : OrderedSet U} (here : links x d = some set) :
    links.Linked d x y ↔ y ∈ set := by
  simp [Linked, here]

theorem linked_none {y : U} (here : links x d = none) : ¬ links.Linked d x y := by
  simp [Linked, here]

variable [DecidableEq U]

instance (links : Links U) (d : UnitDependency) (x y : U) : Decidable (links.Linked d x y) :=
  match here : links x d with
  | none => isFalse (linked_none here)
  | some set => decidable_of_iff (y ∈ set) (linked_some here).symm

def assign (links : Links U) (u : U) (d : UnitDependency) (set : Option (OrderedSet U)) : Links U :=
  fun v k => if v = u ∧ k = d then set else links v k

-- The error carries the sets as they are left behind when memory runs out.
def setEnsureAllocated (allocates : Bool) (links : Links U) (u : U) (d : UnitDependency) :
    Except (Links U) (Links U) :=
  match links u d with
  | some _ => .ok links
  | none => if allocates then .ok (links.assign u d (some .empty)) else .error links

def ensureInverse (allocates : Bool) (links : Links U) (d : UnitDependency) (other : U) :
    Except (Links U) (Links U) :=
  match d.inverse with
  | some e => setEnsureAllocated allocates links other e
  | none => .ok links

def ensureReferences (allocates : AddAllocation -> Bool) (links : Links U) (u other : U)
    (addReference : Bool) : Except (Links U) (Links U) :=
  if addReference then do
    let links ← setEnsureAllocated (allocates .referencesSet) links u .references
    setEnsureAllocated (allocates .referencedBySet) links other .referencedBy
  else
    .ok links

def prepareSets (allocates : AddAllocation -> Bool) (links : Links U) (u : U) (d : UnitDependency)
    (other : U) (addReference : Bool) : Except (Links U) (Links U) := do
  let links ← setEnsureAllocated (allocates .ownSet) links u d
  let links ← ensureInverse (allocates .inverseSet) links d other
  ensureReferences allocates links u other addReference

-- The flag tells whether the entry is new; none is -ENOMEM.
def putLink (allocates : Bool) (links : Links U) (u : U) (d : UnitDependency) (other : U) :
    Option (Links U × Bool) :=
  match links u d with
  | none => none
  | some set =>
    if other ∈ set then
      some (links, false)
    else if allocates then
      some (links.assign u d (some (set.put other)), true)
    else
      none

def putInverse (allocates : Bool) (links : Links U) (u : U) (d : UnitDependency) (other : U) :
    Option (Links U × Bool) :=
  match d.inverse with
  | some e => putLink allocates links other e u
  | none => some (links, false)

def removeLink (links : Links U) (u : U) (d : UnitDependency) (other : U) : Links U :=
  links.assign u d ((links u d).map (·.remove other))

def undoLink (new : Bool) (links : Links U) (u : U) (d : UnitDependency) (other : U) : Links U :=
  if new then removeLink links u d other else links

def undoInverse (new : Bool) (links : Links U) (u : U) (d : UnitDependency) (other : U) : Links U :=
  match d.inverse with
  | some e => undoLink new links other e u
  | none => links

def putAll (allocates : AddAllocation -> Bool) (links : Links U) (u : U) (d : UnitDependency)
    (other : U) (addReference : Bool) : Except (Links U) (Links U) :=
  match putLink (allocates .ownEntry) links u d other with
  | none => .error links
  | some (links, q) =>
    match putInverse (allocates .inverseEntry) links u d other with
    | none => .error (undoLink q links u d other)
    | some (links, v) =>
      if addReference then
        match putLink (allocates .referencesEntry) links u .references other with
        | none => .error (undoInverse v (undoLink q links u d other) u d other)
        | some (links, w) =>
          match putLink (allocates .referencedByEntry) links other .referencedBy u with
          | none =>
            .error (undoLink w (undoInverse v (undoLink q links u d other) u d other)
              u .references other)
          | some (links, _) => .ok links
      else
        .ok links

def addDependency (allocates : AddAllocation -> Bool) (links : Links U) (u : U) (d : UnitDependency)
    (other : U) (addReference : Bool) : Except (Links U) (Links U) := do
  let links ← prepareSets allocates links u d other addReference
  putAll allocates links u d other addReference

-- A loop over a set whose body may change the set: the iterator moves to the next entry before
-- the body runs. none is a loop that takes more turns than the fuel, or a failure of the body.
def foreachMember (set : Links U -> Option (OrderedSet U)) (body : Links U -> U -> Option (Links U)) :
    Nat -> Option U -> Links U -> Option (Links U)
  | _, none, links => some links
  | 0, some _, _ => none
  | fuel + 1, some v, links =>
    let next := (set links).bind (·.following v)
    (body links v).bind (foreachMember set body fuel next)

def setForeach (fuel : Nat) (set : Links U -> Option (OrderedSet U))
    (body : Links U -> U -> Option (Links U)) (links : Links U) : Option (Links U) :=
  foreachMember set body fuel ((set links).bind (·.members.head?)) links

-- set_remove_and_put, and set_remove where the new entry is already there.
def replaceEntry (other u : U) (set : OrderedSet U) : OrderedSet U :=
  match set.removeAndPut other u with
  | .ok set => set
  | .error .eexist => set.remove other
  | .error .enoent => set

-- The loop over all kinds k touches each set of back once.
def redirect (u other : U) (links : Links U) (back : U) : Links U :=
  fun v k => if v = back then (links v k).map (replaceEntry other u) else links v k

-- What is left of the set of the other unit is freed.
def moveLinks (links : Links U) (u other : U) (d : UnitDependency) : Links U :=
  fun v k =>
    if k = d then
      if v = other then none
      else if v = u then OrderedSet.completeMove (links u d) (links other d)
      else links v d
    else
      links v k

-- A freed unit must not be looked at any more.
def mergeDependencies (alive : U -> Bool) (fuel : Nat) (u other : U) (links : Links U)
    (d : UnitDependency) : Option (Links U) := do
  let links ← setForeach fuel (fun links => links other d)
    (fun links back => if alive back then some (redirect u other links back) else none) links
  some (moveLinks links u other d)

def mergeAllDependencies (alive : U -> Bool) (fuel : Nat) (u other : U) (links : Links U) :
    Option (Links U) :=
  UnitDependency.all.foldlM (mergeDependencies alive fuel u other) links

def earlier (d : UnitDependency) : List UnitDependency :=
  UnitDependency.all.takeWhile (· ≠ d)

def dropBack (u : U) (links : Links U) (other : U) : Links U :=
  fun v k => if v = other then (links v k).map (·.remove u) else links v k

-- unit_free does not clear the pointers to the sets it has freed, so that a unit which is its own
-- neighbour has set_remove run on them.
def bidiSetFree (alive : U -> Bool) (fuel : Nat) (u : U) (links : Links U) (d : UnitDependency) :
    Option (Links U) :=
  setForeach fuel (fun links => links u d)
    (fun links other =>
      if alive other = false then
        none
      else if other = u ∧ ∃ k ∈ earlier d, links u k ≠ none then
        none
      else
        some (dropBack u links other)) links

def freeAllDependencies (alive : U -> Bool) (fuel : Nat) (u : U) (links : Links U) :
    Option (Links U) := do
  let links ← UnitDependency.all.foldlM (bidiSetFree alive fuel u) links
  some fun v k => if v = u then none else links v k

theorem linked_assign_same (links : Links U) (u : U) (d : UnitDependency) (set : OrderedSet U) (y : U) :
    (links.assign u d (some set)).Linked d u y ↔ y ∈ set := by
  simp [Linked, assign]

theorem linked_assign_other {v : U} {k : UnitDependency} {set : Option (OrderedSet U)}
    (elsewhere : ¬ (v = u ∧ k = d)) (y : U) :
    (links.assign u d set).Linked k v y ↔ links.Linked k v y := by
  simp [Linked, assign, elsewhere]

theorem mem_replaceEntry (distinct : u ≠ other) (set : OrderedSet U) (y : U) :
    y ∈ replaceEntry other u set ↔ (y ∈ set ∧ y ≠ other) ∨ (y = u ∧ other ∈ set) := by
  unfold replaceEntry OrderedSet.removeAndPut
  by_cases missing : other ∈ set
  · by_cases present : u ∈ set
    · simp only [missing, not_true_eq_false, if_false, present, if_true, OrderedSet.mem_remove,
        and_true]
      constructor
      · exact .inl
      · rintro (kept | rfl)
        · exact kept
        · exact ⟨present, distinct⟩
    · simp [missing, present]
  · simp only [missing, not_false_eq_true, if_true, and_false, or_false]
    constructor
    · intro mem
      exact ⟨mem, fun same => missing (same ▸ mem)⟩
    · exact And.left

theorem linked_redirect_same (distinct : u ≠ other) (links : Links U) (k : UnitDependency)
    (back y : U) :
    (redirect u other links back).Linked k back y ↔
      (links.Linked k back y ∧ y ≠ other) ∨ (y = u ∧ links.Linked k back other) := by
  cases here : links back k with
  | none => simp [Linked, redirect, here]
  | some set => simp [Linked, redirect, here, mem_replaceEntry distinct]

omit [DecidableEq U] in
theorem linked_congr {links' : Links U} (same : links' x d = links x d) (y : U) :
    links'.Linked d x y ↔ links.Linked d x y := by
  simp [Linked, same]

theorem redirect_elsewhere {back v : U} (elsewhere : v ≠ back) (links : Links U) (k : UnitDependency) :
    redirect u other links back v k = links v k := by
  simp [redirect, elsewhere]

theorem linked_moveLinks (distinct : u ≠ other) (links : Links U) (d k : UnitDependency) (v y : U) :
    (moveLinks links u other d).Linked k v y ↔
      if k = d then v ≠ other ∧ (links.Linked d v y ∨ (v = u ∧ links.Linked d other y))
      else links.Linked k v y := by
  by_cases kind : k = d
  · subst kind
    by_cases gone : v = other
    · simp [moveLinks, Linked, gone]
    · by_cases ours : v = u
      · subst ours
        cases theirs : links other k with
        | none => simp [moveLinks, OrderedSet.completeMove, theirs, Linked, distinct]
        | some moved =>
          cases own : links v k with
          | none => simp [moveLinks, OrderedSet.completeMove, theirs, own, Linked, distinct]
          | some set => simp [moveLinks, OrderedSet.completeMove, theirs, own, Linked, distinct]
      · simp [moveLinks, Linked, gone, ours]
  · simp [moveLinks, Linked, kind]

/-- One turn of a loop over a set: the members behind the current one are still to come, possibly
followed by new ones. -/
def KeepsRest (set : Links U -> Option (OrderedSet U)) (links links' : Links U) (v : U) : Prop :=
  ∀ current, set links = some current -> ∀ front rest, current.members = front ++ v :: rest ->
    ∃ current' front' extra, set links' = some current' ∧
      current'.members = front' ++ rest ++ extra

variable {Inv : Links U -> Prop}

theorem foreachMember_spec {Seen : Links U -> U -> Prop} (step : ∀ links current v links', Inv links ->
      set links = some current -> v ∈ current -> body links v = some links' -> Inv links' ∧ Seen links'
      v ∧ (∀ w, Seen links w -> Seen links' w) ∧ KeepsRest set links links' v) (fuel : Nat)
    (cursor : Option U) (links result : Links U) (inv : Inv links) (must : List U) (place : (cursor =
      none ∧ must = []) ∨ ∃ current front rest, set links = some current ∧ current.members = front ++
      rest ∧ cursor = rest.head? ∧ must <+: rest)
    (run : foreachMember set body fuel cursor links = some result) :
    Inv result ∧ (∀ w ∈ must, Seen result w) ∧ ∀ w, Seen links w -> Seen result w := by
  induction fuel generalizing cursor links must with
  | zero =>
    cases cursor with
    | none =>
      simp only [foreachMember, some.injEq] at run
      subst run
      refine ⟨inv, ?_, fun _ seen => seen⟩
      rcases place with ⟨-, rfl⟩ | ⟨-, -, rest, -, -, top, shape⟩
      · simp
      · have empty : rest = [] := head?_eq_none_iff.mp top.symm
        simp [empty] at shape
        simp [shape]
    | some v => simp [foreachMember] at run
  | succ fuel ih =>
    cases cursor with
    | none =>
      simp only [foreachMember, some.injEq] at run
      subst run
      refine ⟨inv, ?_, fun _ seen => seen⟩
      rcases place with ⟨-, rfl⟩ | ⟨-, -, rest, -, -, top, shape⟩
      · simp
      · have empty : rest = [] := head?_eq_none_iff.mp top.symm
        simp [empty] at shape
        simp [shape]
    | some v =>
      rcases place with ⟨impossible, -⟩ | ⟨current, front, rest, here, split, top, shape⟩
      · cases impossible
      obtain ⟨rest, rfl⟩ : ∃ tail, rest = v :: tail := by
        cases rest with
        | nil => simp at top
        | cons w tail =>
          simp only [head?_cons, some.injEq] at top
          exact ⟨tail, by rw [top]⟩
      have mem : v ∈ current := by
        rw [OrderedSet.mem_def, split]
        simp
      simp only [foreachMember, here, bind_some,
        OrderedSet.following_split split] at run
      cases turn : body links v with
      | none => simp [turn] at run
      | some links' =>
        rw [turn, bind_some] at run
        obtain ⟨inv', seen, keeps, remains⟩ := step links current v links' inv here mem turn
        obtain ⟨current', front', extra, here', split'⟩ := remains current here front rest split
        obtain ⟨must', rfl | rfl, shape'⟩ : ∃ must', (must = [] ∨ must = v :: must') ∧
            must' <+: rest := by
          cases must with
          | nil => exact ⟨[], .inl rfl, nil_prefix⟩
          | cons w tail =>
            rw [cons_prefix_cons] at shape
            exact ⟨tail, .inr (by rw [shape.1]), shape.2⟩
        all_goals
          have place' : (rest.head? = none ∧ must' = []) ∨
              ∃ current front tail, set links' = some current ∧
                current.members = front ++ tail ∧ rest.head? = tail.head? ∧ must' <+: tail := by
            cases rest with
            | nil => exact .inl ⟨rfl, prefix_nil.mp shape'⟩
            | cons w tail =>
              refine .inr ⟨current', front', w :: tail ++ extra, here', ?_, rfl, ?_⟩
              · rw [split', append_assoc]
              · exact shape'.trans (prefix_append _ _)
          obtain ⟨final, all, kept⟩ := ih (rest.head?) links' inv' must' place' run
          refine ⟨final, ?_, fun w before => kept w (keeps w before)⟩
        · simp
        · intro w listed
          rcases mem_cons.mp listed with rfl | later
          · exact kept w seen
          · exact all w later

theorem setForeach_spec (Seen : Links U -> U -> Prop) (step : ∀ links current v links', Inv links -> set
      links = some current -> v ∈ current -> body links v = some links' -> Inv links' ∧ Seen links' v ∧
      (∀ w, Seen links w -> Seen links' w) ∧ KeepsRest set links links' v) {fuel : Nat}
    {result : Links U} (inv : Inv links) (run : setForeach fuel set body links = some result) :
    Inv result ∧ (∀ current, set links = some current -> ∀ w ∈ current, Seen result w) ∧
      ∀ w, Seen links w -> Seen result w := by
  cases here : set links with
  | none =>
    rw [setForeach, here] at run
    have outcome := foreachMember_spec step fuel none links result inv [] (.inl ⟨rfl, rfl⟩) run
    exact ⟨outcome.1, by simp, outcome.2.2⟩
  | some current =>
    rw [setForeach, here] at run
    obtain ⟨final, all, kept⟩ := foreachMember_spec step fuel _ links result inv current.members
      (.inr ⟨current, [], current.members, here, rfl, rfl, prefix_rfl⟩) run
    refine ⟨final, ?_, kept⟩
    intro other same w mem
    cases same
    exact all w mem

end Links

end Systemd
