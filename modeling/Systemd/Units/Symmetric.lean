import Systemd.Units.Registry

set_option autoImplicit false

namespace Systemd.Registry

open Links Option

variable {U : Type} [DecidableEq U]

structure Coherent (m : Registry U) : Prop where
  inverse : ∀ d e x y, UnitDependency.inverse d = some e ->
    m.dependencies.Linked d x y -> m.dependencies.Linked e y x
  known : m.dependencies.Mutual
  targets : ∀ d x y, m.dependencies.Linked d x y -> m.alive y = true ∧ m.loadState y ≠ .merged

variable {m m' : Registry U} {d : UnitDependency} {u : U} {fuel : Nat}

omit [DecidableEq U] in
theorem Coherent.sources (coherent : Coherent m) {x y : U} (linked : m.dependencies.Linked d x y) :
    m.alive x = true ∧ m.loadState x ≠ .merged := by
  obtain ⟨k, back⟩ := coherent.known d x y linked
  exact coherent.targets k y x back

omit [DecidableEq U] in
theorem Coherent.empty : Coherent (Registry.empty : Registry U) := by
  constructor
  all_goals
    intros
    simp_all [Registry.empty, Links.Linked, Mutual]

section

variable (coherent : Coherent m)
include coherent

omit [DecidableEq U] in
theorem Coherent.congr (entries : SameEntries m.dependencies m'.dependencies) (kept : ∀ x, m.alive x =
      true ∧ m.loadState x ≠ .merged -> m'.alive x = true ∧ m'.loadState x ≠ .merged) :
    Coherent m' where
  inverse d e x y pair linked := by
    rw [entries] at linked ⊢
    exact coherent.inverse d e x y pair linked
  known d x y linked := by
    rw [entries] at linked
    obtain ⟨k, back⟩ := coherent.known d x y linked
    exact ⟨k, (entries k y x).mpr back⟩
  targets d x y linked := by
    rw [entries] at linked
    exact kept y (coherent.targets d x y linked)

omit [DecidableEq U] in
theorem Coherent.namesOnly (same : NamesOnly m m') : Coherent m' := by
  refine coherent.congr ?_ ?_
  · intro k x y
    rw [same.dependencies]
  · intro x live
    rwa [same.alive, same.loadState]

theorem Coherent.unitNew (run : unitNew m u = some m') : Coherent m' := by
  unfold Registry.unitNew at run
  split_ifs at run with dead
  cases run
  -- A unit that is not alive has no entries, and nobody has one for it.
  have absent : ∀ d y, ¬ m.dependencies.Linked d u y :=
    fun d y linked => dead (coherent.sources linked).1
  refine coherent.congr ?_ ?_
  · intro k x y
    by_cases same : x = u
    · subst same
      simp only [absent, iff_false]
      simp [Links.Linked]
    · exact linked_congr (by simp [same]) y
  · intro x live
    have distinct : x ≠ u := fun same => dead (same ▸ live.1)
    simpa [distinct] using live

theorem Coherent.unitProgress {loadState : UnitLoadState} {hasJob : Bool}
    {activeState : UnitActiveState} (run : unitProgress m u loadState hasJob activeState = some m') :
    Coherent m' := by
  unfold Registry.unitProgress at run
  split_ifs at run with impossible
  cases run
  rw [not_or, not_or] at impossible
  refine coherent.congr (fun k x y => Iff.rfl) ?_
  intro x live
  refine ⟨live.1, ?_⟩
  by_cases same : x = u
  · simpa [same] using impossible.2.2
  · simpa [same] using live.2

end

theorem inverse_back {k e : UnitDependency} (kind : d.inverse = some k) (pair : k.inverse = some e) :
    e = d := by
  cases d <;> cases kind <;> cases pair <;> rfl

theorem Coherent.unitAddDependency {allocates : AddAllocation -> Bool} {other : U} {addReference : Bool}
    {result : Except RegistryErrno Unit} (coherent : Coherent m)
    (referenced : d.inverse = none -> addReference = true)
    (run : unitAddDependency allocates fuel m u d other addReference = some (m', result)) :
    Coherent m' := by
  obtain ⟨source, followed, run⟩ := bind_eq_some_iff.mp run
  obtain ⟨target, followed', run⟩ := bind_eq_some_iff.mp run
  by_cases same : source = target
  · rw [if_pos same] at run
    cases run
    exact coherent
  rw [if_neg same] at run
  cases outcome : m.dependencies.addDependency allocates source d target addReference with
  | error links =>
    rw [outcome] at run
    cases run
    exact coherent.congr (addDependency_error outcome) fun x live => live
  | ok links =>
    rw [outcome] at run
    cases run
    have entries := addDependency_ok outcome
    have aliveSource := unitFollowMerge_spec followed
    have aliveTarget := unitFollowMerge_spec followed'
    constructor
    · intro k e x y pair linked
      rw [entries] at linked ⊢
      rcases linked with old | ⟨rfl, rfl, rfl⟩ | ⟨kind, rfl, rfl⟩ | ⟨reference, ⟨rfl, rfl, rfl⟩ | ⟨rfl, rfl, rfl⟩⟩
      · exact .inl (coherent.inverse k e x y pair old)
      · exact .inr (.inr (.inl ⟨pair, rfl, rfl⟩))
      · -- The entry in the target has an inverse only if that is the entry asked for.
        exact .inr (.inl ⟨inverse_back kind pair, rfl, rfl⟩)
      · cases pair
        exact .inr (.inr (.inr ⟨reference, .inr ⟨rfl, rfl, rfl⟩⟩))
      · cases pair
        exact .inr (.inr (.inr ⟨reference, .inl ⟨rfl, rfl, rfl⟩⟩))
    · intro k x y linked
      simp only [entries] at linked ⊢
      rcases linked with old | ⟨rfl, rfl, rfl⟩ | ⟨kind, rfl, rfl⟩ | ⟨reference, ⟨rfl, rfl, rfl⟩ | ⟨rfl, rfl, rfl⟩⟩
      · obtain ⟨e, back⟩ := coherent.known k x y old
        exact ⟨e, .inl back⟩
      · cases pair : k.inverse with
        | some e => exact ⟨e, .inr (.inr (.inl ⟨pair, rfl, rfl⟩))⟩
        | none =>
          exact ⟨.referencedBy, .inr (.inr (.inr ⟨referenced pair, .inr ⟨rfl, rfl, rfl⟩⟩))⟩
      · exact ⟨d, .inr (.inl ⟨rfl, rfl, rfl⟩)⟩
      · exact ⟨.referencedBy, .inr (.inr (.inr ⟨reference, .inr ⟨rfl, rfl, rfl⟩⟩))⟩
      · exact ⟨.references, .inr (.inr (.inr ⟨reference, .inl ⟨rfl, rfl, rfl⟩⟩))⟩
    · intro k x y linked
      rw [entries] at linked
      rcases linked with old | ⟨-, -, rfl⟩ | ⟨-, -, rfl⟩ | ⟨-, ⟨-, -, rfl⟩ | ⟨-, -, rfl⟩⟩
      · exact coherent.targets k x y old
      · exact aliveTarget
      · exact aliveSource
      · exact aliveTarget
      · exact aliveSource

theorem Coherent.mergeUnits {other : U} (coherent : Coherent m) (distinct : other ≠ u)
    (live : m.alive u = true ∧ m.loadState u ≠ .merged) (run : mergeUnits fuel m u other = some m') :
    Coherent m' := by
  obtain ⟨merge, alive, loadState⟩ := mergeUnits_dependencies run
  have quotient := (mergeAllDependencies_merging distinct.symm merge).linked_iff distinct.symm
    coherent.known
  constructor
  · intro d e x y pair linked
    rw [quotient] at linked ⊢
    obtain ⟨x', y', source, target, old⟩ := linked
    exact ⟨y', x', target, source, coherent.inverse d e x' y' pair old⟩
  · intro d x y linked
    rw [quotient] at linked
    obtain ⟨x', y', source, target, old⟩ := linked
    obtain ⟨k, back⟩ := coherent.known d x' y' old
    exact ⟨k, (quotient k y x).mpr ⟨y', x', target, source, back⟩⟩
  · intro d x y linked
    rw [quotient] at linked
    obtain ⟨x', y', -, rfl, old⟩ := linked
    rw [alive, loadState]
    by_cases same : y' = other
    · simpa [rename, same, distinct.symm] using live
    · simpa [rename, same] using coherent.targets d x' y' old

theorem Coherent.unitFree (coherent : Coherent m) (run : unitFree fuel m u = some m') :
    Coherent m' := by
  unfold Registry.unitFree at run
  split_ifs at run with dead
  obtain ⟨links, freed, rfl⟩ := map_eq_some_iff.mp run
  have entries := freeAllDependencies_linked coherent.known freed
  constructor
  · intro d e x y pair linked
    rw [entries] at linked ⊢
    exact ⟨coherent.inverse d e x y pair linked.1, linked.2.2, linked.2.1⟩
  · intro d x y linked
    rw [entries] at linked
    obtain ⟨k, back⟩ := coherent.known d x y linked.1
    exact ⟨k, (entries k y x).mpr ⟨back, linked.2.2, linked.2.1⟩⟩
  · intro d x y linked
    rw [entries] at linked
    simpa [linked.2.2] using coherent.targets d x y linked.1

def orderlyCall (_ : Nat) (m : Registry U) : Call U -> Prop
  | .addDependency _ _ d _ addReference => d.inverse = none -> addReference = true
  | .merge u _ => m.loadState u ≠ .merged
  | _ => True

instance (fuel : Nat) (m : Registry U) : (call : Call U) -> Decidable (orderlyCall fuel m call)
  | .addDependency _ _ d _ addReference => inferInstanceAs (Decidable (d.inverse = none -> addReference = true))
  | .merge u _ => inferInstanceAs (Decidable (m.loadState u ≠ .merged))
  | .new _ | .addName _ _ _ | .chooseId _ _ _ | .free _ | .progress _ _ _ _ => .isTrue trivial

theorem Coherent.exec {call : Call U} (coherent : Coherent m) (orderly : orderlyCall fuel m call)
    (run : exec fuel m call = some m') : Coherent m' := by
  cases call with
  | new u => exact coherent.unitNew run
  | addName allocates u name =>
    obtain ⟨⟨m', result⟩, step, rfl⟩ := map_eq_some_iff.mp run
    exact coherent.namesOnly (unitAddName_namesOnly step)
  | chooseId allocates u name =>
    obtain ⟨⟨m', result⟩, step, rfl⟩ := map_eq_some_iff.mp run
    exact coherent.namesOnly (unitChooseId_namesOnly step)
  | addDependency allocates u d other addReference =>
    obtain ⟨⟨m', result⟩, step, rfl⟩ := map_eq_some_iff.mp run
    exact coherent.unitAddDependency orderly step
  | merge u other =>
    obtain ⟨⟨m', result⟩, step, rfl⟩ := map_eq_some_iff.mp run
    rcases unitMerge_cases step with ⟨rfl, -⟩ | ⟨target, found, alive, -, merged⟩
    · exact coherent
    · exact coherent.mergeUnits (mergeTarget_spec found).1 ⟨alive, orderly⟩ merged
  | free u => exact coherent.unitFree run
  | progress u loadState hasJob activeState => exact coherent.unitProgress run

theorem ReachableBy.coherent (reached : ReachableBy orderlyCall m) : Coherent m := by
  induction reached with
  | start => exact .empty
  | call _ call fuel orderly run ih => exact ih.exec orderly run

def symmetricPairs : List (UnitDependency × UnitDependency) :=
  [(.before, .after), (.conflicts, .conflictedBy), (.bindTo, .boundBy), (.references, .referencedBy)]

def impliedPairs : List (UnitDependency × UnitDependency) :=
  [(.requires, .requiredBy), (.requisite, .requiredBy),
    (.requiresOverridable, .requiredByOverridable),
    (.requisiteOverridable, .requiredByOverridable), (.wants, .wantedBy)]

def SymmetricGraph (m : Registry U) : Prop :=
  (∀ pair ∈ symmetricPairs, ∀ u v,
    m.dependencies.Linked pair.1 u v ↔ m.dependencies.Linked pair.2 v u) ∧
  (∀ pair ∈ impliedPairs, ∀ u v,
    m.dependencies.Linked pair.1 u v -> m.dependencies.Linked pair.2 v u) ∧
  (∀ d u v, m.alive u = true -> m.dependencies.Linked d u v ->
    m.alive v = true ∧ m.loadState v ≠ .merged)

theorem dependency_graph_symmetric (reached : ReachableBy orderlyCall m) : SymmetricGraph m := by
  have coherent := reached.coherent
  have symmetric : ∀ pair ∈ symmetricPairs, UnitDependency.inverse pair.1 = some pair.2 ∧
      UnitDependency.inverse pair.2 = some pair.1 := by decide +kernel
  have implied : ∀ pair ∈ impliedPairs, UnitDependency.inverse pair.1 = some pair.2 := by
    decide +kernel
  refine ⟨?_, ?_, ?_⟩
  · intro pair listed u v
    obtain ⟨forth, back⟩ := symmetric pair listed
    exact ⟨coherent.inverse _ _ u v forth, coherent.inverse _ _ v u back⟩
  · intro pair listed u v
    exact coherent.inverse _ _ u v (implied pair listed)
  · intro d u v _ linked
    exact coherent.targets d u v linked

def serviceName (letter : String) : CString :=
  .ofString (letter ++ ".service")

local instance (priority := 1200) fourNamed : @NeZero Nat Zero.ofOfNat0 4 := ⟨by decide⟩

-- Four services, called a.service to d.service.
def fourServices : List (Call (Fin 4)) :=
  [.new 0, .new 1, .new 2, .new 3,
    .addName (fun _ => true) 0 (serviceName "a"), .addName (fun _ => true) 1 (serviceName "b"),
    .addName (fun _ => true) 2 (serviceName "c"), .addName (fun _ => true) 3 (serviceName "d")]

-- c.service is merged into a.service while b.service and d.service know it.
def mergeKnown : List (Call (Fin 4)) :=
  fourServices ++
    [.addDependency (fun _ => true) 1 .requires 2 true, .addDependency (fun _ => true) 2 .before 3 false,
      .merge 0 2, .free 2]

theorem dependency_graph_symmetric_merged :
    ∃ m : Registry (Fin 4), ReachableBy orderlyCall m ∧ m.dependencies.Linked .requires 1 0 ∧
      m.dependencies.Linked .before 0 3 ∧ SymmetricGraph m := by
  have run : (execAllowed orderlyCall 10 empty mergeKnown).map (fun m =>
      decide (m.dependencies.Linked .requires 1 0 ∧ m.dependencies.Linked .before 0 3)) =
        some true := by
    decide
  obtain ⟨m, reached, passed⟩ := reachable_of_check run
  rw [decide_eq_true_iff] at passed
  exact ⟨m, reached, passed.1, passed.2, dependency_graph_symmetric reached⟩

-- The only restriction of the callers that the graph is promised to survive.
def referencedFailures (_ : Nat) (_ : Registry U) : Call U -> Prop
  | .addDependency _ _ d _ addReference => d = .onFailure -> addReference = true
  | _ => True

instance (fuel : Nat) (m : Registry U) : (call : Call U) -> Decidable (referencedFailures fuel m call)
  | .addDependency _ _ d _ addReference => inferInstanceAs (Decidable (d = .onFailure -> addReference = true))
  | .new _ | .addName _ _ _ | .chooseId _ _ _ | .merge _ _ | .free _ | .progress _ _ _ _ => .isTrue trivial

def freeRequiring : List (Call (Fin 4)) :=
  fourServices ++ [.addDependency (fun _ => true) 0 .requiredBy 1 false, .free 1]

def mergeIntoMerged : List (Call (Fin 4)) :=
  fourServices ++
    [.addDependency (fun _ => true) 2 .before 3 true, .merge 0 1, .merge 1 2]

theorem dangling_dependencies :
    (∃ m : Registry (Fin 4), ReachableBy referencedFailures m ∧ m.alive 0 = true ∧
      m.dependencies.Linked .requiredBy 0 1 ∧ m.alive 1 = false ∧ ¬ SymmetricGraph m) ∧
    (∃ m : Registry (Fin 4), ReachableBy referencedFailures m ∧ m.alive 3 = true ∧
      m.dependencies.Linked .after 3 1 ∧ m.loadState 1 = .merged ∧ ¬ SymmetricGraph m) := by
  constructor
  · have run : (execAllowed referencedFailures 10 empty freeRequiring).map (fun m =>
        decide (m.alive 0 = true ∧ m.dependencies.Linked .requiredBy 0 1 ∧ m.alive 1 = false)) =
          some true := by
      decide
    obtain ⟨m, reached, passed⟩ := reachable_of_check run
    rw [decide_eq_true_iff] at passed
    obtain ⟨alive, linked, freed⟩ := passed
    refine ⟨m, reached, alive, linked, freed, ?_⟩
    rintro ⟨-, -, dangling⟩
    simpa [freed] using (dangling _ _ _ alive linked).1
  · have run : (execAllowed referencedFailures 10 empty mergeIntoMerged).map (fun m =>
        decide (m.alive 3 = true ∧ m.dependencies.Linked .after 3 1 ∧ m.loadState 1 = .merged)) =
          some true := by
      decide
    obtain ⟨m, reached, passed⟩ := reachable_of_check run
    rw [decide_eq_true_iff] at passed
    obtain ⟨alive, linked, merged⟩ := passed
    refine ⟨m, reached, alive, linked, merged, ?_⟩
    rintro ⟨-, -, dangling⟩
    exact (dangling _ _ _ alive linked).2 merged

end Systemd.Registry
