import Systemd.Loading.Lookup

set_option autoImplicit false

namespace Systemd.Loading

open Program Option Function

variable {U : Type} [DecidableEq U]

section

variable {m m' : Registry U} {u : U} {k : CString}

omit [DecidableEq U] in
theorem get_iff_named (indexed : m.Indexed) {s : CString} :
    m.units.get s = some u ↔ s ∈ Registry.setMembers (m.names u) :=
  indexed.table s u

theorem unitAddName_adds {t : UnitType} {part : Option CString} {result : Except RegistryErrno Unit}
    (loadable : Loadable k t part) (typed : m.type u = some t)
    (parts : (m.instancePart u).isSome = part.isSome) (aliased : t.noAlias = false)
    (room : m.units.length < managerMaxNames) (free : m.units.get k = none) (indexed : m.Indexed)
    (run : m.unitAddName (fun _ => true) u k = some (m', result)) :
    result = .ok () ∧ ∃ set, m.names u = some set ∧
      m' = { m with
        names := update m.names u (some (set.put k))
        units := m.units ++ [(k, u)] } := by
  by_cases dead : m.alive u = false
  · rw [Registry.unitAddName, if_pos dead] at run
    cases run
  have complete : m.completeName u k = some (.ok k) := by
    rw [Registry.completeName, if_neg (by simp [loadable.plain])]
  have check : m.checkName (fun _ => true) u k = some (.ok (t, part)) := by
    rw [Registry.checkName, if_neg (by simp [loadable.valid])]
    simp only [loadable.kind, loadable.piece]
    rw [if_neg (by simp [typed]), if_neg (by simp), if_neg, if_neg (by simp [parts]),
      if_neg (by simp [aliased]), if_neg (by omega)]
    rintro ⟨some, noInstances⟩
    simp [loadable.instances some] at noInstances
  rw [Registry.unitAddName, if_neg dead, complete, bind_some] at run
  simp only [Bool.true_eq_false, if_false, check, bind_some] at run
  cases names : m.names u with
  | none => simp [names] at run
  | some set =>
    have fresh : k ∉ set := by
      intro mem
      have here : m.units.get k = some u := (get_iff_named indexed).mpr (by rwa [names])
      rw [free] at here
      cases here
    simp only [names, fresh, if_false, Registry.enterName, free, if_true, Registry.adoptName, typed,
      reduceCtorEq, some.injEq, Prod.mk.injEq] at run
    exact ⟨run.2.symm, set, rfl, run.1.symm⟩

theorem Merges.get {other : U} (merges : Merges m m' u other) (indexed : m.Indexed) {x : CString}
    {v : U} : m'.units.get x = some v ↔
      v = u ∧ (m.units.get x = some u ∨ m.units.get x = some other) ∨
        m.units.get x = some v ∧ v ≠ u ∧ v ≠ other := by
  have entry := merges.table x
  simp only [Registry.mem_setMembers_completeMove, ← get_iff_named indexed] at entry
  rw [entry]
  by_cases taken : m.units.get x = some u ∨ m.units.get x = some other
  · rw [if_pos taken]
    constructor
    · intro same
      cases same
      exact .inl ⟨rfl, taken⟩
    · rintro (⟨rfl, -⟩ | ⟨here, notMine, notOther⟩)
      · rfl
      · rcases taken with mine | theirs
        · rw [mine] at here
          exact absurd (some.inj here).symm notMine
        · rw [theirs] at here
          exact absurd (some.inj here).symm notOther
  · rw [if_neg taken]
    constructor
    · intro here
      refine .inr ⟨here, ?_, ?_⟩
      · rintro rfl
        exact taken (.inl here)
      · rintro rfl
        exact taken (.inr here)
    · rintro (⟨-, taken'⟩ | ⟨here, -, -⟩)
      · exact absurd taken' taken
      · exact here

end

section

variable {h : Host U} {asked : List CString} {claims : U -> CString -> Prop} {busy : Option U}
  {l l' : Loader U} {u : U} {k : CString}

def Loader.withRegistry (l : Loader U) (m : Registry U) : Loader U := { l with registry := m }

theorem gains_addName (set : OrderedSet CString) (free : l.registry.units.get k = none)
    (named : ∃ x, l.registry.units.get x = some u) :
    Gains l
      (l.withRegistry { l.registry with
        names := update l.registry.names u (some (set.put k))
        units := l.registry.units ++ [(k, u)] }) u (· = k) := by
  have entry : ∀ x, NameTable.get (l.registry.units ++ [(k, u)]) x =
      (l.registry.units.get x).or (if x = k then some u else none) :=
    fun x => NameTable.get_append _ _ _ _
  have unknown : ∀ x v, l.registry.units.get x = some v -> x ≠ k := by
    rintro x v here rfl
    rw [free] at here
    cases here
  constructor
  case mine =>
    rintro x rfl
    rw [Loader.withRegistry]
    simp [entry, free]
  case kept =>
    intro x v here _
    rw [Loader.withRegistry]
    simp [entry, here]
  case only =>
    intro x v here
    rw [Loader.withRegistry] at here
    simp only [entry] at here
    cases old : l.registry.units.get x with
    | none =>
      rw [old, none_or] at here
      split_ifs at here with new
      cases here
      exact .inl ⟨new, rfl⟩
    | some w =>
      rw [old, some_or] at here
      exact .inr ⟨here, unknown x w old⟩
  case whole =>
    rintro x y v here _ rfl
    exact absurd rfl (unknown x v here)
  case named => exact named
  case stays => exact fun v stub => ⟨stub, fun x here => unknown x v here⟩
  case keys => exact fun nodup => keys_append nodup free u
  all_goals
    first
    | exact rfl
    | exact fun _ _ _ => rfl

theorem gains_merges {m' : Registry U} {other : U} (merges : Merges l.registry m' u other)
    (indexed : l.registry.Indexed) (named : ∃ x, l.registry.units.get x = some u) :
    Gains l (l.withRegistry m') u fun x => l.registry.units.get x = some other := by
  have entry : ∀ x v, (l.withRegistry m').registry.units.get x = some v ↔ _ :=
    fun x v => merges.get indexed
  have notOther : ∀ x v, (l.withRegistry m').registry.units.get x = some v -> v ≠ other := by
    rintro x v here rfl
    rcases (entry x v).mp here with ⟨same, -⟩ | ⟨-, -, wrong⟩
    · exact merges.distinct same
    · exact wrong rfl
  constructor
  case mine => exact fun x theirs => (entry x u).mpr (.inl ⟨rfl, .inr theirs⟩)
  case kept =>
    intro x v here notTheirs
    by_cases mine : v = u
    · exact (entry x v).mpr (.inl ⟨mine, .inl (mine ▸ here)⟩)
    · refine (entry x v).mpr (.inr ⟨here, mine, ?_⟩)
      rintro rfl
      exact notTheirs here
  case only =>
    intro x v here
    rcases (entry x v).mp here with ⟨rfl, mine | theirs⟩ | ⟨old, -, other⟩
    · refine .inr ⟨mine, fun theirs => ?_⟩
      rw [mine] at theirs
      exact merges.distinct (some.inj theirs).symm
    · exact .inl ⟨theirs, rfl⟩
    · refine .inr ⟨old, fun theirs => ?_⟩
      rw [old] at theirs
      exact other (some.inj theirs)
  case whole =>
    intro x y v here there theirs
    rw [here] at theirs
    exact theirs ▸ there
  case named => exact named
  case id =>
    intro x v here
    rw [Loader.withRegistry, merges.id, update_of_ne (notOther x v here)]
  case loadState =>
    intro x v here
    rw [Loader.withRegistry, merges.loadState, update_of_ne (notOther x v here)]
  case stays =>
    intro v stub
    rw [Loader.withRegistry, merges.loadState] at stub
    have ne : v ≠ other := by
      rintro rfl
      simp at stub
    rw [update_of_ne ne] at stub
    refine ⟨stub, fun x here theirs => ?_⟩
    rw [here] at theirs
    exact ne (some.inj theirs)
  case instancePart => exact merges.instancePart
  case alive => exact merges.alive
  case hasJob => exact merges.hasJob
  case activeState => exact merges.activeState
  case keys =>
    intro nodup
    rwa [Loader.withRegistry, merges.keys]
  case loadQueue => rfl
  case fragmentPath => rfl

end

end Systemd.Loading
