import Systemd.Loading.Owners

set_option autoImplicit false

namespace Systemd.Loading

open Program Option Function

variable {U : Type} [DecidableEq U] {h : Host U} {l l' : Loader U}

omit [DecidableEq U] in
theorem registryCall_eq_some {call : Registry U -> Option (Registry U × Except RegistryErrno Unit)}
    {r : Except LoadErrno Unit} :
    registryCall call l = some (r, l') ↔ ∃ m' result, call l.registry = some (m', result) ∧
      r = result.mapError .registry ∧ l' = { l with registry := m' } := by
  rw [registryCall, map_eq_some_iff]
  constructor
  · rintro ⟨⟨m', result⟩, ran, same⟩
    cases same
    exact ⟨m', result, ran, rfl, rfl⟩
  · rintro ⟨m', result, ran, rfl, rfl⟩
    exact ⟨(m', result), ran, rfl⟩

omit [DecidableEq U] in
theorem orAbort_eq_some {A : Type} {value : Option A} {r : Except LoadErrno A} :
    (orAbort value : Load U A) l = some (r, l') ↔ ∃ a, value = some a ∧ r = .ok a ∧ l' = l := by
  cases value with
  | none => simp [orAbort, abort]
  | some a => simp [orAbort, pure_eq_some]

variable {B : Type} {r : Except LoadErrno B} {u : U} {m m1 m2 : Registry U}

omit [DecidableEq U] in
theorem orAbort_bind {A : Type} {value : Option A} {f : A -> Load U B} :
    (orAbort value >>= f) l = some (r, l') ↔ ∃ a, value = some a ∧ f a l = some (r, l') := by
  cases value with
  | none =>
    rw [bind_eq_some]
    simp [orAbort, abort]
  | some a =>
    change f a l = some (r, l') ↔ _
    simp

omit [DecidableEq U] in
theorem unitFollowMerge_eq_some {r : Except LoadErrno U} :
    unitFollowMerge h u l = some (r, l') ↔ ∃ t, l.registry.unitFollowMerge h.fuel u = some t ∧
      r = .ok t ∧ l' = l := by
  rw [unitFollowMerge, map_eq_some_iff]
  constructor
  · rintro ⟨t, ran, same⟩
    cases same
    exact ⟨t, ran, rfl, rfl⟩
  · rintro ⟨t, ran, rfl, rfl⟩
    exact ⟨t, ran, rfl⟩

theorem unitNew_bind {f : U -> Load U B} :
    (unitNew h >>= f) l = some (r, l') ↔ ∃ m, l.registry.unitNew (h.address l) = some m ∧
      f (h.address l) { l with
        registry := m, fragmentPath := update l.fragmentPath (h.address l) none } = some (r, l') :=
  map_bind (p := unitNew h) (s := l) rfl

theorem unitFree_bind {f : Unit -> Load U B} :
    (unitFree h u >>= f) l = some (r, l') ↔ ∃ m, l.registry.unitFree h.fuel u = some m ∧
      f () { l with registry := m, loadQueue := l.loadQueue.filter (· ≠ u) } = some (r, l') :=
  map_bind (p := unitFree h u) (s := l) rfl

theorem unitMergeByName_cases {text : CString} {r : Except LoadErrno Unit}
    (run : unitMergeByName h u text l = some (r, l')) :
    (l' = l ∧ ∃ e, l.registry.completeName u text = some (.error e) ∧ r = .error (.registry e)) ∨
      ∃ name m' result, l.registry.completeName u text = some (.ok name) ∧
        l' = { l with registry := m' } ∧ r = result.mapError .registry ∧
        (l.registry.units.get name = none ∧
            l.registry.unitAddName (fun _ => true) u name = some (m', result) ∨
          ∃ other, l.registry.units.get name = some other ∧
            l.registry.unitMerge h.fuel u other = some (m', result)) := by
  rw [unitMergeByName, read_bind, orAbort_bind] at run
  obtain ⟨completed, complete, run⟩ := run
  cases completed with
  | error e =>
    obtain ⟨rfl, rfl⟩ := fail_eq_some.mp run
    exact .inl ⟨rfl, e, complete, rfl⟩
  | ok name =>
    simp only at run
    cases entry : l.registry.units.get name with
    | none =>
      simp only [entry] at run
      obtain ⟨m', result, ran, rfl, rfl⟩ := registryCall_eq_some.mp run
      exact .inr ⟨name, m', result, complete, rfl, rfl, .inl ⟨entry, ran⟩⟩
    | some other =>
      simp only [entry] at run
      obtain ⟨m', result, ran, rfl, rfl⟩ := registryCall_eq_some.mp run
      exact .inr ⟨name, m', result, complete, rfl, rfl, .inr ⟨other, entry, ran⟩⟩

def withStub (m : Registry U) (u : U) (name : CString) (t : UnitType) (part : Option CString) :
    Registry U where
  alive := update m.alive u true
  type := update m.type u (some t)
  id := update m.id u (some name)
  instancePart := update m.instancePart u part
  names := update m.names u (some (OrderedSet.empty.put name))
  loadState := update m.loadState u .stub
  mergedInto := update m.mergedInto u none
  hasJob := update m.hasJob u false
  activeState := update m.activeState u .inactive
  dependencies := update m.dependencies u fun _ => none
  units := m.units ++ [(name, u)]

structure Loadable (s : CString) (t : UnitType) (part : Option CString) : Prop where
  valid : unitNameIsValid s false = true
  plain : unitNameIsTemplate s = false
  kind : unitNameToType s = some t
  piece : unitNameToInstance s = some part
  instances : part.isSome = true -> t.noInstances = false

/-- A unit that did not exist before, and does not exist now either, is all that may have changed. -/
structure Elsewhere (m m' : Registry U) (u : U) : Prop where
  before : m.alive u = false
  after : m'.alive u = false
  nameless : m'.names u = none
  units : m'.units = m.units
  alive : ∀ v, v ≠ u -> m'.alive v = m.alive v
  type : ∀ v, v ≠ u -> m'.type v = m.type v
  id : ∀ v, v ≠ u -> m'.id v = m.id v
  instancePart : ∀ v, v ≠ u -> m'.instancePart v = m.instancePart v
  names : ∀ v, v ≠ u -> m'.names v = m.names v
  loadState : ∀ v, v ≠ u -> m'.loadState v = m.loadState v
  mergedInto : ∀ v, v ≠ u -> m'.mergedInto v = m.mergedInto v
  hasJob : ∀ v, v ≠ u -> m'.hasJob v = m.hasJob v
  activeState : ∀ v, v ≠ u -> m'.activeState v = m.activeState v
  fresh : m'.loadState u ≠ .merged

inductive Prepares (l l' : Loader U) (name path : Option CString) : Except LoadErrno (U × Bool) -> Prop where
  | refused (e : LoadErrno) : l' = l -> Prepares l l' name path (.error e)
  | dropped (e : LoadErrno) (u : U) : Elsewhere l.registry l'.registry u ->
      l'.loadQueue = l.loadQueue.filter (· ≠ u) ->
      (∀ v, v ≠ u -> l'.fragmentPath v = l.fragmentPath v) -> Prepares l l' name path (.error e)
  | known (s : CString) (u : U) : name.or (path.map fileName) = some s -> l' = l ->
      l.registry.units.get s = some u -> Prepares l l' name path (.ok (u, true))
  | stub (s : CString) (u : U) (t : UnitType) (part : Option CString) :
      name.or (path.map fileName) = some s -> l.registry.alive u = false ->
      l.registry.units.get s = none -> Loadable s t part -> l'.registry = withStub l.registry u s t part ->
      l'.loadQueue = u :: l.loadQueue -> l'.fragmentPath = update l.fragmentPath u path ->
      Prepares l l' name path (.ok (u, false))

omit [DecidableEq U] in
theorem checkName_loadable {allocates : NameAllocation -> Bool} {name : CString} {t : UnitType}
    {part : Option CString} (plain : unitNameIsTemplate name = false)
    (run : m.checkName allocates u name = some (.ok (t, part))) : Loadable name t part := by
  obtain ⟨kind, piece, -⟩ := Registry.checkName_ok run
  by_cases invalid : unitNameIsValid name false = false
  · simp [Registry.checkName, invalid] at run
  rw [Registry.checkName, if_neg invalid] at run
  simp only [kind, piece] at run
  refine ⟨by simpa using invalid, plain, kind, piece, fun instanced => ?_⟩
  by_contra refused
  rw [Bool.not_eq_false] at refused
  simp only [instanced, refused, and_self, if_true] at run
  split_ifs at run
  all_goals
    simp at run

theorem unitNew_stub {m' : Registry U} (new : m.unitNew u = some m') :
    m.alive u = false ∧ m' =
      { m with
        alive := update m.alive u true
        type := update m.type u none
        id := update m.id u none
        instancePart := update m.instancePart u none
        names := update m.names u (some .empty)
        loadState := update m.loadState u .stub
        mergedInto := update m.mergedInto u none
        hasJob := update m.hasJob u false
        activeState := update m.activeState u .inactive
        dependencies := update m.dependencies u fun _ => none } := by
  unfold Registry.unitNew at new
  split_ifs at new with living
  cases new
  exact ⟨by simpa using living, rfl⟩

theorem withStub_named {s : CString} (new : m.unitNew u = some m1) (free : m.units.get s = none)
    (named : m1.unitAddName (fun _ => true) u s = some (m2, .ok ())) :
    ∃ t part, Loadable s t part ∧ m2 = withStub m u s t part := by
  obtain ⟨fresh, rfl⟩ := unitNew_stub new
  rcases Registry.unitAddName_outcome named with ⟨e, wrong, -⟩ |
    ⟨-, -, name, t, part, set, complete, check, names, outcome⟩
  · cases wrong
  obtain rfl : OrderedSet.empty = set := by simpa using names
  have plain : unitNameIsTemplate s = false := by
    by_contra template
    rw [Registry.completeName, if_pos (by simpa using template)] at complete
    simp at complete
  obtain rfl : s = name := by simpa [Registry.completeName, plain] using complete
  rcases outcome with ⟨impossible, -⟩ | ⟨-, entered, enter, rfl⟩
  · exact absurd impossible (OrderedSet.not_mem_empty _)
  simp only [Registry.enterName, free, if_true, Except.ok.injEq] at enter
  refine ⟨t, part, checkName_loadable plain check, ?_⟩
  rw [← enter]
  simp [Registry.adoptName, withStub]

theorem elsewhere_freed {m3 : Registry U} {s : CString} {e : RegistryErrno} {fuel : Nat}
    (new : m.unitNew u = some m1) (named : m1.unitAddName (fun _ => true) u s = some (m2, .error e))
    (freed : m2.unitFree fuel u = some m3) : Elsewhere m m3 u := by
  obtain ⟨fresh, rfl⟩ := unitNew_stub new
  rcases Registry.unitAddName_outcome named with ⟨-, -, rfl⟩ | ⟨wrong, -⟩
  · unfold Registry.unitFree at freed
    split_ifs at freed
    obtain ⟨links, -, rfl⟩ := map_eq_some_iff.mp freed
    constructor
    case before => exact fresh
    case units => simp [Registry.setMembers, OrderedSet.empty]
    all_goals
      simp +contextual
  · cases wrong

theorem managerLoadUnitPrepare_prepares {name path : Option CString} {r : Except LoadErrno (U × Bool)}
    (run : managerLoadUnitPrepare h name path l = some (r, l')) : Prepares l l' name path r := by
  unfold managerLoadUnitPrepare at run
  split_ifs at run with wrong
  · obtain ⟨rfl, rfl⟩ := fail_eq_some.mp run
    exact .refused _ rfl
  obtain ⟨s, given, run⟩ := orAbort_bind.mp run
  split_ifs at run with invalid
  · obtain ⟨rfl, rfl⟩ := fail_eq_some.mp run
    exact .refused _ rfl
  rw [read_bind] at run
  cases entry : l.registry.units.get s with
  | some u =>
    simp only [entry] at run
    obtain ⟨rfl, rfl⟩ := pure_eq_some.mp run
    exact .known s u given rfl entry
  | none =>
    simp only [entry] at run
    obtain ⟨m, new, run⟩ := unitNew_bind.mp run
    rw [setFragmentPath, change_bind] at run
    obtain ⟨inner, middle, named, run⟩ := attempt_bind.mp run
    obtain ⟨m', result, added, rfl, rfl⟩ := registryCall_eq_some.mp named
    have fresh := (unitNew_stub new).1
    cases result with
    | error e =>
      obtain ⟨m, freed, run⟩ := unitFree_bind.mp run
      obtain ⟨rfl, rfl⟩ := fail_eq_some.mp run
      refine .dropped _ (h.address l) (elsewhere_freed new added freed) rfl ?_
      intro v other
      simp [other]
    | ok _ =>
      obtain ⟨t, part, loadable, rfl⟩ := withStub_named new entry added
      obtain ⟨rfl, rfl⟩ := pure_eq_some.mp run
      exact .stub s (h.address l) t part given fresh entry loadable rfl rfl (by simp)

end Systemd.Loading
