import Systemd.Loading.Chains

set_option autoImplicit false

namespace Systemd.Loading

open Program List Option Function

variable {U : Type} {h : Host U} {asked : List CString} {claims : U -> CString -> Prop}
  {busy : Option U} {l l' l'' : Loader U} {u v : U} {n s : CString}

structure Extends (h : Host U) (asked : List CString) (claims : U -> CString -> Prop) (l l' : Loader U) :
    Prop where
  canon : ∀ busy, Canon h asked claims busy l -> Canon h asked claims busy l'
  table : ∀ s v, l.registry.units.get s = some v -> l'.registry.units.get s = some v
  names : ∀ s v x, l.registry.units.get s = some v -> l'.registry.units.get x = some v ->
    l.registry.units.get x = some v
  id : ∀ s v, l.registry.units.get s = some v -> l'.registry.id v = l.registry.id v
  instancePart : ∀ s v, l.registry.units.get s = some v ->
    l'.registry.instancePart v = l.registry.instancePart v
  loadState : ∀ s v, l.registry.units.get s = some v -> l'.registry.loadState v = l.registry.loadState v
  fragmentPath : ∀ s v, l.registry.units.get s = some v -> l'.fragmentPath v = l.fragmentPath v

theorem Extends.refl (l : Loader U) : Extends h asked claims l l :=
  ⟨fun _ canon => canon, fun _ _ here => here, fun _ _ _ _ here => here, fun _ _ _ => rfl,
    fun _ _ _ => rfl, fun _ _ _ => rfl, fun _ _ _ => rfl⟩

theorem Extends.trans (first : Extends h asked claims l l') (second : Extends h asked claims l' l'') :
    Extends h asked claims l l'' where
  canon := fun busy canon => second.canon busy (first.canon busy canon)
  table := fun s v here => second.table s v (first.table s v here)
  names := fun s v x here there =>
    first.names s v x here (second.names s v x (first.table s v here) there)
  id := fun s v here => (second.id s v (first.table s v here)).trans (first.id s v here)
  instancePart := fun s v here =>
    (second.instancePart s v (first.table s v here)).trans (first.instancePart s v here)
  loadState := fun s v here =>
    (second.loadState s v (first.table s v here)).trans (first.loadState s v here)
  fragmentPath := fun s v here =>
    (second.fragmentPath s v (first.table s v here)).trans (first.fragmentPath s v here)

variable [DecidableEq U]

variable {part : Option CString}

theorem Canon.withStub {t : UnitType} (canon : Canon h asked claims busy l)
    (fresh : l.registry.alive u = false) (free : l.registry.units.get s = none)
    (loadable : Loadable s t part) (loaded : Loaded h asked s)
    (registry : l'.registry = withStub l.registry u s t part) (queue : l'.loadQueue = u :: l.loadQueue)
    (paths : l'.fragmentPath = update l.fragmentPath u none) :
    Canon h asked (fun w x => claims w x ∨ (w = u ∧ x = s)) busy l' ∧
      ∀ x v, l'.registry.units.get x = some v ↔
        x = s ∧ v = u ∨ l.registry.units.get x = some v ∧ v ≠ u := by
  have settled := canon.held.1
  have living : ∀ x v, l.registry.units.get x = some v -> v ≠ u := by
    rintro x v here rfl
    rw [settled.alive here] at fresh
    cases fresh
  have entry : ∀ x v, l'.registry.units.get x = some v ↔
      x = s ∧ v = u ∨ l.registry.units.get x = some v ∧ v ≠ u := by
    intro x v
    rw [registry, Loading.withStub, NameTable.get_append]
    cases old : l.registry.units.get x with
    | none =>
      by_cases new : x = s
      · simp [new, eq_comm]
      · simp [new]
    | some w =>
      have ne : x ≠ s := by
        rintro rfl
        rw [free] at old
        cases old
      simp only [some_or, some.injEq, ne, false_and, false_or]
      constructor
      · rintro rfl
        exact ⟨rfl, living x w old⟩
      · exact And.left
  have held := canon.held.withStub fresh free loadable
  rw [← registry] at held
  refine ⟨⟨held, ?_, ?_, ?_, ?_, ?_, ?_, ?_, ?_, ?_⟩, entry⟩
  · intro v alive
    rw [registry] at alive ⊢
    by_cases new : v = u
    · simp [Loading.withStub, new]
    · simp only [Loading.withStub, update_of_ne new] at alive ⊢
      exact canon.idle v alive
  · rw [registry]
    exact keys_append canon.keys free u
  · intro x v here
    rcases (entry x v).mp here with ⟨rfl, -⟩ | ⟨old, -⟩
    · exact .inl loaded
    · exact canon.known x v old
  · intro x v here
    rcases (entry x v).mp here with ⟨rfl, -⟩ | ⟨old, -⟩
    · exact ⟨t, part, loadable⟩
    · exact canon.loadable x v old
  · intro x v i here chosen
    rw [registry] at chosen ⊢
    rcases (entry x v).mp here with ⟨rfl, rfl⟩ | ⟨old, ne⟩
    · simp only [Loading.withStub, update_self, some.injEq] at chosen ⊢
      exact chosen ▸ loadable.piece
    · simp only [Loading.withStub, update_of_ne ne] at chosen ⊢
      exact canon.part x v i old chosen
  · intro v waits stub
    by_cases new : v = u
    · exact ⟨s, (entry s v).mpr (.inl ⟨rfl, new⟩)⟩
    · rw [queue, mem_cons] at waits
      simp only [registry, Loading.withStub, update_of_ne new] at stub
      obtain ⟨x, here⟩ := canon.queued v (waits.resolve_left new) stub
      exact ⟨x, (entry x v).mpr (.inr ⟨here, new⟩)⟩
  · intro x v here other stub
    rw [queue, mem_cons]
    rcases (entry x v).mp here with ⟨rfl, rfl⟩ | ⟨old, ne⟩
    · refine ⟨.inl rfl, loaded, fun y there => ?_, by simp [registry, Loading.withStub], by simp [paths]⟩
      rcases (entry y v).mp there with ⟨rfl, -⟩ | ⟨-, wrong⟩
      · rfl
      · exact absurd rfl wrong
    · simp only [registry, Loading.withStub, update_of_ne ne] at stub
      obtain ⟨waits, loaded, only, id, path⟩ := canon.stub x v old other stub
      refine ⟨.inr waits, loaded, fun y there => ?_, by simpa [registry, Loading.withStub, ne] using id,
        by simpa [paths, ne] using path⟩
      rcases (entry y v).mp there with ⟨-, wrong⟩ | ⟨before, -⟩
      · exact absurd wrong ne
      · exact only y before
  · intro x v here other stub
    rcases (entry x v).mp here with ⟨rfl, rfl⟩ | ⟨old, ne⟩
    · simp [registry, Loading.withStub] at stub
    · simp only [registry, Loading.withStub, update_of_ne ne] at stub
      refine (canon.done x v old other stub).shrink (fun y there => ?_) ?_ ?_
      · rcases (entry y v).mp there with ⟨-, wrong⟩ | ⟨before, -⟩
        · exact absurd wrong ne
        · exact before
      · simp [registry, Loading.withStub, ne]
      · simp [paths, ne]
  · intro m x v sole here
    rcases (entry x v).mp here with ⟨rfl, -⟩ | ⟨old, ne⟩
    · exact absurd loaded sole.unloaded
    · exact (entry m v).mpr (.inr ⟨canon.sole m x v sole old, ne⟩)

theorem Canon.elsewhere (canon : Canon h asked claims busy l)
    (elsewhere : Elsewhere l.registry l'.registry u) (queue : l'.loadQueue = l.loadQueue.filter (· ≠ u))
    (paths : ∀ v, v ≠ u -> l'.fragmentPath v = l.fragmentPath v) : Canon h asked claims busy l' := by
  have living : ∀ x v, l.registry.units.get x = some v -> v ≠ u := by
    rintro x v here rfl
    have alive := canon.held.1.alive here
    rw [elsewhere.before] at alive
    cases alive
  have table : l'.registry.units = l.registry.units := elsewhere.units
  refine ⟨canon.held.elsewhere elsewhere, ?_, by rw [table]; exact canon.keys, ?_, ?_, ?_, ?_, ?_, ?_, ?_⟩
  · intro v alive
    have ne : v ≠ u := by
      rintro rfl
      rw [elsewhere.after] at alive
      cases alive
    rw [elsewhere.alive v ne] at alive
    rw [elsewhere.hasJob v ne, elsewhere.activeState v ne]
    exact canon.idle v alive
  · intro x v here
    exact canon.known x v (table ▸ here)
  · intro x v here
    exact canon.loadable x v (table ▸ here)
  · intro x v i here chosen
    rw [table] at here
    have ne := living x v here
    rw [elsewhere.id v ne] at chosen
    rw [elsewhere.instancePart v ne]
    exact canon.part x v i here chosen
  · intro v waits stub
    rw [queue, mem_filter] at waits
    have ne : v ≠ u := by simpa using waits.2
    rw [elsewhere.loadState v ne] at stub
    rw [table]
    exact canon.queued v waits.1 stub
  · intro x v here other stub
    rw [table] at here
    have ne := living x v here
    rw [elsewhere.loadState v ne] at stub
    obtain ⟨waits, loaded, only, id, path⟩ := canon.stub x v here other stub
    refine ⟨?_, loaded, fun y there => only y (table ▸ there), (elsewhere.id v ne).trans id,
      (paths v ne).trans path⟩
    rw [queue, mem_filter]
    exact ⟨waits, by simpa using ne⟩
  · intro x v here other settled
    rw [table] at here
    have ne := living x v here
    rw [elsewhere.loadState v ne] at settled
    exact (canon.done x v here other settled).shrink (fun y there => table ▸ there)
      (elsewhere.id v ne) (paths v ne)
  · intro m x v sole here
    rw [table] at here ⊢
    exact canon.sole m x v sole here

theorem Prepares.extends {r : Except LoadErrno (U × Bool)} (settled : Settled l.registry)
    (wanted : unitNameIsValid n false = true -> Loaded h asked n)
    (prepares : Prepares l l' (some n) none r) : Extends h asked claims l l' := by
  cases prepares with
  | refused e same => exact same ▸ .refl _
  | known s v given same entry => exact same ▸ .refl _
  | dropped e v elsewhere queue paths =>
    have living : ∀ x w, l.registry.units.get x = some w -> w ≠ v := by
      rintro x w here rfl
      have alive := settled.alive here
      rw [elsewhere.before] at alive
      cases alive
    have table : l'.registry.units = l.registry.units := elsewhere.units
    refine ⟨fun _ canon => canon.elsewhere elsewhere queue paths, ?_, ?_, ?_, ?_, ?_, ?_⟩
    · exact fun s w here => table ▸ here
    · exact fun s w x _ there => table ▸ there
    · exact fun s w here => elsewhere.id w (living s w here)
    · exact fun s w here => elsewhere.instancePart w (living s w here)
    · exact fun s w here => elsewhere.loadState w (living s w here)
    · exact fun s w here => paths w (living s w here)
  | stub s v t part given fresh free loadable registry queue paths =>
    have living : ∀ x w, l.registry.units.get x = some w -> w ≠ v := by
      rintro x w here rfl
      rw [settled.alive here] at fresh
      cases fresh
    obtain rfl : n = s := by simpa using given
    have loaded := wanted loadable.valid
    have entry : ∀ x w, l'.registry.units.get x = some w ->
        w ≠ v -> l.registry.units.get x = some w := by
      intro x w here ne
      rw [registry, Loading.withStub, NameTable.get_append] at here
      cases old : l.registry.units.get x with
      | none =>
        rw [old, none_or] at here
        split_ifs at here
        exact absurd (some.inj here).symm ne
      | some w' =>
        rw [old, some_or] at here
        exact here
    refine ⟨fun _ canon => ?_, ?_, ?_, ?_, ?_, ?_, ?_⟩
    · exact (canon.withStub fresh free loadable loaded registry queue paths).1.weaken
        fun _ _ => .inl
    · intro x w here
      rw [registry, Loading.withStub, NameTable.get_append, here, some_or]
    · exact fun x w y here there => entry y w there (living x w here)
    · exact fun x w here => by simp [registry, Loading.withStub, living x w here]
    · exact fun x w here => by simp [registry, Loading.withStub, living x w here]
    · exact fun x w here => by simp [registry, Loading.withStub, living x w here]
    · exact fun x w here => by simp [paths, living x w here]

theorem loadUnitLater_extends {r : Except LoadErrno U} (settled : Settled l.registry)
    (wanted : unitNameIsValid n false = true -> Loaded h asked n)
    (run : loadUnitLater h (some n) none l = some (r, l')) : Extends h asked claims l l' := by
  rcases bind_eq_some.mp run with ⟨e, stops, -⟩ | ⟨⟨v, known⟩, middle, first, later⟩
  · exact (managerLoadUnitPrepare_prepares stops).extends settled wanted
  · have extended : Extends h asked claims l middle :=
      (managerLoadUnitPrepare_prepares first).extends settled wanted
    dsimp only at later
    split_ifs at later
    · obtain ⟨-, rfl⟩ := pure_eq_some.mp later
      exact extended
    · obtain ⟨t, -, -, rfl⟩ := unitFollowMerge_eq_some.mp later
      exact extended

theorem unitAddDependency_extends {d : UnitDependency} {other : U} {r : Except LoadErrno Unit}
    (run : unitAddDependency h u d other l = some (r, l')) : Extends h asked claims l l' := by
  obtain ⟨m', result, added, rfl, rfl⟩ := registryCall_eq_some.mp run
  refine ⟨fun busy canon => ?_, ?_, ?_, ?_, ?_, ?_, ?_⟩
  · have held := canon.held.unitAddDependency added
    obtain ⟨links, rfl⟩ := Registry.unitAddDependency_links added
    exact { canon with
      held := held
      stub := fun s w here other stub =>
        have ⟨waits, loaded, fresh⟩ := canon.stub s w here other stub
        ⟨waits, loaded, fresh.only, fresh.id, fresh.path⟩
      done := fun s w here other settled =>
        (canon.done s w here other settled).shrink (fun _ there => there) rfl rfl }
  all_goals
    obtain ⟨links, rfl⟩ := Registry.unitAddDependency_links added
  · exact fun _ _ here => here
  · exact fun _ _ _ _ here => here
  · exact fun _ _ _ => rfl
  · exact fun _ _ _ => rfl
  · exact fun _ _ _ => rfl
  · exact fun _ _ _ => rfl

omit [DecidableEq U] in
theorem resolveTemplate_resolved {i word : CString} {r : Except LoadErrno CString}
    (id : l.registry.id u = some i) (instancePart : l.registry.instancePart u = part)
    (run : resolveTemplate u word l = some (r, l')) :
    l' = l ∧ ∃ name, r = .ok name ∧ resolved i part word = some name := by
  unfold resolveTemplate at run
  rw [resolved]
  split_ifs at run ⊢ with template
  · rw [read_bind, id] at run
    obtain ⟨_, here, run⟩ := orAbort_bind.mp run
    cases here
    obtain ⟨name, replaced, rfl, rfl⟩ := orAbort_eq_some.mp run
    rw [instancePart] at replaced
    exact ⟨rfl, name, rfl, replaced⟩
  · obtain ⟨rfl, rfl⟩ := pure_eq_some.mp run
    exact ⟨rfl, word, rfl, rfl⟩

structure Asking (h : Host U) (asked : List CString) (claims : U -> CString -> Prop) (busy : Option U)
    (u : U) (i : CString) (directive : Directive) (l : Loader U) : Prop where
  canon : Canon h asked claims busy l
  own : ∃ s, l.registry.units.get s = some u
  id : l.registry.id u = some i
  loaded : ∀ part s, unitNameToInstance i = some part -> directive.Asks i part s ->
    unitNameIsValid s false = true -> Loaded h asked s

section

variable {i : CString} {directive : Directive}

section

variable (asking : Asking h asked claims busy u i directive l)
include asking

omit [DecidableEq U] in
theorem Asking.extends (extended : Extends h asked claims l l') :
    Asking h asked claims busy u i directive l' := by
  obtain ⟨s, own⟩ := asking.own
  exact ⟨extended.canon busy asking.canon, ⟨s, extended.table s u own⟩,
    (extended.id s u own).trans asking.id, asking.loaded⟩

theorem unitAddDependencyByName_extends {d : UnitDependency} {word : CString}
    {r : Except LoadErrno Unit}
    (asks : ∀ part s, resolved i part word = some s -> directive.Asks i part s)
    (run : unitAddDependencyByName h u d word none l = some (r, l')) : Extends h asked claims l l' := by
  obtain ⟨s, own⟩ := asking.own
  have part := asking.canon.part s u i own asking.id
  rcases bind_eq_some.mp run with ⟨e, stops, -⟩ | ⟨name, middle, first, later⟩
  · obtain ⟨-, _, wrong, -⟩ := resolveTemplate_resolved asking.id rfl stops
    cases wrong
  · obtain ⟨rfl, _, same, replaced⟩ := resolveTemplate_resolved asking.id rfl first
    cases same
    have wanted := asking.loaded _ name part (asks _ name replaced)
    rcases bind_eq_some.mp later with ⟨e, stops, -⟩ | ⟨other, last, loaded, added⟩
    · exact loadUnitLater_extends asking.canon.held.1 wanted stops
    · exact (loadUnitLater_extends asking.canon.held.1 wanted loaded).trans
        (unitAddDependency_extends added)

theorem runDirective_extends (honest : directive.gives = false) :
    Keeps (Extends h asked claims l) (runDirective h u directive) := by
  cases directive with
  | names words => cases honest
  | provides name => cases honest
  | dependencies d words =>
    refine .untilFails fun word listed now r l' extended run => extended.trans ?_
    exact unitAddDependencyByName_extends (asking.extends extended)
      (fun part s replaced => ⟨word, listed, replaced⟩) run
  | unit name =>
    refine .bind (.attempt fun now r l' extended run => extended.trans ?_) fun _ => .pure ()
    have here := asking.extends extended
    obtain ⟨s, own⟩ := here.own
    exact loadUnitLater_extends here.canon.held.1
      (here.loaded _ name (here.canon.part s u i own here.id) rfl) run
  | needs d name =>
    intro now r l' extended run
    exact extended.trans (unitAddDependencyByName_extends (asking.extends extended)
      (fun part s replaced => replaced) run)

end

end

end Systemd.Loading
