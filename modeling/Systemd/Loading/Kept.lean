import Systemd.Loading.Calls

set_option autoImplicit false

namespace Systemd.Loading

open Program

variable {U : Type} [DecidableEq U] {h : Host U} {l l' : Loader U} {claims : U -> CString -> Prop}

section

variable {m m' : Registry U} {u : U}

omit [DecidableEq U] in
theorem Held.mono {fewer : U -> CString -> Prop} (held : Held claims m)
    (claimed : ∀ w s, fewer w s -> claims w s) : Held fewer m :=
  ⟨held.1, fun w s given => held.2 w s (claimed w s given)⟩

omit [DecidableEq U] in
theorem Held.elsewhere (held : Held claims m) (elsewhere : Elsewhere m m' u) : Held claims m' := by
  obtain ⟨settled, owners⟩ := held
  have indexed := settled.indexed
  have named : ∀ v s, m'.Named v s ↔ m.Named v s := by
    intro v s
    by_cases same : v = u
    · rw [same, Registry.Named, Registry.Named, elsewhere.nameless,
        indexed.freed u elsewhere.before]
    · rw [Registry.Named, Registry.Named, elsewhere.names v same]
  have other : ∀ v, m.alive v = true -> v ≠ u := by
    rintro v alive rfl
    rw [elsewhere.before] at alive
    cases alive
  have other' : ∀ v, m'.alive v = true -> v ≠ u := by
    rintro v alive rfl
    rw [elsewhere.after] at alive
    cases alive
  have nameless : ∀ v, m.names v ≠ none -> v ≠ u := by
    rintro v some rfl
    exact some (indexed.freed v elsewhere.before)
  have holder : ∀ {v s}, m.Named v s -> v ≠ u := by
    intro v s here
    refine nameless v fun none => ?_
    rw [Registry.Named, none] at here
    simp [Registry.setMembers] at here
  refine ⟨⟨⟨?_, ?_, ?_, ?_, ?_⟩, ?_, ?_⟩, ?_⟩
  · intro s v
    rw [elsewhere.units, named]
    exact indexed.table s v
  · intro v s here
    have old := (named v s).mp here
    rw [elsewhere.type v (holder old)]
    exact indexed.kind v s old
  · intro v s here
    have old := (named v s).mp here
    rw [elsewhere.instancePart v (holder old)]
    exact indexed.part v s old
  · intro v alive typed live
    have ne := other' v alive
    rw [elsewhere.alive v ne] at alive
    rw [elsewhere.type v ne] at typed
    rw [elsewhere.loadState v ne] at live
    obtain ⟨s, chosen, old⟩ := indexed.chosen v alive typed live
    exact ⟨s, (elsewhere.id v ne).trans chosen, (named v s).mpr old⟩
  · intro v dead
    by_cases same : v = u
    · exact same ▸ elsewhere.nameless
    · rw [elsewhere.names v same]
      exact indexed.freed v ((elsewhere.alive v same).symm.trans dead)
  · intro v alive
    have ne := other' v alive
    rw [elsewhere.mergedInto v ne, elsewhere.loadState v ne]
    exact settled.mergedInto v ((elsewhere.alive v ne).symm.trans alive)
  · intro v merged
    by_cases same : v = u
    · exact same ▸ elsewhere.nameless
    · rw [elsewhere.names v same]
      exact settled.nameless v ((elsewhere.loadState v same).symm.trans merged)
  · intro w s claimed
    obtain ⟨t, leads, owned⟩ := owners w s claimed
    refine ⟨t, leads.carry ?_ ?_ ?_, by rw [elsewhere.units, owned]⟩
    all_goals
      intro v alive
      have ne := other v alive
    · exact (elsewhere.alive v ne).trans alive
    · rw [elsewhere.loadState v ne]
    · exact elsewhere.mergedInto v ne

theorem Held.withStub {s : CString} {t : UnitType} {part : Option CString} (held : Held claims m)
    (fresh : m.alive u = false) (free : m.units.get s = none) (loadable : Loadable s t part) :
    Held (fun w x => claims w x ∨ (w = u ∧ x = s)) (withStub m u s t part) := by
  obtain ⟨m1, new⟩ : ∃ m1, m.unitNew u = some m1 := by
    rw [Registry.unitNew, if_neg (by simp [fresh])]
    exact ⟨_, rfl⟩
  have stubs := held.unitNew new
  obtain ⟨-, rfl⟩ := unitNew_stub new
  have nameless : Function.update m.names u (some OrderedSet.empty) u = some .empty := by simp
  have indexed := stubs.1.indexed.enter nameless free loadable.kind loadable.piece (.inl (by simp))
  rw [Registry.adoptName, if_pos (by simp)] at indexed
  have named : Held claims (Loading.withStub m u s t part) := by
    refine stubs.namesOnly (by simpa [Loading.withStub] using indexed) ⟨rfl, rfl, rfl, rfl⟩ ?_ ?_
    · intro v merged
      by_cases same : v = u
      · simp [same] at merged
      · simp [Loading.withStub, same]
    · intro x v here
      rw [Loading.withStub, NameTable.get_append, here, Option.some_or]
  refine ⟨named.1, ?_⟩
  rintro w x (claimed | ⟨rfl, rfl⟩)
  · exact named.2 w x claimed
  · refine ⟨w, .stays w (by simp [Loading.withStub]) (by simp [Loading.withStub]), ?_⟩
    simp [Loading.withStub, NameTable.get_append, free]

end

def Ready (claims : U -> CString -> Prop) (u : U) (l : Loader U) : Prop :=
  Held claims l.registry ∧ l.registry.loadState u ≠ .merged

theorem Ready.prepares {u : U} {name path : Option CString} {r : Except LoadErrno (U × Bool)}
    (ready : Ready claims u l) (prepares : Prepares l l' name path r) : Ready claims u l' := by
  obtain ⟨held, unmerged⟩ := ready
  cases prepares with
  | refused e same => exact same ▸ ⟨held, unmerged⟩
  | dropped e v elsewhere queue paths =>
    refine ⟨held.elsewhere elsewhere, ?_⟩
    by_cases same : u = v
    · exact same ▸ elsewhere.fresh
    · rwa [elsewhere.loadState u same]
  | known s v given same entry => exact same ▸ ⟨held, unmerged⟩
  | stub s v t part given fresh free loadable registry queue paths =>
    rw [Ready, registry]
    refine ⟨(held.withStub fresh free loadable).mono fun _ _ => .inl, ?_⟩
    by_cases same : u = v
    · simp [Loading.withStub, same]
    · simpa [Loading.withStub, same] using unmerged

section

variable {u : U}

theorem keeps_prepare (name path : Option CString) :
    Keeps (Ready claims u) (managerLoadUnitPrepare h name path) := by
  intro l r l' ready run
  exact ready.prepares (managerLoadUnitPrepare_prepares run)

variable {P : Loader U -> Prop} {v : U}

section

omit [DecidableEq U]

theorem keeps_unitFollowMerge (v : U) : Keeps P (unitFollowMerge h v) := by
  intro l r l' holds run
  obtain ⟨t, -, -, rfl⟩ := unitFollowMerge_eq_some.mp run
  exact holds

theorem orAbort_then {A B : Type} {Q : Except LoadErrno B -> Loader U -> Prop} {value : Option A}
    {f : A -> Load U B} (later : ∀ a, value = some a -> Triple P (f a) Q) :
    Triple P (orAbort value >>= f) Q := by
  intro l r l' holds run
  obtain ⟨a, here, run⟩ := orAbort_bind.mp run
  exact later a here l r l' holds run

theorem keeps_orAbort {A : Type} (value : Option A) : Keeps P (orAbort value : Load U A) := by
  cases value with
  | none => exact .abort
  | some a => exact .pure a

end

theorem keeps_loadUnitLater (name path : Option CString) :
    Keeps (Ready claims u) (loadUnitLater h name path) := by
  refine .bind (keeps_prepare name path) ?_
  rintro ⟨v, known⟩
  dsimp only
  split_ifs
  · exact .pure v
  · exact keeps_unitFollowMerge v

theorem keeps_unitAddDependency {other : U} {d : UnitDependency} :
    Keeps (Ready claims u) (unitAddDependency h v d other) := by
  intro l r l' ⟨held, unmerged⟩ run
  obtain ⟨m', result, added, rfl, rfl⟩ := registryCall_eq_some.mp run
  refine ⟨held.unitAddDependency added, ?_⟩
  obtain ⟨links, rfl⟩ := Registry.unitAddDependency_links added
  exact unmerged

omit [DecidableEq U] in
theorem keeps_resolveTemplate (v : U) (name : CString) : Keeps P (resolveTemplate v name) := by
  unfold resolveTemplate
  split_ifs
  · exact .read fun l => .bind (keeps_orAbort _) fun _ => keeps_orAbort _
  · exact .pure name

theorem keeps_unitAddDependencyByName (d : UnitDependency) (name : CString) (path : Option CString) :
    Keeps (Ready claims u) (unitAddDependencyByName h v d name path) :=
  .bind (keeps_resolveTemplate v name) fun name =>
    .bind (keeps_loadUnitLater (some name) path) fun _ => keeps_unitAddDependency

theorem keeps_unitAddName (name : CString) : Keeps (Ready claims u) (unitAddName u name) := by
  intro l r l' ⟨held, unmerged⟩ run
  obtain ⟨m', result, added, rfl, rfl⟩ := registryCall_eq_some.mp run
  refine ⟨held.unitAddName unmerged added, ?_⟩
  rwa [(Registry.unitAddName_namesOnly added).loadState]

theorem unitMergeByName_states {text : CString} {r : Except LoadErrno Unit}
    (run : unitMergeByName h u text l = some (r, l')) :
    l'.registry.loadState u = l.registry.loadState u ∧ ∀ v,
      l'.registry.loadState v = l.registry.loadState v ∨ l'.registry.loadState v = .merged := by
  rcases unitMergeByName_cases run with ⟨rfl, -⟩ |
    ⟨name, m', result, -, rfl, -, ⟨-, added⟩ | ⟨other, -, merged⟩⟩
  · exact ⟨rfl, fun _ => .inl rfl⟩
  · have same := (Registry.unitAddName_namesOnly added).loadState
    exact ⟨congrFun same u, fun v => .inl (congrFun same v)⟩
  · exact unitMerge_states merged

theorem keeps_unitMergeByName (text : CString) : Keeps (Ready claims u) (unitMergeByName h u text) := by
  intro l r l' ⟨held, unmerged⟩ run
  have states := (unitMergeByName_states run).1
  refine ⟨?_, by rwa [states]⟩
  rcases unitMergeByName_cases run with ⟨rfl, -⟩ |
    ⟨name, m', result, -, rfl, -, ⟨-, added⟩ | ⟨other, -, merged⟩⟩
  · exact held
  · exact held.unitAddName unmerged added
  · exact held.unitMerge unmerged merged

theorem keeps_runDirective (directive : Directive) :
    Keeps (Ready claims u) (runDirective h u directive) := by
  cases directive with
  | names words => exact .untilFails fun word _ => keeps_unitMergeByName word
  | provides name => exact .bind (.attempt (keeps_unitAddName name)) fun _ => .pure ()
  | dependencies d words =>
    exact .untilFails fun word _ => keeps_unitAddDependencyByName d word none
  | unit name => exact .bind (.attempt (keeps_loadUnitLater (some name) none)) fun _ => .pure ()
  | needs d name => exact keeps_unitAddDependencyByName d name none

omit [DecidableEq U] in
theorem keeps_orFail (result : Except LoadErrno Unit) : Keeps P (orFail result : Load U Unit) := by
  cases result with
  | error e => exact .fail e
  | ok _ => exact .pure ()

theorem keeps_configParse (contents : Contents) : Keeps (Ready claims u) (configParse h u contents) :=
  .read fun _ => .bind (.forEach fun directive _ => keeps_runDirective directive) fun _ =>
    keeps_orFail _

theorem keeps_setLoadState {loadState : UnitLoadState} (after : loadState ≠ .merged) :
    Keeps (Ready claims u) (setLoadState u loadState) := by
  refine Triple.change fun l ready => ⟨ready.1.setLoadState ready.2 after, ?_⟩
  simpa using after

theorem keeps_setFragmentPath (path : Option CString) :
    Keeps (Ready claims u) (setFragmentPath u path) :=
  Triple.change fun _ ready => ready

theorem keeps_readContents (contents : Contents) :
    Keeps (Ready claims u) (readContents h u contents) := by
  unfold readContents
  split_ifs
  · exact keeps_setLoadState (by decide)
  · exact .bind (keeps_configParse contents) fun _ => keeps_setLoadState (by decide)

def HeldNow (claims : U -> CString -> Prop) (l : Loader U) : Prop := Held claims l.registry

omit [DecidableEq U] in
theorem keeps_unitNames : Keeps P (unitNames u) :=
  .read fun l => .pure (Registry.setMembers (l.registry.names u))

theorem keeps_iterateDir (path : CString) (d : UnitDependency) :
    Keeps (Ready claims u) (iterateDir h v path d) := by
  unfold iterateDir
  split_ifs
  · cases h.openDirectory path with
    | error e =>
      dsimp only
      split_ifs
      · exact .pure ()
      · exact .fail e
    | ok entries =>
      exact .forEach fun entry _ =>
        .bind (.attempt (keeps_unitAddDependencyByName d entry _)) fun _ => .pure ()
  · exact .pure ()

theorem keeps_processDir (unitPath name suffix : CString) (d : UnitDependency) :
    Keeps (Ready claims u) (processDir h v unitPath name suffix d) := by
  refine .bind (keeps_iterateDir _ d) fun _ => .read fun l => ?_
  split_ifs
  · exact .bind (keeps_orAbort _) fun template => keeps_iterateDir _ d
  · exact .pure ()

theorem keeps_unitLoadDropin : Keeps (Ready claims u) (unitLoadDropin h v) :=
  .bind keeps_unitNames fun _ => .forEach fun _ _ => .forEach fun _ _ =>
    .bind (keeps_processDir _ _ _ _) fun _ => keeps_processDir _ _ _ _

theorem keeps_dropin : Keeps (HeldNow claims) (dropin h u) := by
  intro l r l' held run
  rcases bind_eq_some.mp run with ⟨e, stops, -⟩ | ⟨v, middle, here, later⟩
  · obtain ⟨t, -, wrong, -⟩ := unitFollowMerge_eq_some.mp stops
    cases wrong
  · obtain ⟨t, follow, same, rfl⟩ := unitFollowMerge_eq_some.mp here
    cases same
    have unmerged := (Registry.unitFollowMerge_spec follow).2
    exact (keeps_unitLoadDropin (u := v) middle r l' ⟨held, unmerged⟩ later).1

omit [DecidableEq U] in
theorem keeps_ifStub {p : Load U Unit} (given : Keeps (Ready claims u) p) :
    Keeps (Ready claims u) (whileStub u p) := by
  refine .read fun l => ?_
  split_ifs
  · exact given
  · exact .pure ()

theorem keeps_serviceLoadSysv : Keeps (Ready claims u) (serviceLoadSysv h u) := by
  have script : ∀ path, Keeps (Ready claims u) (serviceLoadSysvPath h u path) := by
    intro path
    unfold serviceLoadSysvPath
    cases h.openScript path with
    | error e =>
      dsimp only
      split_ifs
      · exact .pure ()
      · exact .fail e
    | ok contents => exact keeps_readContents contents
  have named : ∀ name, Keeps (Ready claims u) (serviceLoadSysvName h u name) := fun name =>
    .forEach fun p _ => keeps_ifStub (script _)
  exact .read fun l => .bind (keeps_orAbort _) fun id => .bind (named id) fun _ =>
    .forEach fun t _ => keeps_ifStub (named t)

end

end Systemd.Loading
