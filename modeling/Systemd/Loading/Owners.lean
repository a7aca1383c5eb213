import Systemd.Loading.Loader
import Systemd.Units.NameIndex

set_option autoImplicit false

namespace Systemd.Loading

open Program Option Function

variable {U : Type} [DecidableEq U]

structure Settled (m : Registry U) : Prop where
  indexed : m.Indexed
  mergedInto : ∀ u, m.alive u = true -> ((m.mergedInto u).isSome = true ↔ m.loadState u = .merged)
  nameless : ∀ u, m.loadState u = .merged -> m.names u = none

inductive Leads (m : Registry U) : U -> U -> Prop where
  | stays (u : U) : m.alive u = true -> m.loadState u ≠ .merged -> Leads m u u
  | follows (u v t : U) : m.alive u = true -> m.loadState u = .merged -> m.mergedInto u = some v ->
      Leads m v t -> Leads m u t

def Owner (m : Registry U) (u : U) (s : CString) : Prop :=
  ∃ t, Leads m u t ∧ m.units.get s = some t

def Held (claims : U -> CString -> Prop) (m : Registry U) : Prop :=
  Settled m ∧ ∀ u s, claims u s -> Owner m u s

section

omit [DecidableEq U]

variable {m m' : Registry U} {u t t' : U} {s : CString} {claims : U -> CString -> Prop}

theorem Leads.of_follow {fuel : Nat} (run : m.unitFollowMerge fuel u = some t) : Leads m u t := by
  induction fuel generalizing u with
  | zero => simp [Registry.unitFollowMerge] at run
  | succ fuel ih =>
    rw [Registry.unitFollowMerge] at run
    split_ifs at run with dead merged
    · obtain ⟨v, into, rest⟩ := Option.bind_eq_some_iff.mp run
      exact .follows u v t (by simpa using dead) merged into (ih rest)
    · cases run
      exact .stays _ (by simpa using dead) merged

theorem Leads.unique (first : Leads m u t) (second : Leads m u t') : t = t' := by
  induction first with
  | stays u _ unmerged =>
    cases second with
    | stays => rfl
    | follows _ v _ _ merged => exact absurd merged unmerged
  | follows u v t _ merged into _ ih =>
    cases second with
    | stays _ _ unmerged => exact absurd merged unmerged
    | follows _ v' _ _ _ into' rest =>
      rw [into] at into'
      cases into'
      exact ih rest

theorem Leads.ends (leads : Leads m u t) : m.alive t = true ∧ m.loadState t ≠ .merged := by
  induction leads with
  | stays u alive unmerged => exact ⟨alive, unmerged⟩
  | follows _ _ _ _ _ _ _ ih => exact ih

theorem Leads.carry (leads : Leads m u t) (alive : ∀ v, m.alive v = true -> m'.alive v = true)
    (states : ∀ v, m.alive v = true -> (m'.loadState v = .merged ↔ m.loadState v = .merged))
    (into : ∀ v, m.alive v = true -> m'.mergedInto v = m.mergedInto v) : Leads m' u t := by
  induction leads with
  | stays u living unmerged => exact .stays u (alive u living) (mt (states u living).mp unmerged)
  | follows u v t living merged target _ ih =>
    exact .follows u v t (alive u living) ((states u living).mpr merged)
      ((into u living).trans target) ih

theorem Settled.unmerged (settled : Settled m) (here : m.units.get s = some u) :
    m.loadState u ≠ .merged := by
  intro merged
  have named := (settled.indexed.table s u).mp here
  rw [Registry.Named, settled.nameless u merged] at named
  simp [Registry.setMembers] at named

theorem Settled.alive (settled : Settled m) (here : m.units.get s = some u) : m.alive u = true := by
  by_contra dead
  have named := (settled.indexed.table s u).mp here
  rw [Registry.Named, settled.indexed.freed u (by simpa using dead)] at named
  simp [Registry.setMembers] at named

theorem Settled.empty : Settled (Registry.empty : Registry U) := by
  refine ⟨.empty, ?_, ?_⟩
  · intro u alive
    simp [Registry.empty] at alive
  · intro u merged
    simp [Registry.empty] at merged

theorem Held.namesOnly (held : Held claims m) (indexed : m'.Indexed) (same : Registry.NamesOnly m m')
    (names : ∀ v, m.loadState v = .merged -> m'.names v = m.names v)
    (table : ∀ x v, m.units.get x = some v -> m'.units.get x = some v) : Held claims m' := by
  obtain ⟨settled, owners⟩ := held
  refine ⟨⟨indexed, ?_, ?_⟩, ?_⟩
  · intro v alive
    rw [same.alive] at alive
    rw [same.mergedInto, same.loadState]
    exact settled.mergedInto v alive
  · intro v merged
    rw [same.loadState] at merged
    rw [names v merged]
    exact settled.nameless v merged
  · intro w s claimed
    obtain ⟨t, leads, owned⟩ := owners w s claimed
    refine ⟨t, leads.carry ?_ ?_ ?_, table s t owned⟩
    all_goals
      intro v alive
    · rw [same.alive]
      exact alive
    · rw [same.loadState]
    · rw [same.mergedInto]

end

section

variable {m m' : Registry U} {u : U} {claims : U -> CString -> Prop} {result : Except RegistryErrno Unit}

variable {allocates : NameAllocation -> Bool} {text : CString} {other : U} {fuel : Nat}

theorem unitAddName_table (run : m.unitAddName allocates u text = some (m', result)) :
    (∀ x v, m.units.get x = some v -> m'.units.get x = some v) ∧
      ∀ v, v ≠ u -> m'.names v = m.names v := by
  have adopt : ∀ (m : Registry U) name t part, (Registry.adoptName m u name t part).units = m.units ∧
      (Registry.adoptName m u name t part).names = m.names := by
    intro m name t part
    unfold Registry.adoptName
    split_ifs <;> exact ⟨rfl, rfl⟩
  rcases Registry.unitAddName_cases run with rfl | ⟨name, t, part, set, entered, -, -, -, -, enter, rfl, -⟩
  · exact ⟨fun _ _ here => here, fun _ _ => rfl⟩
  rw [(adopt entered name t part).1, (adopt entered name t part).2]
  unfold Registry.enterName at enter
  split at enter
  · split_ifs at enter
    cases enter
    exact ⟨fun _ _ here => here, fun v other => update_of_ne other _ _⟩
  · split_ifs at enter
    cases enter
    refine ⟨fun x v here => ?_, fun v other => update_of_ne other _ _⟩
    rw [NameTable.get_append, here, some_or]

theorem Held.unitAddName (held : Held claims m) (unmerged : m.loadState u ≠ .merged)
    (run : m.unitAddName allocates u text = some (m', result)) : Held claims m' := by
  obtain ⟨table, names⟩ := unitAddName_table run
  refine held.namesOnly (held.1.indexed.unitAddName run) (Registry.unitAddName_namesOnly run) ?_ table
  rintro v merged
  exact names v fun same => unmerged (same ▸ merged)

theorem Held.unitChooseId (held : Held claims m)
    (run : m.unitChooseId allocates u text = some (m', result)) : Held claims m' := by
  refine held.namesOnly (held.1.indexed.unitChooseId run) (Registry.unitChooseId_namesOnly run) ?_ ?_
  all_goals
    rcases Registry.unitChooseId_cases run with rfl | ⟨name, part, set, -, -, -, rfl⟩
  · exact fun _ _ => rfl
  · exact fun _ _ => rfl
  · exact fun _ _ here => here
  · exact fun _ _ here => here

theorem Held.unitAddDependency {allocates : AddAllocation -> Bool} {d : UnitDependency}
    {addReference : Bool} (held : Held claims m)
    (run : m.unitAddDependency allocates fuel u d other addReference = some (m', result)) :
    Held claims m' := by
  obtain ⟨links, rfl⟩ := Registry.unitAddDependency_links run
  obtain ⟨⟨indexed, mergedInto, nameless⟩, owners⟩ := held
  refine ⟨⟨⟨indexed.table, indexed.kind, indexed.part, indexed.chosen, indexed.freed⟩, mergedInto, nameless⟩, ?_⟩
  intro w s claimed
  obtain ⟨t, leads, owned⟩ := owners w s claimed
  exact ⟨t, leads.carry (fun _ alive => alive) (fun _ _ => Iff.rfl) (fun _ _ => rfl), owned⟩

structure Merges (m m' : Registry U) (u other : U) : Prop where
  distinct : other ≠ u
  alive : m'.alive = m.alive
  loadState : m'.loadState = update m.loadState other .merged
  mergedInto : m'.mergedInto = update m.mergedInto other (some u)
  names : m'.names = update (update m.names u
    (OrderedSet.completeMove (m.names u) (m.names other))) other none
  table : ∀ x, m'.units.get x =
    if x ∈ Registry.setMembers (OrderedSet.completeMove (m.names u) (m.names other)) then some u
    else m.units.get x
  id : m'.id = update m.id other none
  instancePart : m'.instancePart = m.instancePart
  type : m'.type = m.type
  hasJob : m'.hasJob = m.hasJob
  activeState : m'.activeState = m.activeState
  keys : m'.units.map Prod.fst = m.units.map Prod.fst

omit [DecidableEq U] in
theorem replaceAll_keys {names : List CString} {table table' : NameTable U}
    (run : names.foldlM (fun table name => NameTable.replace table name u) table = some table') :
    table'.map Prod.fst = table.map Prod.fst := by
  induction names generalizing table with
  | nil =>
    simp only [List.foldlM_nil, Option.pure_def, Option.some.injEq] at run
    rw [run]
  | cons name rest ih =>
    simp only [List.foldlM_cons, Option.bind_eq_bind, Option.bind_eq_some_iff] at run
    obtain ⟨next, first, later⟩ := run
    rw [ih later]
    unfold NameTable.replace at first
    split_ifs at first
    cases first
    rw [List.map_map]
    refine List.map_congr_left fun entry _ => ?_
    by_cases here : entry.1 = name
    · simp [here]
    · simp [here]

theorem mergeUnits_merges (distinct : other ≠ u) (run : m.mergeUnits fuel u other = some m') :
    Merges m m' u other := by
  obtain ⟨renamed, links, names, -, rfl⟩ := Registry.mergeUnits_cases run
  obtain ⟨units, table, rfl⟩ := map_eq_some_iff.mp names
  exact ⟨distinct, rfl, rfl, rfl, rfl, NameTable.get_replaceAll table, rfl, rfl, rfl, rfl, rfl,
    replaceAll_keys table⟩

theorem Merges.held (merges : Merges m m' u other) (held : Held claims m) (indexed : m'.Indexed)
    (living : m.alive u = true) (unmerged : m.loadState u ≠ .merged)
    (live : m.loadState other ≠ .merged) : Held claims m' := by
  obtain ⟨settled, owners⟩ := held
  refine ⟨⟨indexed, ?_, ?_⟩, ?_⟩
  · intro v alive
    rw [merges.alive] at alive
    rw [merges.mergedInto, merges.loadState]
    by_cases gone : v = other
    · simp [gone]
    · simpa [gone] using settled.mergedInto v alive
  · intro v merged
    rw [merges.loadState] at merged
    rw [merges.names]
    by_cases gone : v = other
    · simp [gone]
    · rw [update_of_ne gone] at merged
      have distinct : v ≠ u := fun same => unmerged (same ▸ merged)
      simp [gone, distinct, settled.nameless v merged]
  -- The chain goes on to u if it ended in the unit that is merged away.
  · have onward : ∀ {x y}, Leads m x y -> Leads m' x (if y = other then u else y) := by
      intro x y chain
      induction chain with
      | stays x alive stays =>
        by_cases gone : x = other
        · rw [if_pos gone]
          refine .follows x u u (by rwa [merges.alive]) (by simp [merges.loadState, gone])
            (by simp [merges.mergedInto, gone]) (.stays u (by rwa [merges.alive]) ?_)
          rwa [merges.loadState, update_of_ne merges.distinct.symm]
        · rw [if_neg gone]
          refine .stays x (by rwa [merges.alive]) ?_
          rwa [merges.loadState, update_of_ne gone]
      | follows x v y alive merged into _ ih =>
        have distinct : x ≠ other := fun same => live (same ▸ merged)
        exact .follows x v _ (by rwa [merges.alive])
          (by rwa [merges.loadState, update_of_ne distinct])
          (by rwa [merges.mergedInto, update_of_ne distinct]) ih
    intro w s claimed
    obtain ⟨t, leads, owned⟩ := owners w s claimed
    refine ⟨_, onward leads, ?_⟩
    have named := (settled.indexed.table s t).mp owned
    have entry := merges.table s
    simp only [Registry.mem_setMembers_completeMove] at entry
    rw [entry]
    by_cases gone : t = other
    · subst gone
      rw [if_pos rfl, if_pos (.inr named)]
    · rw [if_neg gone]
      by_cases taken : s ∈ Registry.setMembers (m.names u) ∨ s ∈ Registry.setMembers (m.names other)
      · rw [if_pos taken]
        rcases taken with mine | theirs
        · rwa [← (settled.indexed.table s u).mpr mine]
        · have same := (settled.indexed.table s other).mpr theirs
          rw [owned] at same
          exact absurd (Option.some.inj same) gone
      · rw [if_neg taken]
        exact owned

theorem Held.unitMerge (held : Held claims m) (unmerged : m.loadState u ≠ .merged)
    (run : m.unitMerge fuel u other = some (m', result)) : Held claims m' := by
  rcases Registry.unitMerge_cases run with ⟨rfl, -⟩ | ⟨target, found, alive, -, merged⟩
  · exact held
  obtain ⟨distinct, -, live, types, parts⟩ := Registry.mergeTarget_spec found
  exact (mergeUnits_merges distinct merged).held held
    (held.1.indexed.mergeUnits distinct alive types parts merged) alive unmerged live

theorem unitMerge_states (run : m.unitMerge fuel u other = some (m', result)) :
    m'.loadState u = m.loadState u ∧ ∀ v, m'.loadState v = m.loadState v ∨ m'.loadState v = .merged := by
  rcases Registry.unitMerge_cases run with ⟨rfl, -⟩ | ⟨target, found, -, -, merged⟩
  · exact ⟨rfl, fun _ => .inl rfl⟩
  have merges := mergeUnits_merges (Registry.mergeTarget_spec found).1 merged
  rw [merges.loadState]
  refine ⟨update_of_ne merges.distinct.symm _ _, fun v => ?_⟩
  by_cases gone : v = target
  · exact .inr (by simp [gone])
  · exact .inl (update_of_ne gone _ _)

theorem unitMerge_outcome (live : m.loadState other ≠ .merged)
    (run : m.unitMerge fuel u other = some (m', result)) :
    (other = u ∧ result = .ok () ∧ m' = m) ∨
      (other ≠ u ∧ (∃ e, result = .error e) ∧ m' = m ∧
        ¬(m.type u = m.type other ∧ (m.instancePart u).isSome = (m.instancePart other).isSome ∧
          m.canMergeAway other = true)) ∨
      (result = .ok () ∧ m.type u = m.type other ∧
        (m.instancePart u).isSome = (m.instancePart other).isSome ∧ m.canMergeAway other = true ∧
        Merges m m' u other) := by
  unfold Registry.unitMerge at run
  split_ifs at run
  obtain ⟨target, follow, run⟩ := Option.bind_eq_some_iff.mp run
  have last : Leads m other target := .of_follow follow
  obtain rfl : other = target := by
    cases last with
    | stays => rfl
    | follows _ _ _ _ merged => exact absurd merged live
  split_ifs at run with same types parts busy
  · cases run
    exact .inl ⟨same, rfl, rfl⟩
  · cases run
    exact .inr (.inl ⟨same, ⟨_, rfl⟩, rfl, fun fits => types fits.1⟩)
  · cases run
    exact .inr (.inl ⟨same, ⟨_, rfl⟩, rfl, fun fits => parts fits.2.1⟩)
  · cases run
    exact .inr (.inl ⟨same, ⟨_, rfl⟩, rfl, fun fits => by simp [busy] at fits⟩)
  · obtain ⟨merged, units, run⟩ := map_eq_some_iff.mp run
    cases run
    exact .inr (.inr ⟨rfl, not_not.mp types, not_not.mp parts, by simpa using busy,
      mergeUnits_merges same units⟩)

theorem Held.unitNew (held : Held claims m) (run : m.unitNew u = some m') : Held claims m' := by
  have indexed := held.1.indexed.unitNew run
  unfold Registry.unitNew at run
  split_ifs at run with living
  cases run
  obtain ⟨settled, owners⟩ := held
  have other : ∀ {v}, m.alive v = true -> v ≠ u := by
    rintro v alive rfl
    exact living alive
  refine ⟨⟨indexed, ?_, ?_⟩, ?_⟩
  · intro v alive
    by_cases new : v = u
    · simp [new]
    · simpa [new] using settled.mergedInto v (by simpa [new] using alive)
  · intro v merged
    by_cases new : v = u
    · simp [new] at merged
    · simpa [new] using settled.nameless v (by simpa [new] using merged)
  · intro w s claimed
    obtain ⟨t, leads, owned⟩ := owners w s claimed
    refine ⟨t, leads.carry ?_ ?_ ?_, owned⟩
    all_goals
      intro v alive
    · simp [other alive, alive]
    · simp [other alive]
    · simp [other alive]

theorem Held.setLoadState {loadState : UnitLoadState} (held : Held claims m)
    (before : m.loadState u ≠ .merged) (after : loadState ≠ .merged) :
    Held claims { m with loadState := update m.loadState u loadState } := by
  have same : ∀ v, update m.loadState u loadState v = .merged ↔ m.loadState v = .merged := by
    intro v
    by_cases here : v = u
    · simp [here, before, after]
    · simp [here]
  obtain ⟨⟨indexed, mergedInto, nameless⟩, owners⟩ := held
  refine ⟨⟨⟨indexed.table, indexed.kind, indexed.part, ?_, indexed.freed⟩, ?_, ?_⟩, ?_⟩
  · intro v alive typed live
    exact indexed.chosen v alive typed (mt (same v).mpr live)
  · intro v alive
    exact (mergedInto v alive).trans (same v).symm
  · intro v merged
    exact nameless v ((same v).mp merged)
  · intro w s claimed
    obtain ⟨t, leads, owned⟩ := owners w s claimed
    exact ⟨t, leads.carry (fun _ alive => alive) (fun v _ => same v) (fun _ _ => rfl), owned⟩

end

end Systemd.Loading
