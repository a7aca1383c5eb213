import Systemd.Units.Symmetric

set_option autoImplicit false

namespace Systemd.Registry

open Links Option

variable {U : Type} [DecidableEq U]

def NoSelf (m : Registry U) : Prop :=
  ∀ d u, ¬ m.dependencies.Linked d u u

def mergesApart (fuel : Nat) (m : Registry U) : Call U -> Prop
  | .merge u other =>
    ∀ target ∈ mergeTarget fuel m u other, ∀ d, ¬ m.dependencies.Linked d target u
  | _ => True

instance (fuel : Nat) (m : Registry U) : (call : Call U) -> Decidable (mergesApart fuel m call)
  | .merge u other =>
    inferInstanceAs (Decidable (∀ target ∈ mergeTarget fuel m u other, ∀ d, ¬ m.dependencies.Linked d target u))
  | .new _ | .addName _ _ _ | .chooseId _ _ _ | .addDependency _ _ _ _ _ | .free _ | .progress _ _ _ _ =>
    .isTrue trivial

variable {m m' : Registry U} {u : U} {fuel : Nat}

section

variable (none' : NoSelf m)
include none'

omit [DecidableEq U] in
theorem NoSelf.fewer (old : ∀ d x y, m'.dependencies.Linked d x y -> m.dependencies.Linked d x y) :
    NoSelf m' :=
  fun d u linked => none' d u (old d u u linked)

theorem NoSelf.unitNew (run : unitNew m u = some m') : NoSelf m' := by
  unfold Registry.unitNew at run
  split_ifs at run
  cases run
  refine none'.fewer ?_
  intro d x y linked
  by_cases same : x = u
  · simp [Links.Linked, same] at linked
  · exact (linked_congr (by simp [same]) y).mp linked

theorem NoSelf.unitAddDependency {allocates : AddAllocation -> Bool} {other : U} {d : UnitDependency}
    {addReference : Bool} {result : Except RegistryErrno Unit}
    (run : unitAddDependency allocates fuel m u d other addReference = some (m', result)) :
    NoSelf m' := by
  obtain ⟨source, -, run⟩ := bind_eq_some_iff.mp run
  obtain ⟨target, -, run⟩ := bind_eq_some_iff.mp run
  by_cases same : source = target
  · rw [if_pos same] at run
    cases run
    exact none'
  rw [if_neg same] at run
  cases outcome : m.dependencies.addDependency allocates source d target addReference with
  | error links =>
    rw [outcome] at run
    cases run
    exact none'.fewer fun k x y linked => (addDependency_error outcome k x y).mp linked
  | ok links =>
    rw [outcome] at run
    cases run
    intro k x linked
    rw [addDependency_ok outcome] at linked
    rcases linked with old | ⟨-, here, there⟩ | ⟨-, there, here⟩ | ⟨-, ⟨-, here, there⟩ | ⟨-, there, here⟩⟩
    · exact none' k x old
    all_goals exact same (here.symm.trans there)

theorem NoSelf.unitFree (run : unitFree fuel m u = some m') : NoSelf m' := by
  unfold Registry.unitFree at run
  split_ifs at run
  obtain ⟨links, freed, rfl⟩ := map_eq_some_iff.mp run
  exact none'.fewer fun k x y linked => freeAllDependencies_old freed linked

theorem noSelf_mergeUnits_iff {other : U} (distinct : other ≠ u)
    (run : mergeUnits fuel m u other = some m') :
    NoSelf m' ↔ ∀ d, ¬ m.dependencies.Linked d other u := by
  have merging := mergeAllDependencies_merging distinct.symm (mergeUnits_dependencies run).1
  constructor
  · intro clear d linked
    have place : owner u other UnitDependency.all d other = u := by simp [owner, d.mem_all]
    rcases merging.kept d other u linked with self | ⟨same, -⟩
    · rw [place] at self
      exact clear d u self
    · exact distinct same.symm
  · intro apart d x linked
    obtain ⟨source, place, origin⟩ := merging.origin d x x linked
    rcases place with rfl | ⟨rfl, rfl⟩
    · rcases origin with entry | ⟨rfl, entry, ⟨k, back⟩ | ⟨-, k, self⟩⟩
      · exact none' d source entry
      · exact apart k back
      · exact none' k other self
    · rcases origin with entry | ⟨-, entry, -⟩
      · exact apart d entry
      · exact none' d source entry

theorem noSelf_exec_iff {call : Call U} (run : exec fuel m call = some m') :
    NoSelf m' ↔ mergesApart fuel m call := by
  cases call with
  | new u => exact iff_of_true (none'.unitNew run) trivial
  | addName allocates u name =>
    obtain ⟨⟨m', result⟩, step, rfl⟩ := map_eq_some_iff.mp run
    have same := (unitAddName_namesOnly step).dependencies
    exact iff_of_true (none'.fewer fun k x y linked => same ▸ linked) trivial
  | chooseId allocates u name =>
    obtain ⟨⟨m', result⟩, step, rfl⟩ := map_eq_some_iff.mp run
    have same := (unitChooseId_namesOnly step).dependencies
    exact iff_of_true (none'.fewer fun k x y linked => same ▸ linked) trivial
  | addDependency allocates u d other addReference =>
    obtain ⟨⟨m', result⟩, step, rfl⟩ := map_eq_some_iff.mp run
    exact iff_of_true (none'.unitAddDependency step) trivial
  | merge u other =>
    obtain ⟨⟨m', result⟩, step, rfl⟩ := map_eq_some_iff.mp run
    rcases unitMerge_cases step with ⟨rfl, idle⟩ | ⟨target, found, -, -, merged⟩
    · refine iff_of_true none' ?_
      simp [mergesApart, idle]
    · rw [noSelf_mergeUnits_iff none' (mergeTarget_spec found).1 merged]
      simp [mergesApart, found]
  | free u => exact iff_of_true (none'.unitFree run) trivial
  | progress u loadState hasJob activeState =>
    simp only [exec, Registry.unitProgress] at run
    split_ifs at run
    cases run
    exact iff_of_true none' trivial

end

theorem no_self_dependency (reached : ReachableBy mergesApart m) :
    NoSelf m ∧ ∀ fuel call m', exec fuel m call = some m' -> (NoSelf m' ↔ mergesApart fuel m call) := by
  have none' : NoSelf m := by
    induction reached with
    | start => simp [NoSelf, Registry.empty, Links.Linked]
    | call _ call fuel apart run ih => exact (noSelf_exec_iff ih run).mpr apart
  exact ⟨none', fun fuel call m' run => noSelf_exec_iff none' run⟩

theorem no_self_dependency_merged :
    ∃ m : Registry (Fin 4), ReachableBy mergesApart m ∧ m.loadState 2 = .merged ∧
      m.dependencies.Linked .before 0 3 ∧ NoSelf m := by
  have run : (execAllowed mergesApart 10 empty (mergeKnown.take 11)).map (fun m =>
      decide (m.loadState 2 = .merged ∧ m.dependencies.Linked .before 0 3)) = some true := by
    decide
  obtain ⟨m, reached, passed⟩ := reachable_of_check run
  rw [decide_eq_true_iff] at passed
  exact ⟨m, reached, passed.1, passed.2, (no_self_dependency reached).1⟩

-- a.service is ordered before b.service, which turns out to be another name for it.
local instance (priority := 1200) fourOrdered : @NeZero Nat Zero.ofOfNat0 4 := ⟨by decide⟩

def mergeOrdered : List (Call (Fin 4)) :=
  fourServices ++ [.addDependency (fun _ => true) 0 .before 1 true, .merge 0 1]

theorem merged_unit_depends_on_itself :
    ∃ m : Registry (Fin 4), ReachableBy (fun _ _ _ => True) m ∧
      m.dependencies.Linked .before 0 0 ∧ ¬ NoSelf m := by
  have run : (execAllowed (fun _ _ _ => True) 10 empty mergeOrdered).map (fun m =>
      decide (m.dependencies.Linked .before 0 0)) = some true := by
    decide
  obtain ⟨m, reached, passed⟩ := reachable_of_check run
  rw [decide_eq_true_iff] at passed
  exact ⟨m, reached, passed, fun none' => none' _ _ passed⟩

end Systemd.Registry
