import Systemd.Loading.Pulled

set_option autoImplicit false

namespace Systemd.Loading

open Program List Option Function

variable {U : Type} [DecidableEq U] {h : Host U} {asked : List CString}
  {claims : U -> CString -> Prop} {busy : Option U} {l l' : Loader U} {u v : U} {n k : CString}
  {found : Found}

def Loader.settle (l : Loader U) (u : U) (loadState : UnitLoadState) (path : Option CString) :
    Loader U :=
  { l with
    registry := { l.registry with
      loadState := update l.registry.loadState u loadState }
    fragmentPath := update l.fragmentPath u path }

structure Starting (h : Host U) (asked : List CString) (claims : U -> CString -> Prop) (n : CString)
    (u : U) (l : Loader U) : Prop where
  canon : Canon h asked claims (some u) l
  loaded : Loaded h asked n
  stub : l.registry.loadState u = .stub
  own : l.registry.units.get n = some u
  fresh : Fresh l u n

def Failing (h : Host U) (asked : List CString) (claims : U -> CString -> Prop) (u : U) (l : Loader U) :
    Prop :=
  l.registry.loadState u ≠ .merged ∧
    Canon h asked claims none (l.settle u .error (l.fragmentPath u))

variable {path : Option CString} {loadState : UnitLoadState} {r : Except LoadErrno Unit}
  {m : Registry U} {x : CString}

theorem Canon.settle (canon : Canon h asked claims busy l) (mine : busy = none ∨ busy = some u)
    (before : l.registry.loadState u ≠ .merged) (after : loadState ≠ .merged) (end_ : loadState ≠ .stub)
    (done : Done h asked (l.settle u loadState path) u) :
    Canon h asked claims none (l.settle u loadState path) := by
  have notBusy : ∀ {w}, w ≠ u -> busy ≠ some w := by
    rintro w ne rfl
    rcases mine with wrong | same
    · cases wrong
    · exact ne (some.inj same)
  refine ⟨canon.held.setLoadState before after, canon.idle, canon.keys, canon.known, canon.loadable,
    canon.part, ?_, ?_, ?_, canon.sole⟩
  · intro w waits stub
    refine canon.queued w waits ?_
    by_cases same : w = u
    · simp [Loader.settle, same, end_] at stub
    · simpa [Loader.settle, same] using stub
  · intro s w here _ stub
    have ne : w ≠ u := by
      rintro rfl
      simp [Loader.settle, end_] at stub
    simp only [Loader.settle, update_of_ne ne] at stub
    obtain ⟨waits, loaded, only, id, path⟩ := canon.stub s w here (notBusy ne) stub
    exact ⟨waits, loaded, only, id, by simpa [Loader.settle, ne] using path⟩
  · intro s w here _ settled
    by_cases same : w = u
    · exact same ▸ done
    · simp only [Loader.settle, update_of_ne same] at settled
      refine (canon.done s w here (notBusy same) settled).shrink (fun _ there => there) rfl ?_
      simp [Loader.settle, same]

theorem Filling.settle (filling : Filling h asked claims n found u l)
    (id : l.registry.id u = some (idOf n found)) (after : loadState ≠ .merged)
    (end_ : loadState ≠ .stub) :
    Canon h asked claims none (l.settle u loadState (fragmentAt h found.filename)) := by
  refine filling.canon.settle (.inr rfl) (by simp [filling.stub]) after end_ (.inr ?_)
  exact ⟨idOf n found, found.filename, filling.names, id, by simp [Loader.settle]⟩

section

variable (starting : Starting h asked claims n u l)
include starting

theorem Starting.settle (nothing : Refused h n) (after : loadState ≠ .merged)
    (end_ : loadState ≠ .stub) :
    Canon h asked claims none (l.settle u loadState (l.fragmentPath u)) := by
  refine starting.canon.settle (.inr rfl) (by simp [starting.stub]) after end_ (.inl ⟨n, starting.loaded, nothing, ?_⟩)
  obtain ⟨only, id, path⟩ := starting.fresh
  exact ⟨only, id, by simpa [Loader.settle] using path⟩

theorem Starting.failing (nothing : Refused h n) : Failing h asked claims u l :=
  ⟨by simp [starting.stub], starting.settle nothing (by decide) (by decide)⟩

omit [DecidableEq U] in
theorem Starting.filling (here : lookup h n = some found) (accepted : ¬Refused h n) :
    Filling h asked claims n found u l := by
  refine ⟨starting.canon, starting.stub, starting.own, fun x mine => ?_, starting.fresh.path⟩
  obtain rfl := starting.fresh.only x mine
  exact ⟨x, found, starting.loaded, accepted, here, rfl, rfl, .inl rfl⟩

omit [DecidableEq U] in
theorem Starting.part : unitNameToInstance n = some (l.registry.instancePart u) :=
  starting.canon.part n u n starting.own starting.fresh.id

end

theorem own_merges (own : l.registry.units.get n = some u) (live : l.registry.loadState u ≠ .merged)
    (complete : l.registry.completeName u k = some (.ok n))
    (run : unitMergeByName h u k l = some (r, l')) : r = .ok () ∧ l' = l := by
  rcases unitMergeByName_cases run with ⟨-, e, wrong, -⟩ |
    ⟨name, m', result, here, rfl, rfl, ⟨free, -⟩ | ⟨v, entry, merged⟩⟩
  · rw [complete] at wrong
    cases wrong
  · rw [complete] at here
    cases here
    rw [own] at free
    cases free
  · rw [complete] at here
    cases here
    rw [own] at entry
    cases entry
    rcases unitMerge_outcome live merged with ⟨-, rfl, rfl⟩ | ⟨wrong, -⟩ | ⟨-, -, -, -, merges⟩
    · exact ⟨rfl, rfl⟩
    · exact absurd rfl wrong
    · exact absurd rfl merges.distinct

theorem own_chooses (starting : Starting h asked claims n u l) (own : completed n k = some n)
    (run : unitChooseId u k l = some (r, l')) : l' = l := by
  obtain ⟨m', result, chosen, rfl, rfl⟩ := registryCall_eq_some.mp run
  suffices same : m' = l.registry by rw [same]
  rcases Registry.unitChooseId_cases chosen with same | ⟨name, piece, set, names, mem, piece', rfl⟩
  · exact same
  have mine : l.registry.units.get name = some u := by
    rw [starting.canon.named, Registry.Named, names]
    exact mem
  obtain rfl := starting.fresh.only name mine
  rw [starting.part] at piece'
  cases piece'
  have id : update l.registry.id u (some name) = l.registry.id := by
    rw [← starting.fresh.id, update_eq_self]
  simp [id]

theorem mergeByNames_front (starting : Starting h asked claims n u l) {id : Option CString}
    {front back : List CString} (own : ∀ k ∈ front, completed n k = some n) {r : Except LoadErrno U}
    (run : mergeByNames h u id (front ++ back) l = some (r, l')) :
    mergeByNames h u id back l = some (r, l') := by
  induction front with
  | nil => exact run
  | cons k rest ih =>
    rw [forall_mem_cons] at own
    obtain ⟨outcome, middle, took, ending⟩ := attempt_bind.mp run
    obtain ⟨rfl, rfl⟩ := own_merges starting.own (by simp [starting.stub])
      (completeName_completed (fun _ => starting.part) own.1) took
    dsimp only at ending
    split_ifs at ending
    · obtain ⟨_, next, chose, ending⟩ := attempt_bind.mp ending
      rw [own_chooses starting own.1 chose] at ending
      exact ih own.2 ending
    · exact ih own.2 ending

omit [DecidableEq U] in
theorem completed_completeName (part : unitNameToInstance n = some (m.instancePart u))
    (complete : m.completeName u k = some (.ok x)) : completed n k = some x := by
  rw [Registry.completeName] at complete
  rw [completed]
  split_ifs at complete ⊢ with template
  · cases piece : m.instancePart u with
    | none => simp [piece] at complete
    | some part' =>
      simp only [piece, map_eq_some_iff, Except.ok.injEq, exists_eq_right] at complete
      rw [part, piece]
      exact complete
  · simpa using complete

omit [DecidableEq U] in
theorem checkName_aliased {allocates : NameAllocation -> Bool} {t : UnitType} {part : Option CString}
    {set : OrderedSet CString} (names : m.names u = some set) (others : set.members ≠ [])
    (unknown : x ∉ set) (run : m.checkName allocates u x = some (.ok (t, part))) :
    t.noAlias = false := by
  obtain ⟨kind, piece, -⟩ := Registry.checkName_ok run
  by_contra aliased
  rw [Bool.not_eq_false] at aliased
  have clash : t.noAlias = true ∧ ∃ set, m.names u = some set ∧ set.members ≠ [] ∧ x ∉ set :=
    ⟨aliased, set, names, others, unknown⟩
  rw [Registry.checkName] at run
  simp only [kind, piece, if_pos clash] at run
  split_ifs at run
  all_goals
    simp at run

theorem misfit_merges (starting : Starting h asked claims n u l) (foreign : completed n k ≠ some n)
    (misfit : ¬Fitting n k) (sole : ∀ x, completed n k = some x -> Sole h asked n x)
    (run : unitMergeByName h u k l = some (r, l')) : (∃ e, r = .error e) ∧ l' = l := by
  have settled := starting.canon.held.1
  obtain ⟨t', part', own⟩ := starting.canon.loadable n u starting.own
  rcases unitMergeByName_cases run with ⟨rfl, e, -, rfl⟩ |
    ⟨x, m', result, here, rfl, rfl, outcome⟩
  · exact ⟨⟨_, rfl⟩, rfl⟩
  have complete := completed_completeName starting.part here
  have free : l.registry.units.get x = none := by
    rw [eq_none_iff_forall_not_mem]
    intro v entry
    have mine := starting.canon.sole n x v (sole x complete) entry
    rw [starting.own] at mine
    cases mine
    exact foreign (starting.fresh.only x entry ▸ complete)
  rcases outcome with ⟨-, added⟩ | ⟨v, entry, -⟩
  swap
  · rw [free] at entry
    cases entry
  rcases Registry.unitAddName_outcome added with ⟨e, rfl, rfl⟩ |
    ⟨rfl, -, name, t, part, set, complete', check, names, outcome⟩
  · exact ⟨⟨_, rfl⟩, rfl⟩
  have plain := completed_plain own.plain complete
  obtain rfl : x = name := by
    rw [Registry.completeName, if_neg (by simp [plain])] at complete'
    simpa using complete'
  have named : n ∈ set := by
    have mine := starting.canon.named.mp starting.own
    rw [Registry.Named, names] at mine
    exact mine
  have unknown : x ∉ set := by
    intro mem
    have mine : l.registry.units.get x = some u := by
      rw [starting.canon.named, Registry.Named, names]
      exact mem
    rw [free] at mine
    cases mine
  obtain ⟨typed, piece, known, parted⟩ := starting.canon.kind starting.own
  obtain ⟨kind, piece', fits⟩ := Registry.checkName_ok check
  rw [typed, own.kind] at fits
  rcases fits with wrong | ⟨same, parts⟩
  · cases wrong
  refine absurd ?_ misfit
  refine ⟨x, t, part, piece, complete, checkName_loadable plain check, own.kind.trans same, ?_, known, ?_⟩
  · exact checkName_aliased names (fun empty => by rw [OrderedSet.mem_def, empty] at named; cases named)
      unknown check
  · exact parts.symm.trans parted.symm

theorem mergeByNames_chained (agreeing : Agreeing h asked) (starting : Starting h asked claims n u l)
    (here : lookup h n = some found) {r : Except LoadErrno U}
    (run : mergeByNames h u found.id found.names.members l = some (r, l')) :
    (∃ merged, r = .ok merged ∧ Chained h asked claims n found u merged l') ∨
      (∃ e, r = .error e) ∧ l' = l ∧ Refused h n := by
  obtain ⟨front, back, split, own, follows⟩ := (agreeing.fits n found starting.loaded here).chain
  have listed : ∀ k ∈ back, k ∈ found.names := by
    intro k mem
    rw [OrderedSet.mem_def, split]
    exact mem_append_right front mem
  rw [split] at run
  have rest := mergeByNames_front starting own run
  have onward : (∀ k ∈ back, Fitting n k) -> Completes h asked n u back l ->
      ∃ merged, r = .ok merged ∧ Chained h asked claims n found u merged l' := by
    intro fitting completes
    have accepted : ¬Refused h n := by
      intro refused
      obtain ⟨k, mem, foreign, misfit⟩ := refused found here
      rw [OrderedSet.mem_def, split, mem_append] at mem
      rcases mem with inFront | inBack
      · exact foreign (own k inFront)
      · exact misfit (fitting k inBack)
    have linked : ∀ k x, k ∈ back -> completed n k = some x -> InChain h n x := fun k x mem complete =>
      ⟨found, here, .inl ⟨k, listed k mem, complete⟩⟩
    refine mergeByNames_filling agreeing ?_ completes (starting.filling here accepted) ?_ rest
    · intro k mem
      obtain ⟨x, _, _, _, complete, -⟩ := fitting k mem
      have inChain := linked k x mem complete
      exact ⟨x, complete, fitting k mem, ⟨n, found, starting.loaded, accepted, here, rfl, rfl, .inr inChain⟩,
        .inr ⟨n, starting.loaded, inChain⟩, fun m sole => sole.only n starting.loaded inChain⟩
    · cases last : found.id with
      | none => exact .inr (by simp [idOf, last, starting.fresh.id])
      | some k =>
        have mem := (lookup_found here).last k last
        rw [OrderedSet.mem_def, split, mem_append] at mem
        rcases mem with inFront | inBack
        · exact .inr (by simp [idOf, last, own k inFront, starting.fresh.id])
        · exact .inl ⟨k, inBack, rfl⟩
  cases follows with
  | refused k back foreign misfit sole =>
    obtain ⟨outcome, middle, took, ending⟩ := attempt_bind.mp rest
    obtain ⟨⟨e, rfl⟩, rfl⟩ := misfit_merges starting foreign misfit sole took
    have unknown : middle.registry.units.get k = none := by
      rw [eq_none_iff_forall_not_mem]
      intro v entry
      obtain ⟨t, part, loadable⟩ := starting.canon.loadable k v entry
      have complete : completed n k = some k := by rw [completed, if_neg (by simp [loadable.plain])]
      have mine := starting.canon.sole n k v (sole k complete) entry
      rw [starting.own] at mine
      cases mine
      exact foreign (starting.fresh.only k entry ▸ complete)
    simp only [read_bind, unknown] at ending
    obtain ⟨rfl, rfl⟩ := fail_eq_some.mp ending
    refine .inr ⟨⟨e, rfl⟩, rfl, fun found' here' => ?_⟩
    rw [here] at here'
    cases here'
    exact ⟨k, listed k mem_cons_self, foreign, misfit⟩
  | shared back fitting =>
    exact .inl (onward (fun k mem => (fitting k mem).1)
      (.inl fun k mem => (fitting k mem).2))
  | sole back fitting =>
    exact .inl (onward (fun k mem => (fitting k mem).1)
      (.inr ⟨starting.part, fun k mem => (fitting k mem).2⟩))

omit [DecidableEq U] in
theorem Filling.extends (filling : Filling h asked claims n found u l)
    (extended : Extends h asked claims l l') : Filling h asked claims n found u l' where
  canon := extended.canon (some u) filling.canon
  stub := (extended.loadState n u filling.own).trans filling.stub
  own := extended.table n u filling.own
  names := fun x here => filling.names x (extended.names n u x filling.own here)
  path := (extended.fragmentPath n u filling.own).trans filling.path

structure Chosen (h : Host U) (asked : List CString) (claims : U -> CString -> Prop) (n : CString)
    (found : Found) (u : U) (l : Loader U) : Prop where
  filling : Filling h asked claims n found u l
  id : l.registry.id u = some (idOf n found)

omit [DecidableEq U] in
theorem Chosen.extends (chosen : Chosen h asked claims n found u l)
    (extended : Extends h asked claims l l') : Chosen h asked claims n found u l' :=
  ⟨chosen.filling.extends extended, (extended.id n u chosen.filling.own).trans chosen.id⟩

structure Ended (h : Host U) (asked : List CString) (claims : U -> CString -> Prop) (n : CString) (u : U)
    (l : Loader U) : Prop where
  canon : Canon h asked claims none l
  settled : l.registry.loadState u ≠ .stub
  own : l.registry.loadState u ≠ .merged -> l.registry.units.get n = some u

def Outcome {A : Type} (h : Host U) (asked : List CString) (claims : U -> CString -> Prop) (u : U)
    (M : Loader U -> Prop) : Except LoadErrno A -> Loader U -> Prop
  | .ok _ => M
  | .error _ => Failing h asked claims u

theorem Outcome.bind {A B : Type} {P M N : Loader U -> Prop} {p : Load U A} {f : A -> Load U B}
    (first : Triple P p (Outcome h asked claims u M))
    (later : ∀ a, Triple M (f a) (Outcome h asked claims u N)) :
    Triple P (p >>= f) (Outcome h asked claims u N) := by
  refine Triple.bind (M := fun _ => M) (first.consequence (fun _ holds => holds) ?_) later
  intro r l outcome
  cases r with
  | ok _ => exact outcome
  | error _ => exact outcome

theorem Chosen.ended (chosen : Chosen h asked claims n found u l)
    (same : path = fragmentAt h found.filename) (after : loadState ≠ .merged)
    (end_ : loadState ≠ .stub) : Ended h asked claims n u (l.settle u loadState path) := by
  refine ⟨same ▸ chosen.filling.settle chosen.id after end_, ?_, fun _ => chosen.filling.own⟩
  simp [Loader.settle, end_]

theorem Chosen.failing (chosen : Chosen h asked claims n found u l)
    (nothing : fragmentAt h found.filename = none) : Failing h asked claims u l := by
  refine ⟨by simp [chosen.filling.stub], ?_⟩
  rw [chosen.filling.path, ← nothing]
  exact chosen.filling.settle chosen.id (by decide) (by decide)

section

variable (agreeing : Agreeing h asked)
include agreeing

section

variable (loaded : Loaded h asked n)
include loaded

section

variable (here : lookup h n = some found)
include here

-- Nobody else has the name, so the unit gets it.
theorem Chosen.named (given : found.Names (idOf n found) x)
    (free : x = n ∨ unitNameIsTemplate x = false ∧ Fitting n x ∧ Sole h asked n x)
    (chosen : Chosen h asked claims n found u l) (run : unitMergeByName h u x l = some (r, l')) :
    Chosen h asked claims n found u l' := by
  have own := chosen.filling.own
  rcases free with rfl | ⟨plain, fitting, sole⟩
  · obtain ⟨t, part, loadable⟩ := chosen.filling.canon.loadable x u own
    have complete : l.registry.completeName u x = some (.ok x) := by
      rw [Registry.completeName, if_neg (by simp [loadable.plain])]
    obtain ⟨-, rfl⟩ := own_merges own (by simp [chosen.filling.stub]) complete run
    exact chosen
  · have accepted := agreeing.found n _ _ loaded (chosen.filling.names n own)
    have inChain : InChain h n x := ⟨found, here, .inr given⟩
    have complete : completed n x = some x := by rw [completed, if_neg (by simp [plain])]
    have link : Link h asked n found x x :=
      ⟨complete, fitting, ⟨n, found, loaded, accepted, here, rfl, rfl, .inr inChain⟩, .inr ⟨n, loaded, inChain⟩,
        fun m sole' => sole'.only n loaded inChain⟩
    have takes := takes_link agreeing chosen.filling.canon (.inr rfl) own link
      (completeName_completed (by simp [plain]) complete) (fun wrong => absurd rfl wrong) run
    cases takes with
    | knows same _ => exact same ▸ chosen
    | gains gained gains canon took joins =>
      have filling := chosen.filling.gains gains canon joins
      exact ⟨filling, (gains.id n u filling.own).trans chosen.id⟩
    | refused e v same entry ne _ =>
      have mine := chosen.filling.canon.sole n x v sole entry
      rw [own] at mine
      exact absurd (some.inj mine).symm ne

theorem runDirective_chosen {directive : Directive}
    (listed : directive ∈ found.contents.directives (some (idOf n found))) :
    Passes (Chosen h asked claims n found u) (runDirective h u directive) := by
  rcases (agreeing.fits n found loaded here).pulls directive listed with pulls | ⟨words, rfl, free⟩
  swap
  · exact .untilFails fun x mem l r l' chosen run =>
      chosen.named agreeing loaded here ⟨words, listed, mem⟩ (free x mem) run
  have asking : ∀ {l : Loader U}, Chosen h asked claims n found u l ->
      Asking h asked claims (some u) u (idOf n found) directive l := by
    intro l chosen
    refine ⟨chosen.filling.canon, ⟨n, chosen.filling.own⟩, chosen.id, fun part s instancePart asks valid => ?_⟩
    exact .parsed n found part directive s loaded here instancePart listed asks valid
  have kept : Keeps (Chosen h asked claims n found u) (runDirective h u directive) := by
    intro l r l' chosen run
    have honest : directive.gives = false := by
      cases directive <;> simp_all [Directive.pulls, Directive.gives]
    exact chosen.extends (runDirective_extends (asking chosen) honest l r l' (.refl l) run)
  intro l r l' chosen run
  refine ⟨?_, kept l r l' chosen run⟩
  cases directive with
  | dependencies d words =>
    exact (Passes.untilFails (P := fun _ => True) (fun _ _ _ _ _ _ _ => trivial) l r l' trivial run).1
  | unit name =>
    refine (Passes.bind (P := fun _ => True) (.attempt fun _ _ _ _ _ => trivial) (fun _ => .pure ())
      l r l' trivial run).1
  | names words => cases pulls
  | provides name => cases pulls
  | needs d name => cases pulls

theorem readContents_outcome :
    Triple (Chosen h asked claims n found u)
      (readContents h u found.contents >>= fun _ => setFragmentPath u (some found.filename))
      (Outcome h asked claims u (Ended h asked claims n u)) := by
  have path := fragmentAt_found here
  -- The contents are read well if the unit is as it should be once the path is set.
  refine .bind (M := fun _ l => Ended h asked claims n u
    { l with fragmentPath := update l.fragmentPath u (some found.filename) }) ?_
    fun _ => Triple.change ?_
  swap
  · exact fun _ ended => ended
  unfold readContents
  split_ifs with empty
  · refine Triple.change fun l chosen => chosen.ended ?_ (by decide) (by decide)
    rw [path]
    cases found.contents.result <;> simp [empty]
  · refine .bind (M := fun _ l => Chosen h asked claims n found u l ∧ found.contents.result = .ok ()) ?_
      fun _ => .change fun l both => both.1.ended (by rw [path, both.2]) (by decide) (by decide)
    refine Triple.read fun l chosen => ?_
    rw [chosen.id]
    refine Triple.consequence (Passes.followed (.forEach fun directive listed =>
      runDirective_chosen agreeing loaded here listed) fun _ => ?_) (fun _ both => both.2)
      fun _ _ after => after
    unfold orFail
    cases result : found.contents.result with
    | ok _ => exact .pure fun _ chosen => ⟨chosen, rfl⟩
    | error e => exact .fail fun _ chosen => chosen.failing (by simp [path, result, empty])

end

end

theorem loadFromPath_outcome {path : CString} (file : findFile h path = .ok (some found))
    (here : lookup h n = some found) :
    Triple (Starting h asked claims n u) (loadFromPath h u path)
      (Outcome h asked claims u (Ended h asked claims n u)) := by
  unfold loadFromPath
  rw [file]
  refine .bind (M := fun merged l => Chained h asked claims n found u merged l ∧
    Loaded h asked n) ?_ fun merged => ?_
  · intro l r l' starting run
    rcases mergeByNames_chained agreeing starting here run with ⟨merged, rfl, chained⟩ |
      ⟨⟨e, rfl⟩, rfl, refused⟩
    · exact ⟨chained, starting.loaded⟩
    · exact starting.failing refused
  · split_ifs with switched
    · refine Triple.change fun l both => ?_
      obtain ⟨chained, -⟩ := both
      rw [Chained, if_neg switched] at chained
      obtain ⟨joined, gone⟩ := chained
      have same : update l.registry.loadState u .merged = l.registry.loadState := by
        rw [← gone, update_eq_self]
      rw [Outcome, same]
      exact ⟨joined.canon, by simp [gone], fun wrong => absurd gone wrong⟩
    · obtain rfl : merged = u := not_not.mp switched
      intro l r l' both run
      obtain ⟨chained, loaded⟩ := both
      rw [Chained, if_pos rfl] at chained
      exact readContents_outcome agreeing loaded here l r l'
        ⟨chained.1, chained.2⟩ run

end

end Systemd.Loading
