import Systemd.Loading.Grown

set_option autoImplicit false

namespace Systemd.Loading

open Program List Option Function

variable {U : Type} [DecidableEq U] {h : Host U} {asked : List CString}
  {claims : U -> CString -> Prop} {busy : Option U} {l l' : Loader U} {u v : U} {n k : CString}
  {found : Found}

section

omit [DecidableEq U]

variable {s : CString}

section

variable (canon : Canon h asked claims busy l)
include canon

theorem Canon.named : l.registry.units.get s = some u ↔ l.registry.Named u s :=
  canon.held.1.indexed.table s u

theorem Canon.kind (here : l.registry.units.get s = some u) :
    l.registry.type u = unitNameToType s ∧
      ∃ part, unitNameToInstance s = some part ∧ part.isSome = (l.registry.instancePart u).isSome := by
  have named := canon.named.mp here
  obtain ⟨t, typed, kind⟩ := canon.held.1.indexed.kind u s named
  exact ⟨typed.trans kind.symm, canon.held.1.indexed.part u s named⟩

theorem Canon.idNamed (here : l.registry.units.get s = some u) :
    ∃ i, l.registry.id u = some i ∧ l.registry.units.get i = some u := by
  have settled := canon.held.1
  obtain ⟨t, typed, -⟩ := settled.indexed.kind u s (canon.named.mp here)
  obtain ⟨i, chosen, named⟩ := settled.indexed.chosen u (settled.alive here) (by simp [typed])
    (settled.unmerged here)
  exact ⟨i, chosen, canon.named.mpr named⟩

theorem Filled.unique {i file file' s' : CString} (first : Filled h asked l u i file)
    (second : Filled h asked l v i file') (here : l.registry.units.get s = some u)
    (here' : l.registry.units.get s' = some v) : u = v := by
  obtain ⟨x, chosen, mine⟩ := canon.idNamed here
  obtain ⟨x', chosen', theirs⟩ := canon.idNamed here'
  rw [first.id] at chosen
  rw [second.id] at chosen'
  cases chosen
  cases chosen'
  rw [mine] at theirs
  exact some.inj theirs

end

theorem Done.filled (agreeing : Agreeing h asked) {i file : CString} (done : Done h asked l u)
    (here : l.registry.units.get s = some u) (joins : Joins h asked i file s) :
    Filled h asked l u i file := by
  rcases done with ⟨x, loaded, refused, fresh⟩ | ⟨i', file', filled⟩
  · obtain rfl := fresh.only s here
    exact absurd refused (agreeing.found s i file loaded joins)
  · obtain ⟨rfl, rfl⟩ := agreeing.meets s i' file' i file (filled.names s here) joins
    exact filled

theorem completeName_completed {m : Registry U} {x : CString}
    (part : unitNameIsTemplate k = true -> unitNameToInstance n = some (m.instancePart u))
    (complete : completed n k = some x) : m.completeName u k = some (.ok x) := by
  rw [completed] at complete
  rw [Registry.completeName]
  split_ifs at complete ⊢ with template
  · rw [part template] at complete
    cases piece : m.instancePart u with
    | none => simp [piece] at complete
    | some part =>
      simp only [piece] at complete
      simp [complete]
  · rw [some.inj complete]

end

structure Link (h : Host U) (asked : List CString) (n : CString) (found : Found) (k x : CString) :
    Prop where
  complete : completed n k = some x
  fitting : Fitting n k
  joins : Joins h asked (idOf n found) found.filename x
  known : Known h asked x
  owner : ∀ m, Sole h asked m x -> n = m

inductive Takes (h : Host U) (asked : List CString) (claims : U -> CString -> Prop) (busy : Option U)
    (l l' : Loader U) (u : U) (n x : CString) (found : Found) : Except LoadErrno Unit -> Prop where
  | knows : l' = l -> l.registry.units.get x = some u -> Takes h asked claims busy l l' u n x found (.ok ())
  | gains (gained : CString -> Prop) : Gains l l' u gained -> Canon h asked claims busy l' -> gained x ->
      (∀ y, gained y -> Joins h asked (idOf n found) found.filename y) ->
      Takes h asked claims busy l l' u n x found (.ok ())
  | refused (e : LoadErrno) (v : U) : l' = l -> l.registry.units.get x = some v -> v ≠ u ->
      l.registry.loadState v ≠ .stub -> Takes h asked claims busy l l' u n x found (.error e)

omit [DecidableEq U] in
theorem canMergeAway_iff (canon : Canon h asked claims busy l) {s : CString}
    (here : l.registry.units.get s = some u) : l.registry.canMergeAway u = true ↔
      l.registry.loadState u = .stub ∨ l.registry.loadState u = .error := by
  obtain ⟨jobless, inactive⟩ := canon.idle u (canon.held.1.alive here)
  simp [Registry.canMergeAway, jobless, inactive, Registry.unitIsInactiveOrFailed]

variable {x : CString} {r : Except LoadErrno Unit} {gained : CString -> Prop} {names : List CString}

theorem takes_link (agreeing : Agreeing h asked) (canon : Canon h asked claims busy l)
    (mine : busy = none ∨ busy = some u) (own : l.registry.units.get n = some u)
    (link : Link h asked n found k x) (complete : l.registry.completeName u k = some (.ok x)) (grows :
      busy ≠ some u -> l.registry.loadState u ≠ .stub ∧ Filled h asked l u (idOf n found) found.filename)
    (run : unitMergeByName h u k l = some (r, l')) : Takes h asked claims busy l l' u n x found r := by
  obtain ⟨y, t, part, part', same, loadable, kind, aliased, piece, parts⟩ := link.fitting
  rw [link.complete, some.injEq] at same
  subst same
  have settled := canon.held.1
  have unmerged := settled.unmerged own
  obtain ⟨typed, piece', known, parted⟩ := canon.kind own
  rw [piece] at known
  cases known
  have gain : ∀ {m' : Registry U} {gained : CString -> Prop}, Gains l (l.withRegistry m') u gained ->
      Held claims m' -> gained x -> (∀ y, gained y -> Joins h asked (idOf n found) found.filename y) ->
      (∀ y, gained y -> Known h asked y ∧ ∃ t part, Loadable y t part) ->
      (∀ m y, Sole h asked m y -> gained y -> m'.units.get m = some u) ->
      Takes h asked claims busy l (l.withRegistry m') u n x found (.ok ()) := by
    intro m' gained gains held took joins known soles
    refine .gains gained gains ?_ took joins
    refine canon.gains gains held (fun y new => (known y new).1) (fun y new => (known y new).2) soles ?_
    exact fun idle => ⟨(grows idle).1, _, _, (grows idle).2, joins⟩
  rcases unitMergeByName_cases run with ⟨-, e, wrong, -⟩ |
    ⟨name, m', result, here, rfl, rfl, ⟨free, added⟩ | ⟨v, entry, merged⟩⟩
  · rw [complete] at wrong
    cases wrong
  · rw [complete] at here
    cases here
    obtain ⟨rfl, set, names, rfl⟩ := unitAddName_adds loadable (typed.trans kind)
      (parted.symm.trans parts.symm) aliased (canon.room agreeing link.known free) free settled.indexed added
    have held := canon.held.unitAddName unmerged added
    have gains := gains_addName set free ⟨n, own⟩
    refine gain gains held rfl ?_ ?_ ?_
    · rintro y rfl
      exact link.joins
    · rintro y rfl
      exact ⟨link.known, t, part, loadable⟩
    · rintro m y sole rfl
      obtain rfl := link.owner m sole
      exact gains.kept n u own fun wrong => by rw [wrong, free] at own; cases own
  · rw [complete] at here
    cases here
    have live := settled.unmerged entry
    have held := canon.held.unitMerge unmerged merged
    obtain ⟨typed', part'', piece', parted'⟩ := canon.kind entry
    rw [loadable.piece] at piece'
    cases piece'
    have types : l.registry.type u = l.registry.type v := by
      rw [typed, typed', kind, loadable.kind]
    have instances : (l.registry.instancePart u).isSome = (l.registry.instancePart v).isSome := by
      rw [← parted, ← parted', parts]
    have notBusy : v ≠ u -> busy ≠ some v := by
      rintro ne rfl
      rcases mine with wrong | same
      · cases wrong
      · exact ne (some.inj same)
    rcases unitMerge_outcome live merged with ⟨rfl, rfl, rfl⟩ | ⟨ne, ⟨e, rfl⟩, rfl, unfit⟩ |
      ⟨rfl, -, -, away, merges⟩
    · exact .knows rfl entry
    · refine .refused _ v rfl entry ne fun stub => unfit ⟨types, instances, ?_⟩
      exact (canMergeAway_iff canon entry).mpr (.inl stub)
    · have gains := gains_merges merges settled.indexed ⟨n, own⟩
      refine gain gains held entry ?_ ?_ ?_
      · intro y theirs
        by_cases stub : l.registry.loadState v = .stub
        · have fresh := (canon.stub x v entry (notBusy merges.distinct) stub).2.2
          rw [fresh.only y theirs, ← fresh.only x entry]
          exact link.joins
        · have done := canon.done x v entry (notBusy merges.distinct) stub
          exact (done.filled agreeing entry link.joins).names y theirs
      · exact fun y theirs => ⟨canon.known y v theirs, canon.loadable y v theirs⟩
      · exact fun m y sole theirs => gains.mine m (canon.sole m y v sole theirs)

structure Filling (h : Host U) (asked : List CString) (claims : U -> CString -> Prop) (n : CString)
    (found : Found) (u : U) (l : Loader U) : Prop where
  canon : Canon h asked claims (some u) l
  stub : l.registry.loadState u = .stub
  own : l.registry.units.get n = some u
  names : ∀ x, l.registry.units.get x = some u -> Joins h asked (idOf n found) found.filename x
  path : l.fragmentPath u = none

structure Joined (h : Host U) (asked : List CString) (claims : U -> CString -> Prop) (n : CString)
    (found : Found) (v : U) (l : Loader U) : Prop where
  canon : Canon h asked claims none l
  loaded : l.registry.loadState v ≠ .stub
  own : l.registry.units.get n = some v
  filled : Filled h asked l v (idOf n found) found.filename

section

omit [DecidableEq U]

theorem Gains.keeps (gains : Gains l l' u gained) (own : l.registry.units.get n = some u) :
    l'.registry.units.get n = some u := by
  by_cases new : gained n
  · exact gains.mine n new
  · exact gains.kept n u own new

theorem Filling.gains (filling : Filling h asked claims n found u l) (gains : Gains l l' u gained)
    (canon : Canon h asked claims (some u) l')
    (joins : ∀ x, gained x -> Joins h asked (idOf n found) found.filename x) :
    Filling h asked claims n found u l' := by
  have own := gains.keeps filling.own
  refine ⟨canon, ?_, own, fun x here => ?_, ?_⟩
  · rw [gains.loadState n u own]
    exact filling.stub
  · rcases gains.only x u here with ⟨new, -⟩ | ⟨old, -⟩
    · exact joins x new
    · exact filling.names x old
  · rw [gains.fragmentPath]
    exact filling.path

theorem Joined.gains (joined : Joined h asked claims n found v l) (gains : Gains l l' v gained)
    (canon : Canon h asked claims none l')
    (joins : ∀ x, gained x -> Joins h asked (idOf n found) found.filename x) :
    Joined h asked claims n found v l' := by
  have own := gains.keeps joined.own
  refine ⟨canon, ?_, own, ?_, ?_, ?_⟩
  · rw [gains.loadState n v own]
    exact joined.loaded
  · intro x here
    rcases gains.only x v here with ⟨new, -⟩ | ⟨old, -⟩
    · exact joins x new
    · exact joined.filled.names x old
  · rw [gains.id n v own]
    exact joined.filled.id
  · rw [gains.fragmentPath]
    exact joined.filled.path

theorem Link.same (link : Link h asked n found k x) (plain : unitNameIsTemplate k = false) : k = x := by
  have complete := link.complete
  rw [completed, if_neg (by simp [plain])] at complete
  exact some.inj complete

end

theorem mergeByNames_joined (agreeing : Agreeing h asked)
    (links : ∀ k ∈ names, (∃ x, Link h asked n found k x) ∧ unitNameIsTemplate k = false)
    {r : Except LoadErrno U} (joined : Joined h asked claims n found v l)
    (run : mergeByNames h v none names l = some (r, l')) :
    r = .ok v ∧ Joined h asked claims n found v l' ∧ ∀ w, l.registry.loadState w = .merged ->
      l'.registry.loadState w = .merged := by
  induction names generalizing l with
  | nil =>
    obtain ⟨rfl, rfl⟩ := pure_eq_some.mp run
    exact ⟨rfl, joined, fun _ merged => merged⟩
  | cons k rest ih =>
    rw [forall_mem_cons] at links
    obtain ⟨⟨⟨x, link⟩, plain⟩, links⟩ := links
    obtain ⟨outcome, middle, took, run⟩ := attempt_bind.mp run
    have states := (unitMergeByName_states took).2
    have kept : ∀ w, l.registry.loadState w = .merged -> middle.registry.loadState w = .merged := by
      intro w merged
      rcases states w with same | gone
      · exact same.trans merged
      · exact gone
    have complete := completeName_completed (m := l.registry) (u := v) (by simp [plain]) link.complete
    have takes := takes_link agreeing joined.canon (.inl rfl) joined.own link complete
      (fun _ => ⟨joined.loaded, joined.filled⟩) took
    cases takes with
    | knows same _ =>
      simp only [reduceCtorEq, if_false] at run
      obtain ⟨returned, last, onward⟩ := ih links (same ▸ joined) run
      exact ⟨returned, last, fun w merged => onward w (kept w merged)⟩
    | gains gained gains canon took joins =>
      simp only [reduceCtorEq, if_false] at run
      obtain ⟨returned, last, onward⟩ := ih links (joined.gains gains canon joins) run
      exact ⟨returned, last, fun w merged => onward w (kept w merged)⟩
    | refused e w same entry ne loaded =>
      have done := joined.canon.done x w entry (by simp) loaded
      have twice := (done.filled agreeing entry link.joins).unique joined.canon joined.filled entry
        joined.own
      exact absurd twice ne

theorem Filling.switch (agreeing : Agreeing h asked) (filling : Filling h asked claims n found u l)
    (link : Link h asked n found k x) (entry : l.registry.units.get x = some v) (ne : v ≠ u)
    (loaded : l.registry.loadState v ≠ .stub) (run : unitMerge h v u l = some (r, l')) :
    r = .ok () ∧ Joined h asked claims n found v l' ∧ l'.registry.loadState u = .merged := by
  obtain ⟨m', result, merged, rfl, rfl⟩ := registryCall_eq_some.mp run
  have canon := filling.canon
  have settled := canon.held.1
  have held := canon.held.unitMerge (settled.unmerged entry) merged
  obtain ⟨y, t, part, part', same, loadable, kind, -, piece, parts⟩ := link.fitting
  rw [link.complete, some.injEq] at same
  subst same
  obtain ⟨typed, part1, piece1, parted⟩ := canon.kind filling.own
  obtain ⟨typed', part2, piece2, parted'⟩ := canon.kind entry
  rw [piece] at piece1
  rw [loadable.piece] at piece2
  cases piece1
  cases piece2
  have types : l.registry.type v = l.registry.type u := by rw [typed, typed', kind, loadable.kind]
  have instances : (l.registry.instancePart v).isSome = (l.registry.instancePart u).isSome := by
    rw [← parted, ← parted', parts]
  have filled := (canon.done x v entry (by simpa using ne.symm) loaded).filled agreeing entry
    link.joins
  rcases unitMerge_outcome (settled.unmerged filling.own) merged with ⟨same, -⟩ | ⟨-, -, -, unfit⟩ |
    ⟨rfl, -, -, -, merges⟩
  · exact absurd same.symm ne
  · exact absurd ⟨types, instances, (canMergeAway_iff canon filling.own).mpr (.inl filling.stub)⟩ unfit
  · have gains := gains_merges merges settled.indexed ⟨x, entry⟩
    have busy : Canon h asked claims (some u) (l.withRegistry m') := by
      refine canon.gains gains held (fun y theirs => canon.known y u theirs)
        (fun y theirs => canon.loadable y u theirs)
        (fun m y sole theirs => gains.mine m (canon.sole m y u sole theirs))
        fun _ => ⟨loaded, _, _, filled, filling.names⟩
    have gone : ∀ y, m'.units.get y ≠ some u := by
      intro y here
      rcases gains.only y u here with ⟨-, same⟩ | ⟨old, notTheirs⟩
      · exact ne same.symm
      · exact notTheirs old
    have idle : Canon h asked claims none (l.withRegistry m') :=
      { busy with
        stub := fun s w here _ stub => busy.stub s w here (by rintro ⟨⟩; exact gone s here) stub
        done := fun s w here _ stub => busy.done s w here (by rintro ⟨⟩; exact gone s here) stub }
    have own : (l.withRegistry m').registry.units.get n = some v := gains.mine n filling.own
    have still : (l.withRegistry m').registry.loadState v ≠ .stub := by
      rw [gains.loadState n v own]
      exact loaded
    have id : (l.withRegistry m').registry.id v = some (idOf n found) :=
      (gains.id n v own).trans filled.id
    refine ⟨rfl, ⟨idle, still, own, fun y here => ?_, id, filled.path⟩, ?_⟩
    · rcases gains.only y v here with ⟨theirs, -⟩ | ⟨mine, -⟩
      · exact filling.names y theirs
      · exact filled.names y mine
    · simp [merges.loadState]

theorem Filling.chooseId (filling : Filling h asked claims n found u l) (chosen : found.id = some k)
    (link : Link h asked n found k x) (complete : l.registry.completeName u k = some (.ok x))
    (mine : l.registry.units.get x = some u) (run : unitChooseId u k l = some (r, l')) :
    Filling h asked claims n found u l' ∧ l'.registry.id u = some (idOf n found) ∧
      unitNameToInstance x = some (l'.registry.instancePart u) := by
  obtain ⟨m', result, ran, rfl, rfl⟩ := registryCall_eq_some.mp run
  have canon := filling.canon
  have held := canon.held.unitChooseId ran
  have alive := canon.held.1.alive mine
  obtain ⟨t, part, loadable⟩ := canon.loadable x u mine
  have last : idOf n found = x := by simp [idOf, chosen, link.complete]
  have mem : ∃ set, l.registry.names u = some set ∧ x ∈ set := by
    have named := canon.named.mp mine
    cases names : l.registry.names u with
    | none => simp [Registry.Named, names, Registry.setMembers] at named
    | some set =>
      rw [Registry.Named, names] at named
      exact ⟨set, rfl, named⟩
  rw [Registry.unitChooseId, if_neg (by simp [alive]), complete, bind_some] at ran
  simp only [Bool.true_eq_false, and_false, if_false, if_pos mem, loadable.piece, map_some,
    some.injEq, Prod.mk.injEq] at ran
  obtain ⟨rfl, -⟩ := ran
  refine ⟨⟨?_, filling.stub, filling.own, filling.names, filling.path⟩, by simp [last],
    by simp [loadable.piece]⟩
  refine ⟨held, canon.idle, canon.keys, canon.known, canon.loadable, ?_, canon.queued, ?_, ?_, canon.sole⟩
  · intro s w i here id
    by_cases same : w = u
    · subst same
      simp only [update_self, some.injEq] at id ⊢
      exact id ▸ loadable.piece
    · simp only [update_of_ne same] at id ⊢
      exact canon.part s w i here id
  · intro s w here other stub
    obtain ⟨waits, loaded, fresh⟩ := canon.stub s w here other stub
    have ne : w ≠ u := fun same => other (by rw [same])
    exact ⟨waits, loaded, fresh.only, by simpa [ne] using fresh.id, fresh.path⟩
  · intro s w here other settled
    have ne : w ≠ u := fun same => other (by rw [same])
    exact (canon.done s w here other settled).shrink (fun _ there => there)
      (update_of_ne ne _ _) rfl

def Chained (h : Host U) (asked : List CString) (claims : U -> CString -> Prop) (n : CString)
    (found : Found) (u merged : U) (l : Loader U) : Prop :=
  if merged = u then
    Filling h asked claims n found u l ∧ l.registry.id u = some (idOf n found)
  else
    Joined h asked claims n found merged l ∧ l.registry.loadState u = .merged

def Completes (h : Host U) (asked : List CString) (n : CString) (u : U) (names : List CString)
    (l : Loader U) : Prop :=
  (∀ k ∈ names, unitNameIsTemplate k = false) ∨
    unitNameToInstance n = some (l.registry.instancePart u) ∧
      ∀ k ∈ names, ∀ x, completed n k = some x ->
        Sole h asked n x ∧ unitNameToInstance x = unitNameToInstance n

theorem mergeByNames_filling (agreeing : Agreeing h asked)
    (links : ∀ k ∈ names, ∃ x, Link h asked n found k x) {r : Except LoadErrno U}
    (completes : Completes h asked n u names l) (filling : Filling h asked claims n found u l)
    (last : (∃ k ∈ names, found.id = some k) ∨ l.registry.id u = some (idOf n found))
    (run : mergeByNames h u found.id names l = some (r, l')) :
    ∃ merged, r = .ok merged ∧ Chained h asked claims n found u merged l' := by
  induction names generalizing l with
  | nil =>
    obtain ⟨rfl, rfl⟩ := pure_eq_some.mp run
    refine ⟨u, rfl, ?_⟩
    rw [Chained, if_pos rfl]
    refine ⟨filling, ?_⟩
    rcases last with ⟨k, impossible, -⟩ | chosen
    · cases impossible
    · exact chosen
  | cons k rest ih =>
    rw [forall_mem_cons] at links
    obtain ⟨⟨x, link⟩, links⟩ := links
    obtain ⟨outcome, middle, took, ending⟩ := attempt_bind.mp run
    have complete : ∀ {l1 : Loader U}, l1.registry.instancePart u = l.registry.instancePart u ->
        l1.registry.completeName u k = some (.ok x) := by
      refine fun same => completeName_completed (fun template => ?_) link.complete
      rcases completes with plain | ⟨part, -⟩
      · rw [plain k mem_cons_self] at template
        cases template
      · exact part.trans (congrArg some same.symm)
    have takes := takes_link agreeing filling.canon (.inr rfl) filling.own link (complete rfl)
      (fun wrong => absurd rfl wrong) took
    have later : ∀ {l1 : Loader U}, (l1.registry.instancePart u = l.registry.instancePart u ∨
        unitNameToInstance x = some (l1.registry.instancePart u)) ->
        Completes h asked n u rest l1 := by
      intro l1 same
      rcases completes with plain | ⟨part, sole⟩
      · exact .inl fun y listed => plain y (mem_cons_of_mem k listed)
      · refine .inr ⟨?_, fun y listed => sole y (mem_cons_of_mem k listed)⟩
        rcases same with same | chosen
        · exact part.trans (congrArg some same.symm)
        · exact (sole k mem_cons_self x link.complete).2.symm.trans chosen
    have onward : Filling h asked claims n found u middle -> middle.registry.units.get x = some u ->
        middle.registry.instancePart u = l.registry.instancePart u ->
        (found.id ≠ some k -> middle.registry.id u = l.registry.id u) ->
        ∀ ending : (if found.id = some k then
            attempt (unitChooseId u k) >>= fun _ => mergeByNames h u found.id rest
          else mergeByNames h u found.id rest) middle = some (r, l'),
        ∃ merged, r = .ok merged ∧ Chained h asked claims n found u merged l' := by
      intro filling mine part same ending
      split_ifs at ending with chosen
      · obtain ⟨_, next, chose, ending⟩ := attempt_bind.mp ending
        obtain ⟨filling, id, piece⟩ := filling.chooseId chosen link (complete part) mine chose
        exact ih links (later (.inr piece)) filling (.inr id) ending
      · refine ih links (later (.inl part)) filling ?_ ending
        rcases last with ⟨y, listed, here⟩ | id
        · rcases mem_cons.mp listed with rfl | later
          · exact absurd here chosen
          · exact .inl ⟨y, later, here⟩
        · exact .inr ((same chosen).trans id)
    cases takes with
    | knows same entry =>
      subst same
      exact onward filling entry rfl (fun _ => rfl) ending
    | gains gained gains canon gotten joins =>
      have filling' := filling.gains gains canon joins
      exact onward filling' (gains.mine x gotten) (congrFun gains.instancePart u)
        (fun _ => gains.id n u filling'.own) ending
    | refused e v same entry ne loaded =>
      subst same
      rcases completes with plain | ⟨-, sole⟩
      · obtain rfl := link.same (plain k mem_cons_self)
        simp only [read_bind, entry] at ending
        rcases bind_eq_some.mp ending with ⟨e, stops, rfl⟩ | ⟨_, next, switched, ending⟩
        · obtain ⟨wrong, -⟩ := filling.switch agreeing link entry ne loaded stops
          cases wrong
        · obtain ⟨-, joined, merged⟩ := filling.switch agreeing link entry ne loaded switched
          obtain ⟨rfl, joined, onward⟩ := mergeByNames_joined agreeing
            (fun y listed => ⟨links y listed, plain y (mem_cons_of_mem k listed)⟩) joined ending
          refine ⟨v, rfl, ?_⟩
          rw [Chained, if_neg ne]
          exact ⟨joined, onward u merged⟩
      · -- Nobody else can have a name that is met here only.
        have mine := filling.canon.sole n x v (sole k mem_cons_self x link.complete).1 entry
        rw [filling.own] at mine
        exact absurd (some.inj mine).symm ne

end Systemd.Loading
