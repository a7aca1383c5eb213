import Systemd.Loading.Filled

set_option autoImplicit false

namespace Systemd.Loading

open Program Option Function

variable {U : Type} [DecidableEq U] {h : Host U} {asked : List CString}
  {claims : U -> CString -> Prop} {l l' : Loader U} {u v : U} {n k : CString} {found : Found}

section

omit [DecidableEq U]

theorem lookup_direct (kind : unitNameToType n ≠ some .snapshot)
    (direct : findFile h n = .ok (some found)) : lookup h n = some found := by
  rw [lookup, if_neg kind, direct]

theorem lookup_error {e : LoadErrno} (direct : findFile h n = .error e) : lookup h n = none := by
  rw [lookup, direct]
  exact ite_self _

theorem lookup_template {part : CString} (kind : unitNameToType n ≠ some .snapshot)
    (direct : findFile h n = .ok none) (piece : unitNameToInstance n = some (some part))
    (template : unitNameTemplate n = some k) (file : findFile h k = .ok (some found)) :
    lookup h n = some found := by
  rw [lookup, if_neg kind, direct]
  simp only [piece, template, file]

theorem lookup_nowhere (direct : findFile h n = .ok none)
    (template : ∀ part k found, unitNameToInstance n = some (some part) -> unitNameTemplate n = some k ->
      findFile h k ≠ .ok (some found)) : lookup h n = none := by
  unfold lookup
  split_ifs
  · rfl
  · simp only [direct]
    split
    · rename_i part k piece here
      cases file : findFile h k with
      | error e => rfl
      | ok place =>
        cases place with
        | none => rfl
        | some found => exact absurd file (template part k found piece here)
    · rfl

theorem Refused.of_none (nothing : lookup h n = none) : Refused h n := by
  intro found here
  rw [nothing] at here
  cases here

variable {P : Loader U -> Prop} {p : Load U Unit}

theorem orAbort_passes {A : Type} {value : Option A} : Passes P (orAbort value : Load U A) := by
  intro l r l' holds run
  obtain ⟨a, -, rfl, rfl⟩ := orAbort_eq_some.mp run
  exact ⟨⟨a, rfl⟩, holds⟩

theorem unitNames_passes : Passes P (unitNames u) :=
  .read fun l => .pure (Registry.setMembers (l.registry.names u))

theorem whileStub_settled (settled : ∀ l, P l -> l.registry.loadState u ≠ .stub) :
    Passes P (whileStub u p) := by
  refine Triple.read fun l holds => ?_
  rw [if_neg (settled l holds)]
  exact .pure fun _ both => ⟨⟨(), rfl⟩, both.2⟩

theorem whileStub_stub {Q : Except LoadErrno Unit -> Loader U -> Prop}
    (stub : ∀ l, P l -> l.registry.loadState u = .stub) (given : Triple P p Q) :
    Triple P (whileStub u p) Q := by
  refine Triple.read fun l holds => ?_
  rw [if_pos (stub l holds)]
  exact given.consequence (fun _ both => both.2) fun _ _ after => after

end

variable {P : Loader U -> Prop}

theorem dropin_passes (agreeing : Agreeing h asked) : Passes P (dropin h u) := by
  have directory : ∀ {v : U} path d, Passes P (iterateDir h v path d) := by
    intro v path d
    unfold iterateDir
    rw [agreeing.directories]
    split_ifs
    · exact .pure ()
    · exact .pure ()
  have process : ∀ {v : U} p t suffix d, Passes P (processDir h v p t suffix d) := by
    intro v p t suffix d
    refine .bind (directory _ d) fun _ => .read fun l => ?_
    split_ifs
    · exact .bind orAbort_passes fun _ => directory _ d
    · exact .pure ()
  refine .bind ?_ fun v => .bind unitNames_passes fun names => ?_
  · intro l r l' holds run
    obtain ⟨t, -, rfl, rfl⟩ := unitFollowMerge_eq_some.mp run
    exact ⟨⟨t, rfl⟩, holds⟩
  · exact .forEach fun t _ => .forEach fun p _ => .bind (process p t _ _) fun _ => process p t _ _

theorem serviceLoadSysv_passes (agreeing : Agreeing h asked) :
    Passes P (whileStub u (serviceLoadSysv h u)) := by
  have name : ∀ t, serviceLoadSysvName h u t = pure () := by
    intro t
    rw [serviceLoadSysvName, agreeing.scripts]
    rfl
  have turn : ∀ t, Passes P (whileStub u (serviceLoadSysvName h u t)) := by
    intro t
    refine .read fun l => ?_
    rw [name]
    split_ifs
    · exact .pure ()
    · exact .pure ()
  refine .read fun l => ?_
  split_ifs
  · refine .read fun l => .bind orAbort_passes fun id => ?_
    rw [name]
    exact .bind (.pure ()) fun _ => .forEach fun t _ => turn t
  · exact .pure ()

def Looked (h : Host U) (asked : List CString) (claims : U -> CString -> Prop) (n : CString) (u : U)
    (nothing : Prop) (l : Loader U) : Prop :=
  (Starting h asked claims n u l ∧ nothing) ∨ Ended h asked claims n u l

theorem loadFromPath_looked (agreeing : Agreeing h asked) {path : CString}
    (found : ∀ found, findFile h path = .ok (some found) -> lookup h n = some found)
    (failed : ∀ e, findFile h path = .error e -> lookup h n = none) :
    Triple (Starting h asked claims n u) (loadFromPath h u path)
      (Outcome h asked claims u (Looked h asked claims n u (findFile h path = .ok none))) := by
  cases file : findFile h path with
  | error e =>
    unfold loadFromPath
    rw [file]
    exact .fail fun l starting => starting.failing (.of_none (failed e file))
  | ok place =>
    cases place with
    | none =>
      unfold loadFromPath
      rw [file]
      exact .pure fun l starting => .inl ⟨starting, rfl⟩
    | some place =>
      refine (loadFromPath_outcome agreeing file (found place file)).consequence
        (fun _ starting => starting) ?_
      intro r l outcome
      cases r with
      | error e => exact outcome
      | ok _ => exact .inr outcome

theorem unitNames_looked {nothing : Prop} :
    Triple (Looked h asked claims n u nothing) (unitNames u)
      (onOk (fun names l => Looked h asked claims n u nothing l ∧
        (l.registry.loadState u = .stub -> names.filter (· ≠ n) = []))
        (Outcome (A := Unit) h asked claims u (Looked h asked claims n u nothing))) := by
  refine Triple.read fun l looked => .pure ?_
  rintro _ ⟨rfl, _⟩
  refine ⟨looked, fun stub => ?_⟩
  rcases looked with ⟨starting, -⟩ | ended
  · rw [List.filter_eq_nil_iff]
    intro x mem
    simpa using starting.fresh.only x (starting.canon.named.mpr mem)
  · exact absurd stub ended.settled

omit [DecidableEq U] in
theorem otherNames_looked {nothing : Prop} {names : List CString} {p : CString -> Load U Unit} :
    Passes (fun l => Looked h asked claims n u nothing l ∧
        (l.registry.loadState u = .stub -> names.filter (· ≠ n) = []))
      (forEach (names.filter (· ≠ n)) fun t => whileStub u (p t)) := by
  by_cases alone : names.filter (· ≠ n) = []
  · rw [alone]
    exact .pure ()
  · exact .forEach fun t _ => whileStub_settled fun l both stub => alone (both.2 stub)

theorem unitLoadFragment_looked (agreeing : Agreeing h asked) (kind : unitNameToType n ≠ some .snapshot) :
    Triple (Starting h asked claims n u) (unitLoadFragment h u)
      (Outcome h asked claims u (Looked h asked claims n u (lookup h n = none))) := by
  refine Triple.read fun l starting => ?_
  rw [starting.fresh.id]
  change Triple _ (loadFromPath h u n >>= _) _
  refine Outcome.bind ((loadFromPath_looked agreeing (fun _ => lookup_direct kind)
    fun _ => lookup_error).consequence (fun _ both => both.2) fun _ _ after => after) fun _ => ?_
  refine .bind unitNames_looked fun names => otherNames_looked.followed fun _ => ?_
  refine Triple.consequence (Triple.either ?_ ?_) (fun _ both => both.1) fun _ _ after => after
  · -- The stub has no fragment path to look at either, so that its template remains.
    refine Passes.followed (P := fun l => Starting h asked claims n u l ∧ findFile h n = .ok none) ?_
      fun _ => whileStub_stub (fun _ both => both.1.stub) ?_
    · refine whileStub_stub (fun _ both => both.1.stub) (Triple.read fun l both => ?_)
      rw [both.1.fresh.path]
      exact .pure fun _ both => ⟨⟨(), rfl⟩, both.2⟩
    refine Triple.read fun l both => ?_
    obtain ⟨starting, direct⟩ := both
    have part := starting.canon.part n u n starting.own starting.fresh.id
    split_ifs with instance_
    · obtain ⟨piece, instancePart⟩ := isSome_iff_exists.mp instance_
      rw [instancePart] at part
      cases template : unitNameTemplate n with
      | none => exact .abort
      | some k =>
        have missing : (∀ found, findFile h k ≠ .ok (some found)) -> lookup h n = none := by
          refine fun file => lookup_nowhere direct fun _ k' found _ here => ?_
          rw [template] at here
          cases here
          exact file found
        change Triple _ (loadFromPath h u k >>= _) _
        refine Outcome.bind ((loadFromPath_looked agreeing ?_ ?_).consequence (fun _ both => both.2.1)
          fun _ _ after => after) fun _ => ?_
        · exact fun found file => lookup_template kind direct part template file
        · exact fun e file => missing (by simp [file])
        · refine .bind unitNames_looked fun names => otherNames_looked.consequence (fun _ both => both) ?_
          rintro r l ⟨⟨_, rfl⟩, ⟨starting, file⟩ | ended, -⟩
          · exact .inl ⟨starting, missing (by simp [file])⟩
          · exact .inr ended
    · rw [not_isSome_iff_eq_none.mp instance_] at part
      refine .pure fun _ both => .inl ⟨both.2.1, lookup_nowhere direct fun piece k found wrong => ?_⟩
      rw [part] at wrong
      cases wrong
  · refine (whileStub_settled fun _ ended => ended.settled).followed fun _ => ?_
    refine (whileStub_settled fun _ ended => ended.settled).consequence (fun _ ended => ended) ?_
    rintro r l ⟨⟨_, rfl⟩, ended⟩
    exact .inr ended

theorem failIfStub_looked :
    Triple (Looked h asked claims n u (lookup h n = none)) (failIfStub u)
      (Outcome h asked claims u (Ended h asked claims n u)) := by
  refine Triple.either ?_ ?_
  · refine whileStub_stub (fun _ both => both.1.stub) (.fail fun l both => ?_)
    exact both.1.failing (.of_none both.2)
  · refine (whileStub_settled fun _ ended => ended.settled).consequence (fun _ ended => ended) ?_
    rintro r l ⟨⟨_, rfl⟩, ended⟩
    exact ended

theorem Starting.ended (starting : Starting h asked claims n u l) (nothing : lookup h n = none) :
    Ended h asked claims n u (l.settle u .loaded (l.fragmentPath u)) := by
  refine ⟨starting.settle (.of_none nothing) (by decide) (by decide), ?_, fun _ => starting.own⟩
  simp [Loader.settle]

theorem settle_path (l : Loader U) (u : U) (loadState : UnitLoadState) :
    l.settle u loadState (l.fragmentPath u) =
      { l with registry := { l.registry with
        loadState := update l.registry.loadState u loadState } } := by
  rw [Loader.settle, update_eq_self]

theorem loadedIfStub_looked :
    Triple (Looked h asked claims n u (lookup h n = none)) (whileStub u (setLoadState u .loaded))
      (Outcome h asked claims u (Ended h asked claims n u)) := by
  refine Triple.either ?_ ?_
  · refine whileStub_stub (fun _ both => both.1.stub) (.change fun l both => ?_)
    exact settle_path l u .loaded ▸ both.1.ended both.2
  · refine (whileStub_settled fun _ ended => ended.settled).consequence (fun _ ended => ended) ?_
    rintro r l ⟨⟨_, rfl⟩, ended⟩
    exact ended

omit [DecidableEq U] in
theorem Ended.extends (ended : Ended h asked claims n u l) (live : l.registry.loadState u ≠ .merged)
    (extended : Extends h asked claims l l') : Ended h asked claims n u l' := by
  have own := ended.own live
  refine ⟨extended.canon none ended.canon, ?_, fun _ => extended.table n u own⟩
  rw [extended.loadState n u own]
  exact ended.settled

theorem Ended.failing (ended : Ended h asked claims n u l) (live : l.registry.loadState u ≠ .merged) :
    Failing h asked claims u l := by
  refine ⟨live, ended.canon.settle (.inl rfl) live (by decide) (by decide) ?_⟩
  have done := ended.canon.done n u (ended.own live) (by simp) ended.settled
  exact done.shrink (fun _ here => here) rfl (by simp [Loader.settle])

omit [DecidableEq U] in
theorem Done.claimant {i : CString} (done : Done h asked l u) (own : l.registry.units.get n = some u)
    (id : l.registry.id u = some i) :
    ∃ m, Loaded h asked m ∧ (i = m ∨ ∃ found, lookup h m = some found ∧ i = idOf m found) := by
  rcases done with ⟨s, loaded, -, fresh⟩ | ⟨j, file, filled⟩
  · rw [fresh.id, some.injEq] at id
    exact ⟨s, loaded, .inl id.symm⟩
  · rw [filled.id, some.injEq] at id
    obtain ⟨m, found, loaded, -, here, same, -⟩ := filled.names n own
    exact ⟨m, loaded, .inr ⟨found, here, id.symm.trans same.symm⟩⟩

section

variable (agreeing : Agreeing h asked)
include agreeing

theorem addExtras_ended :
    Triple (Ended h asked claims n u) (addExtras h u)
      (Outcome h asked claims u (Ended h asked claims n u)) := by
  refine Triple.read fun l ended => ?_
  split_ifs with loaded
  · have live : l.registry.loadState u ≠ .merged := by simp [loaded]
    have own := ended.own live
    obtain ⟨i, id, -⟩ := ended.canon.idNamed own
    obtain ⟨m, claimed, claimant⟩ := (ended.canon.done n u own (by simp) ended.settled).claimant own id
    have kept : Keeps (Extends h asked claims l)
        (forEach (h.extras l u).1 (runDirective h u) >>= fun _ => orFail (h.extras l u).2) := by
      refine .bind (.forEach fun directive listed => ?_) fun _ => ?_
      · refine runDirective_extends ⟨ended.canon, ⟨n, own⟩, id, ?_⟩ (agreeing.extras l u directive listed)
        exact fun part s piece asks valid =>
          .added l u m i part directive s claimed claimant id piece listed asks valid
      · unfold orFail
        cases (h.extras l u).2 with
        | ok _ => exact .pure ()
        | error e => exact .fail e
    refine kept.consequence ?_ ?_
    · rintro _ ⟨rfl, -⟩
      exact .refl _
    · intro r l' extended
      have after := ended.extends live extended
      cases r with
      | ok _ => exact after
      | error e =>
        refine after.failing ?_
        rw [extended.loadState n u own]
        exact live
  · exact .pure fun _ both => both.2

theorem load_outcome {t : UnitType} (kind : unitNameToType n = some t) :
    Triple (Starting h asked claims n u) (load h u t)
      (Outcome h asked claims u (Ended h asked claims n u)) := by
  have fragment : t ≠ .snapshot -> Triple (Starting h asked claims n u) (unitLoadFragment h u)
      (Outcome h asked claims u (Looked h asked claims n u (lookup h n = none))) := by
    refine fun other => unitLoadFragment_looked agreeing ?_
    rw [kind]
    exact fun same => other (some.inj same)
  have dropins : ∀ {f : Unit -> Load U Unit}, (∀ a, Triple (Ended h asked claims n u) (f a)
      (Outcome h asked claims u (Ended h asked claims n u))) -> Triple (Ended h asked claims n u)
      (dropin h u >>= f) (Outcome h asked claims u (Ended h asked claims n u)) :=
    fun later => (dropin_passes agreeing).followed later
  have last : Triple (Ended h asked claims n u) (dropin h u)
      (Outcome h asked claims u (Ended h asked claims n u)) := by
    refine (dropin_passes agreeing).consequence (fun _ ended => ended) ?_
    rintro r l ⟨⟨_, rfl⟩, ended⟩
    exact ended
  have strict : t ≠ .snapshot -> Triple (Starting h asked claims n u) (unitLoadFragmentAndDropin h u)
      (Outcome h asked claims u (Ended h asked claims n u)) := fun other =>
    Outcome.bind (fragment other) fun _ => Outcome.bind failIfStub_looked fun _ => last
  have optional : t ≠ .snapshot -> Triple (Starting h asked claims n u)
      (unitLoadFragmentAndDropinOptional h u)
      (Outcome h asked claims u (Ended h asked claims n u)) := fun other =>
    Outcome.bind (fragment other) fun _ => Outcome.bind loadedIfStub_looked fun _ => last
  cases t with
  | service =>
    refine Outcome.bind (fragment (by decide)) fun _ => (serviceLoadSysv_passes agreeing).followed fun _ => ?_
    exact Outcome.bind failIfStub_looked fun _ => dropins fun _ => addExtras_ended agreeing
  | snapshot =>
    have nothing : lookup h n = none := by rw [lookup, if_pos kind]
    unfold load snapshotLoad
    dsimp only
    split_ifs
    · refine .change fun l starting => ?_
      exact settle_path l u .loaded ▸ starting.ended nothing
    · exact .fail fun l starting => starting.failing (.of_none nothing)
  | socket | target | timer | path =>
    exact Outcome.bind (strict (by decide)) fun _ => addExtras_ended agreeing
  | device | mount | automount | swap =>
    exact Outcome.bind (optional (by decide)) fun _ => addExtras_ended agreeing

theorem loadOrFail_outcome :
    Triple (Starting h asked claims n u) (loadOrFail h u)
      (Outcome h asked claims u (Ended h asked claims n u)) := by
  refine Triple.read fun l starting => ?_
  obtain ⟨typed, -⟩ := starting.canon.kind starting.own
  obtain ⟨t, part, loadable⟩ := starting.canon.loadable n u starting.own
  rw [typed, loadable.kind]
  change Triple _ (load h u t >>= _) _
  refine Outcome.bind ((load_outcome agreeing loadable.kind).consequence (fun _ both => both.2)
    fun _ _ after => after) fun _ => ?_
  refine (whileStub_settled fun _ ended => ended.settled).consequence (fun _ ended => ended) ?_
  rintro r l ⟨⟨_, rfl⟩, ended⟩
  exact ended

end

end Systemd.Loading

namespace Systemd.Loading

open Program

variable {U : Type} [DecidableEq U] {h : Host U} {asked : List CString}
  {claims : U -> CString -> Prop} {busy : Option U} {l l' : Loader U} {u v : U} {n : CString}

theorem Canon.dequeue (canon : Canon h asked claims none l)
    (covers : busy ≠ some u -> ∀ s, l.registry.units.get s = some u -> l.registry.loadState u ≠ .stub) :
    Canon h asked claims busy { l with loadQueue := l.loadQueue.filter (· ≠ u) } := by
  refine ⟨canon.held, canon.idle, canon.keys, canon.known, canon.loadable, canon.part, ?_, ?_, ?_,
    canon.sole⟩
  · intro w waits stub
    exact canon.queued w (List.mem_filter.mp waits).1 stub
  · intro s w here other stub
    have ne : w ≠ u := by
      rintro rfl
      exact covers other s here stub
    obtain ⟨waits, loaded, fresh⟩ := canon.stub s w here (by simp) stub
    exact ⟨List.mem_filter.mpr ⟨waits, by simpa using ne⟩, loaded, fresh.only, fresh.id, fresh.path⟩
  · intro s w here _ settled
    exact (canon.done s w here (by simp) settled).shrink (fun _ there => there) rfl rfl

variable {r : Except LoadErrno Unit} {part : Option CString}

theorem Canon.unitLoad (agreeing : Agreeing h asked) (canon : Canon h asked claims none l)
    (waits : u ∈ l.loadQueue) (run : unitLoad h u l = some (r, l')) : Canon h asked claims none l' := by
  rw [Loading.unitLoad, change_bind, read_bind] at run
  dsimp only at run
  split_ifs at run with typeless settled
  · obtain ⟨rfl, rfl⟩ := fail_eq_some.mp run
    refine canon.dequeue fun _ s here => ?_
    obtain ⟨typed, -⟩ := canon.kind here
    obtain ⟨t, part, loadable⟩ := canon.loadable s u here
    rw [typeless, loadable.kind] at typed
    cases typed
  · obtain ⟨rfl, rfl⟩ := pure_eq_some.mp run
    exact canon.dequeue fun _ _ _ => settled
  · have stub : l.registry.loadState u = .stub := not_not.mp settled
    obtain ⟨s, here⟩ := canon.queued u waits stub
    obtain ⟨-, begun, only, id, path⟩ := canon.stub s u here (by simp) stub
    have starting : Starting h asked claims s u { l with loadQueue := l.loadQueue.filter (· ≠ u) } :=
      ⟨canon.dequeue fun wrong => absurd rfl wrong, begun, stub, here, only, id, path⟩
    obtain ⟨outcome, middle, loaded, run⟩ := attempt_bind.mp run
    have after := loadOrFail_outcome agreeing _ outcome middle starting loaded
    cases outcome with
    | ok _ =>
      simp only [read_bind] at run
      split_ifs at run
      · obtain ⟨rfl, rfl⟩ := pure_eq_some.mp run
        exact after.canon
      · cases run
    | error e =>
      simp only [setLoadState, change_bind] at run
      obtain ⟨rfl, rfl⟩ := fail_eq_some.mp run
      exact settle_path middle u .error ▸ after.2

theorem Canon.dispatch (agreeing : Agreeing h asked) {fuel : Nat} (canon : Canon h asked claims none l)
    (run : managerDispatchLoadQueue h fuel l = some (r, l')) :
    r = .ok () ∧ Canon h asked claims none l' ∧ l'.loadQueue = [] := by
  induction fuel generalizing l with
  | zero => cases run
  | succ fuel ih =>
    rw [managerDispatchLoadQueue, read_bind] at run
    cases queue : l.loadQueue with
    | nil =>
      simp only [queue] at run
      obtain ⟨rfl, rfl⟩ := pure_eq_some.mp run
      exact ⟨rfl, canon, queue⟩
    | cons u rest =>
      simp only [queue] at run
      obtain ⟨outcome, middle, loaded, later⟩ := attempt_bind.mp run
      exact ih (canon.unitLoad agreeing (by simp [queue]) loaded) later

theorem unitAddName_fresh {m m1 m2 : Registry U} {t : UnitType} {result : Except RegistryErrno Unit}
    (new : m.unitNew u = some m1) (free : m.units.get n = none) (loadable : Loadable n t part)
    (room : m.units.length < managerMaxNames)
    (run : m1.unitAddName (fun _ => true) u n = some (m2, result)) : result = .ok () := by
  obtain ⟨-, rfl⟩ := unitNew_stub new
  have complete : ∀ m : Registry U, m.completeName u n = some (.ok n) := by
    intro m
    rw [Registry.completeName, if_neg (by simp [loadable.plain])]
  have noInstances : ¬(part.isSome = true ∧ t.noInstances = true) := by
    rintro ⟨instanced, refused⟩
    rw [loadable.instances instanced] at refused
    cases refused
  have first : OrderedSet.empty.members = ([] : List CString) := rfl
  have full : ¬m.units.length ≥ managerMaxNames := by omega
  rw [Registry.unitAddName, if_neg (by simp), complete, Option.bind_some] at run
  simp [Registry.checkName, loadable.valid, loadable.kind, loadable.piece, noInstances, full,
    first, Registry.enterName, free] at run
  exact run.2.symm

omit [DecidableEq U] in
theorem Canon.claim (canon : Canon h asked claims busy l) (own : l.registry.units.get n = some u) :
    Canon h asked (fun w x => claims w x ∨ (w = u ∧ x = n)) busy l := by
  refine { canon with held := ⟨canon.held.1, ?_⟩ }
  rintro w x (given | ⟨rfl, rfl⟩)
  · exact canon.held.2 w x given
  · exact ⟨w, .stays w (canon.held.1.alive own) (canon.held.1.unmerged own), own⟩

theorem managerLoadUnitPrepare_loadable {t : UnitType} (loadable : Loadable n t part)
    (room : l.registry.units.get n = none -> l.registry.units.length < managerMaxNames)
    {r : Except LoadErrno (U × Bool)} (run : managerLoadUnitPrepare h (some n) none l = some (r, l')) :
    ∃ prepared, r = .ok prepared := by
  unfold managerLoadUnitPrepare at run
  rw [if_neg (by simp)] at run
  obtain ⟨s, given, run⟩ := orAbort_bind.mp run
  obtain rfl : n = s := by simpa using given
  rw [if_neg (by simp [loadable.valid]), read_bind] at run
  cases entry : l.registry.units.get n with
  | some u =>
    simp only [entry] at run
    obtain ⟨rfl, -⟩ := pure_eq_some.mp run
    exact ⟨_, rfl⟩
  | none =>
    simp only [entry] at run
    obtain ⟨m, new, run⟩ := unitNew_bind.mp run
    rw [setFragmentPath, change_bind] at run
    obtain ⟨inner, middle, named, run⟩ := attempt_bind.mp run
    obtain ⟨m', result, added, rfl, rfl⟩ := registryCall_eq_some.mp named
    obtain rfl := unitAddName_fresh new entry loadable (room entry) added
    obtain ⟨rfl, -⟩ := pure_eq_some.mp run
    exact ⟨_, rfl⟩

theorem Canon.managerLoadUnit (agreeing : Agreeing h asked) (canon : Canon h asked claims none l)
    (queue : l.loadQueue = []) (mem : n ∈ asked) {r : Except LoadErrno U}
    (run : managerLoadUnit h (some n) none l = some (r, l')) :
    ∃ more : U -> CString -> Prop, Canon h asked more none l' ∧ l'.loadQueue = [] ∧
      (∀ w s, claims w s -> more w s) ∧ ∀ t part, Loadable n t part -> ∃ w, more w n := by
  have begun : Loaded h asked n := .asked n mem
  have room := canon.room agreeing (.inl begun)
  have refused : ∀ {e middle}, managerLoadUnitPrepare h (some n) none l = some (.error e, middle) ->
      ∀ t part, Loadable n t part -> ∃ w, claims w n := by
    intro e middle stops t part loadable
    obtain ⟨_, wrong⟩ := managerLoadUnitPrepare_loadable loadable room stops
    cases wrong
  rcases bind_eq_some.mp run with ⟨e, stops, rfl⟩ | ⟨⟨u, known⟩, middle, first, later⟩
  · refine ⟨claims, ?_, ?_, fun _ _ given => given, refused stops⟩
    · exact ((managerLoadUnitPrepare_prepares stops).extends canon.held.1 fun _ => begun).canon none canon
    · cases managerLoadUnitPrepare_prepares stops with
      | refused _ same => rw [same, queue]
      | dropped _ _ _ filtered _ => rw [filtered, queue, List.filter_nil]
  · cases managerLoadUnitPrepare_prepares first with
    | known s _ given same entry =>
      obtain ⟨rfl, rfl⟩ := pure_eq_some.mp later
      obtain rfl : n = s := by simpa using given
      subst same
      exact ⟨_, canon.claim entry, queue, fun _ _ => .inl, fun _ _ _ => ⟨u, .inr ⟨rfl, rfl⟩⟩⟩
    | stub s _ t part given fresh free loadable registry added paths =>
      obtain rfl : n = s := by simpa using given
      have stubs := (canon.withStub fresh free loadable begun registry added paths).1
      rcases bind_eq_some.mp later with ⟨e, stops, rfl⟩ | ⟨_, last, dispatched, ended⟩
      · obtain ⟨wrong, -⟩ := stubs.dispatch agreeing stops
        cases wrong
      · obtain ⟨-, done, empty⟩ := stubs.dispatch agreeing dispatched
        obtain ⟨_, _, _, rfl⟩ := unitFollowMerge_eq_some.mp ended
        exact ⟨_, done, empty, fun _ _ => .inl, fun _ _ _ => ⟨u, .inr ⟨rfl, rfl⟩⟩⟩

end Systemd.Loading
