import Mathlib.Data.Set.Finite.Basic
import Systemd.Loading.Looked

set_option autoImplicit false

namespace Systemd.Loading

open Program List Option Function

variable {U : Type} [DecidableEq U]

/-- The unit whose file is read. Its names may have gone to another unit, which is its owner. -/
structure Site (h : Host U) (u owner : U) (i : CString) (part : Option CString) (l : Loader U) :
    Prop where
  settled : Settled l.registry
  follows : l.registry.unitFollowMerge h.fuel u = some owner
  id : l.registry.id u = some i
  instancePart : l.registry.instancePart u = part
  finite : {v | l.registry.alive v = true}.Finite

def Allocates (h : Host U) : Prop :=
  ∀ l : Loader U, {v | l.registry.alive v = true}.Finite -> l.registry.alive (h.address l) = false

structure Welcome (l : Loader U) (n : CString) : Prop where
  valid : unitNameIsValid n false = true
  unit : (l.registry.units.get n).isSome = true ∨
    (∃ t part, Loadable n t part) ∧ l.registry.units.length < managerMaxNames

section

variable {m m' m1 : Registry U} {u v : U} {n : CString}

theorem links_free {alive : U -> Bool} {fuel : Nat} {links : Links U} (none' : ∀ d, links u d = none) :
    links.freeAllDependencies alive fuel u = some links := by
  have each : ∀ d, Links.bidiSetFree alive fuel u links d = some links := by
    intro d
    cases fuel <;> simp [Links.bidiSetFree, Links.setForeach, none' d, Links.foreachMember]
  have all : UnitDependency.all.foldlM (Links.bidiSetFree alive fuel u) links = some links := by
    induction UnitDependency.all with
    | nil => rfl
    | cons d rest ih =>
      rw [foldlM_cons, each]
      exact ih
  rw [Links.freeAllDependencies, all]
  refine congrArg some ?_
  funext w d
  by_cases same : w = u
  · simp [same, none' d]
  · simp [same]

theorem unitAddName_first (new : m.unitNew u = some m1) (free : m.units.get n = none)
    (valid : unitNameIsValid n false = true) :
    (∃ t part, Loadable n t part ∧ m.units.length < managerMaxNames ∧
        m1.unitAddName (fun _ => true) u n = some (withStub m u n t part, .ok ())) ∨
      ¬ ((∃ t part, Loadable n t part) ∧ m.units.length < managerMaxNames) ∧
        ∃ e, m1.unitAddName (fun _ => true) u n = some (m1, .error e) := by
  have complete : unitNameIsTemplate n = false -> ∀ m : Registry U, m.completeName u n = some (.ok n) := by
    intro plain m
    rw [Registry.completeName, plain, if_neg Bool.false_ne_true]
  have alive : m1.alive u = true := by
    rw [(unitNew_stub new).2]
    simp
  by_cases template : unitNameIsTemplate n = true
  · refine .inr ⟨fun good => ?_, .einval, ?_⟩
    · obtain ⟨⟨t, part, loadable⟩, -⟩ := good
      rw [loadable.plain] at template
      cases template
    · have missing : m1.instancePart u = none := by
        rw [(unitNew_stub new).2]
        simp
      rw [Registry.unitAddName, if_neg (by simp [alive]), Registry.completeName, if_pos template, missing]
      rfl
  · rw [Bool.not_eq_true] at template
    obtain ⟨t, kind⟩ : ∃ t, unitNameToType n = some t := by
      unfold unitNameIsValid at valid
      split at valid
      next => cases valid
      next t kind => exact ⟨t, kind⟩
    obtain ⟨part, piece⟩ : ∃ part, unitNameToInstance n = some part := by
      rcases (name_cases valid).2 with ⟨kind, front, whole, -, noAt⟩ | ⟨kind, before, after, whole, first, -⟩
      · exact ⟨none, by rw [unitNameToInstance, strchr_none noAt]⟩
      · exact ⟨_, (instanced_name whole first).1⟩
    by_cases good : (∃ t part, Loadable n t part) ∧ m.units.length < managerMaxNames
    · obtain ⟨⟨t, part, loadable⟩, room⟩ := good
      refine .inl ⟨t, part, loadable, room, ?_⟩
      have ended : (m1.unitAddName (fun _ => true) u n).isSome = true := by
        obtain ⟨-, rfl⟩ := unitNew_stub new
        rw [Registry.unitAddName, if_neg (by simp), complete loadable.plain, bind_some]
        simp only [Registry.checkName, loadable.valid, loadable.kind, loadable.piece]
        simp only [update_self, OrderedSet.not_mem_empty, ne_eq, not_true_eq_false,
          false_and, if_false, Bool.true_eq_false, and_false, Registry.enterName, free]
        split_ifs <;> rfl
      obtain ⟨⟨m2, result⟩, run⟩ := isSome_iff_exists.mp ended
      obtain rfl := unitAddName_fresh new free loadable room run
      obtain ⟨t', part', loadable', rfl⟩ := withStub_named new free run
      rw [run]
      obtain rfl : t = t' := some.inj (loadable.kind.symm.trans loadable'.kind)
      obtain rfl : part = part' := some.inj (loadable.piece.symm.trans loadable'.piece)
      rfl
    · refine .inr ⟨good, ?_⟩
      have checked : ∃ e, m1.checkName (fun _ => true) u n = some (.error e) := by
        obtain ⟨-, rfl⟩ := unitNew_stub new
        by_cases instanced : part.isSome = true ∧ t.noInstances = true
        · refine ⟨.einval, ?_⟩
          simp only [Registry.checkName, valid, kind, piece]
          simp [instanced]
        · refine ⟨.e2big, ?_⟩
          have full : m.units.length ≥ managerMaxNames := by
            by_contra room
            refine good ⟨⟨t, part, valid, template, kind, piece, fun isSome => ?_⟩, by omega⟩
            by_contra refused
            exact instanced ⟨isSome, by simpa using refused⟩
          have first : OrderedSet.empty.members = ([] : List CString) := rfl
          simp only [Registry.checkName, valid, kind, piece]
          simp [instanced, full, first]
      obtain ⟨e, refused⟩ := checked
      refine ⟨e, ?_⟩
      rw [Registry.unitAddName, if_neg (by simp [alive]), complete template, bind_some]
      simp [refused]

theorem unitFree_new {fuel : Nat} (new : m.unitNew u = some m1) :
    ∃ m2, m1.unitFree fuel u = some m2 ∧ m2.units = m.units ∧ m2.alive = m.alive ∧
      ∀ v, v ≠ u -> m2.id v = m.id v ∧ m2.instancePart v = m.instancePart v ∧
        m2.loadState v = m.loadState v ∧ m2.mergedInto v = m.mergedInto v ∧
        m2.dependencies v = m.dependencies v := by
  obtain ⟨fresh, rfl⟩ := unitNew_stub new
  have free := @links_free _ _ u (update m.alive u true) fuel
    (update m.dependencies u fun _ => none) (by simp)
  refine ⟨_, by rw [Registry.unitFree, if_neg (by simp), free, map_some], ?_, ?_, ?_⟩
  · simp [Registry.setMembers, OrderedSet.empty]
  · funext v
    by_cases same : v = u <;> simp [same, fresh]
  · intro v other
    simp [other]

end

structure Unchanged (l l' : Loader U) : Prop where
  settled : Settled l'.registry
  units : l'.registry.units = l.registry.units
  alive : l'.registry.alive = l.registry.alive
  kept : ∀ v, l.registry.alive v = true -> l'.registry.id v = l.registry.id v ∧
    l'.registry.instancePart v = l.registry.instancePart v ∧
    l'.registry.loadState v = l.registry.loadState v ∧
    l'.registry.mergedInto v = l.registry.mergedInto v ∧
    l'.registry.dependencies v = l.registry.dependencies v

section

variable {h : Host U} {l l' : Loader U} {u owner v : U} {i n : CString} {part : Option CString}

omit [DecidableEq U] in
theorem Unchanged.refl (settled : Settled l.registry) : Unchanged l l :=
  ⟨settled, rfl, rfl, fun _ _ => ⟨rfl, rfl, rfl, rfl, rfl⟩⟩

def onceNamed (h : Host U) (u : U) : Except LoadErrno Unit -> Load U (U × Bool)
  | .error e => unitFree h u >>= fun _ => fail e
  | .ok () => unitAddToLoadQueue u >>= fun _ => pure (u, false)

theorem managerLoadUnitPrepare_run (allocates : Allocates h) (settled : Settled l.registry)
    (finite : {v | l.registry.alive v = true}.Finite) (n : CString) :
    (∃ y, l.registry.units.get n = some y ∧ Welcome l n ∧
        managerLoadUnitPrepare h (some n) none l = some (.ok (y, true), l)) ∨
      (∃ t part l', l.registry.units.get n = none ∧ Welcome l n ∧ Loadable n t part ∧
        l.registry.alive (h.address l) = false ∧
        managerLoadUnitPrepare h (some n) none l = some (.ok (h.address l, false), l') ∧
        l'.registry = withStub l.registry (h.address l) n t part) ∨
      ¬ Welcome l n ∧ ∃ e l', managerLoadUnitPrepare h (some n) none l = some (.error e, l') ∧
        Unchanged l l' := by
  by_cases valid : unitNameIsValid n false = true
  · cases entry : l.registry.units.get n with
    | some y =>
      refine .inl ⟨y, rfl, ⟨valid, .inl (by rw [entry]; rfl)⟩, ?_⟩
      unfold managerLoadUnitPrepare
      rw [if_neg (by simp)]
      refine orAbort_bind.mpr ⟨n, rfl, ?_⟩
      rw [if_neg (by simp [valid]), read_bind, entry]
      rfl
    | none =>
      have fresh := allocates l finite
      obtain ⟨m1, new⟩ : ∃ m1, l.registry.unitNew (h.address l) = some m1 := by
        rw [Registry.unitNew, if_neg (by simp [fresh])]
        exact ⟨_, rfl⟩
      have begins : ∀ {r l'} {inner middle},
          unitAddName (h.address l) n { l with
              registry := m1
              fragmentPath := update (update l.fragmentPath (h.address l) none)
                (h.address l) none } = some (inner, middle) ->
          onceNamed h (h.address l) inner middle = some (r, l') ->
          managerLoadUnitPrepare h (some n) none l = some (r, l') := by
        intro r l' inner middle named later
        unfold managerLoadUnitPrepare
        rw [if_neg (by simp)]
        refine orAbort_bind.mpr ⟨n, rfl, ?_⟩
        rw [if_neg (by simp [valid]), read_bind, entry]
        refine unitNew_bind.mpr ⟨m1, new, ?_⟩
        rw [setFragmentPath, change_bind]
        refine attempt_bind.mpr ⟨inner, middle, named, ?_⟩
        cases inner with
        | error e => exact later
        | ok _ => exact later
      rcases unitAddName_first new entry valid with ⟨t, part, loadable, room, named⟩ | ⟨full, e, refused⟩
      · have ended := begins (registryCall_eq_some.mpr ⟨_, _, named, rfl, rfl⟩) rfl
        exact .inr (.inl ⟨t, part, _, rfl, ⟨valid, .inr ⟨⟨t, part, loadable⟩, room⟩⟩, loadable, fresh,
          ended, rfl⟩)
      · obtain ⟨m2, freed, units, alive, kept⟩ := @unitFree_new _ _ _ _ _ h.fuel new
        have stopped := begins (registryCall_eq_some.mpr ⟨_, _, refused, rfl, rfl⟩)
          (unitFree_bind.mpr ⟨m2, freed, rfl⟩)
        refine .inr (.inr ⟨fun welcome => ?_, _, _, stopped, ?_⟩)
        · rcases welcome.unit with known | good
          · rw [entry] at known
            cases known
          · exact full good
        · have held : Held (fun _ _ => False) l.registry := ⟨settled, fun _ _ => False.elim⟩
          refine ⟨(held.elsewhere (elsewhere_freed new refused freed)).1, units, alive, ?_⟩
          intro v living
          exact kept v fun same => by simp [same, fresh] at living
  · refine .inr (.inr ⟨fun welcome => valid welcome.valid, einval, l, ?_, .refl settled⟩)
    unfold managerLoadUnitPrepare
    rw [if_neg (by simp)]
    refine orAbort_bind.mpr ⟨n, rfl, ?_⟩
    rw [if_pos (by simpa using valid)]
    rfl

end

section

variable {links : Links U} {u other : U} {d : UnitDependency}

theorem setEnsureAllocated_memory (links : Links U) (u : U) (d : UnitDependency) :
    ∃ links', links.setEnsureAllocated true u d = .ok links' ∧ links' u d ≠ none ∧
      ∀ v k, links v k ≠ none -> links' v k ≠ none := by
  unfold Links.setEnsureAllocated
  cases here : links u d with
  | some set => exact ⟨links, rfl, by simp [here], fun _ _ there => there⟩
  | none =>
    refine ⟨_, rfl, by simp [Links.assign], fun v k there => ?_⟩
    unfold Links.assign
    split
    next => simp
    next => exact there

theorem prepareSets_memory (links : Links U) (u other : U) (d : UnitDependency) :
    ∃ links', links.prepareSets (fun _ => true) u d other true = .ok links' ∧ links' u d ≠ none ∧
      (∀ e, d.inverse = some e -> links' other e ≠ none) ∧ links' u .references ≠ none ∧
      links' other .referencedBy ≠ none := by
  obtain ⟨first, ran, own, kept⟩ := setEnsureAllocated_memory links u d
  obtain ⟨second, ran', inverse, kept'⟩ : ∃ second,
      first.ensureInverse true d other = .ok second ∧
        (∀ e, d.inverse = some e -> second other e ≠ none) ∧
        ∀ v k, first v k ≠ none -> second v k ≠ none := by
    unfold Links.ensureInverse
    cases d.inverse with
    | none => exact ⟨first, rfl, by simp, fun _ _ there => there⟩
    | some e =>
      obtain ⟨second, ran, here, kept⟩ := setEnsureAllocated_memory first other e
      refine ⟨second, ran, ?_, kept⟩
      rintro e' same
      exact some.inj same ▸ here
  obtain ⟨third, ran3, references, kept3⟩ := setEnsureAllocated_memory second u .references
  obtain ⟨fourth, ran4, referenced, kept4⟩ := setEnsureAllocated_memory third other .referencedBy
  refine ⟨fourth, ?_, kept4 _ _ (kept3 _ _ (kept' _ _ own)),
    fun e same => kept4 _ _ (kept3 _ _ (inverse e same)), kept4 _ _ references, referenced⟩
  simp only [Links.prepareSets, ran, ran', Links.ensureReferences, if_true, bind, Except.bind, ran3,
    ran4]

theorem putLink_memory (allocated : links u d ≠ none) :
    ∃ links' new, links.putLink true u d other = some (links', new) ∧
      ∀ v k, links v k ≠ none -> links' v k ≠ none := by
  unfold Links.putLink
  cases here : links u d with
  | none => exact absurd here allocated
  | some set =>
    dsimp only
    split
    next => exact ⟨_, _, rfl, fun _ _ there => there⟩
    next =>
      refine ⟨_, _, rfl, fun v k there => ?_⟩
      unfold Links.assign
      split
      next => simp
      next => exact there

theorem addDependency_memory (links : Links U) (u other : U) (d : UnitDependency) :
    ∃ links', links.addDependency (fun _ => true) u d other true = .ok links' := by
  obtain ⟨prepared, ran, own, inverse, references, referenced⟩ := prepareSets_memory links u other d
  obtain ⟨first, q, ran1, kept1⟩ := @putLink_memory _ _ _ _ other _ own
  obtain ⟨second, v, ran2, kept2⟩ : ∃ second v,
      first.putInverse true u d other = some (second, v) ∧
        ∀ w k, first w k ≠ none -> second w k ≠ none := by
    unfold Links.putInverse
    cases kind : d.inverse with
    | none => exact ⟨first, false, rfl, fun _ _ there => there⟩
    | some e => exact putLink_memory (kept1 _ _ (inverse e kind))
  obtain ⟨third, w, ran3, kept3⟩ := @putLink_memory _ _ _ _ other _ (kept2 _ _ (kept1 _ _ references))
  obtain ⟨fourth, x, ran4, -⟩ := @putLink_memory _ _ _ _ u _
    (kept3 _ _ (kept2 _ _ (kept1 _ _ referenced)))
  refine ⟨fourth, ?_⟩
  simp only [Links.addDependency, ran, bind, Except.bind, Links.putAll, ran1, ran2, if_true, ran3, ran4]

end

section

variable {h : Host U} {l l' : Loader U} {u owner : U} {i n : CString} {part : Option CString}
  {d : UnitDependency}

omit [DecidableEq U] in
theorem follows_kept {m m' : Registry U} {fuel : Nat} {t : U} (kept : ∀ v, m.alive v = true -> m'.alive v
      = true ∧ m'.loadState v = m.loadState v ∧ m'.mergedInto v = m.mergedInto v)
    (run : m.unitFollowMerge fuel u = some t) : m'.unitFollowMerge fuel u = some t := by
  induction fuel generalizing u with
  | zero => cases run
  | succ fuel ih =>
    rw [Registry.unitFollowMerge] at run ⊢
    split_ifs at run with dead merged
    · obtain ⟨alive, state, into⟩ := kept u (by simpa using dead)
      obtain ⟨v, target, rest⟩ := bind_eq_some_iff.mp run
      rw [if_neg (by simp [alive]), if_pos (state.trans merged), into, target]
      exact ih rest
    · obtain ⟨alive, state, -⟩ := kept u (by simpa using dead)
      rw [if_neg (by simp [alive]), if_neg (by rwa [state])]
      exact run

section

variable (site : Site h u owner i part l)
include site

section

omit [DecidableEq U]

theorem Site.ends : l.registry.alive owner = true ∧ l.registry.loadState owner ≠ .merged :=
  (Leads.of_follow site.follows).ends

theorem Site.alive : l.registry.alive u = true := by
  have leads := Leads.of_follow site.follows
  cases leads with
  | stays _ alive _ => exact alive
  | follows _ _ _ alive => exact alive

theorem Site.fuel : h.fuel ≠ 0 := by
  intro empty
  have follows := site.follows
  rw [empty] at follows
  cases follows

theorem Site.unchanged (unchanged : Unchanged l l') : Site h u owner i part l' := by
  obtain ⟨id, instancePart, -⟩ := unchanged.kept u site.alive
  refine ⟨unchanged.settled, follows_kept (fun v alive => ?_) site.follows, id.trans site.id,
    instancePart.trans site.instancePart, by rw [unchanged.alive]; exact site.finite⟩
  obtain ⟨-, -, state, into, -⟩ := unchanged.kept v alive
  exact ⟨(congrFun unchanged.alive v).trans alive, state, into⟩

theorem Site.known {y : U} (here : l.registry.units.get n = some y) :
    l.registry.unitFollowMerge h.fuel y = some y := by
  obtain ⟨fuel, same⟩ := Nat.exists_eq_succ_of_ne_zero site.fuel
  rw [same, Registry.unitFollowMerge, if_neg (by simp [site.settled.alive here]),
    if_neg (site.settled.unmerged here)]

end

end

def LinkedTo (d : UnitDependency) (owner : U) (l : Loader U) (y : U) : Prop :=
  l.registry.dependencies.Linked d owner y

theorem unitAddDependency_run (site : Site h u owner i part l) (d : UnitDependency) {y : U}
    (here : l.registry.units.get n = some y) :
    ∃ l', unitAddDependency h u d y l = some (.ok (), l') ∧ Site h u owner i part l' ∧
      l'.registry.units = l.registry.units ∧
      ∀ z, LinkedTo d owner l' z ↔ LinkedTo d owner l z ∨ (z = y ∧ z ≠ owner) := by
  have follows := site.known here
  by_cases self : owner = y
  · refine ⟨l, ?_, site, rfl, fun z => ?_⟩
    · refine registryCall_eq_some.mpr ⟨l.registry, .ok (), ?_, rfl, rfl⟩
      rw [Registry.unitAddDependency, site.follows, bind_some, follows, bind_some,
        if_pos self]
    · subst self
      simp
  · obtain ⟨links, added⟩ := addDependency_memory l.registry.dependencies owner y d
    have run : l.registry.unitAddDependency (fun _ => true) h.fuel u d y true =
        some ({ l.registry with dependencies := links }, .ok ()) := by
      rw [Registry.unitAddDependency, site.follows, bind_some, follows, bind_some,
        if_neg self, added]
    have held : Held (fun _ _ => False) l.registry := ⟨site.settled, fun _ _ => False.elim⟩
    have follows' : ({ l.registry with dependencies := links } : Registry U).unitFollowMerge h.fuel u =
        some owner := by
      refine follows_kept (fun v alive => ?_) site.follows
      exact ⟨alive, rfl, rfl⟩
    refine ⟨_, registryCall_eq_some.mpr ⟨_, _, run, rfl, rfl⟩,
      ⟨(held.unitAddDependency run).1, follows', site.id, site.instancePart, site.finite⟩, rfl,
      fun z => ?_⟩
    have apart : y ≠ owner := fun same => self same.symm
    rw [LinkedTo, LinkedTo, Links.addDependency_ok added d owner z, Links.Asked]
    constructor
    · rintro (before | ⟨-, -, rfl⟩ | ⟨-, same, -⟩ | ⟨-, ⟨-, -, rfl⟩ | ⟨-, same, -⟩⟩)
      · exact .inl before
      · exact .inr ⟨rfl, apart⟩
      · exact absurd same self
      · exact .inr ⟨rfl, apart⟩
      · exact absurd same self
    · rintro (before | ⟨rfl, -⟩)
      · exact .inl before
      · exact .inr (.inl ⟨rfl, rfl, rfl⟩)

structure Adds (d : UnitDependency) (owner : U) (n : CString) (l l' : Loader U) : Prop where
  known : ∀ x y, l.registry.units.get x = some y -> l'.registry.units.get x = some y
  only : ∀ x y, l'.registry.units.get x = some y -> l.registry.units.get x = some y ∨ x = n
  here : (l'.registry.units.get n).isSome = true
  apart : l.registry.units.get n = none -> ∀ y, l'.registry.units.get n = some y ->
    y ≠ owner ∧ ∀ x, l.registry.units.get x ≠ some y
  length : l'.registry.units.length =
    l.registry.units.length + if l.registry.units.get n = none then 1 else 0
  links : ∀ z, LinkedTo d owner l' z ↔
    LinkedTo d owner l z ∨ (l'.registry.units.get n = some z ∧ z ≠ owner)

theorem Site.withStub (site : Site h u owner i part l) {v : U} {t : UnitType} {p : Option CString}
    (fresh : l.registry.alive v = false) (free : l.registry.units.get n = none)
    (loadable : Loadable n t p) (registry : l'.registry = withStub l.registry v n t p) :
    Site h u owner i part l' := by
  have held : Held (fun _ _ => False) l.registry := ⟨site.settled, fun _ _ => False.elim⟩
  have other : ∀ w, l.registry.alive w = true -> w ≠ v := by
    rintro w alive rfl
    rw [fresh] at alive
    cases alive
  have own := other u site.alive
  constructor
  case settled => exact registry ▸ (held.withStub fresh free loadable).1
  case follows =>
    refine follows_kept (fun w alive => ?_) site.follows
    simp [registry, Loading.withStub, other w alive, alive]
  case id => simpa [registry, Loading.withStub, own] using site.id
  case instancePart => simpa [registry, Loading.withStub, own] using site.instancePart
  case finite =>
    refine (site.finite.insert v).subset fun w alive => ?_
    by_cases same : w = v
    · exact .inl same
    · exact .inr (by simpa [registry, Loading.withStub, same] using alive)

theorem resolved_some (i : CString) (part : Option CString) (word : CString) :
    ∃ n, resolved i part word = some n := by
  unfold resolved
  split
  next template =>
    unfold unitNameIsTemplate at template
    split at template
    next => cases template
    next position found =>
      have dot : '.'.toUInt8 ∈ word.bytes := by
        have first := of_decide_eq_true template
        exact mem_of_mem_drop (mem_of_mem_head? first)
      obtain ⟨e, last⟩ : ∃ e, strrchr word.bytes '.'.toUInt8 = some e := by
        unfold strrchr
        cases place : word.bytes.reverse.idxOf? '.'.toUInt8 with
        | none =>
          rw [idxOf?_eq_none_iff, mem_reverse] at place
          exact absurd dot place
        | some e => exact ⟨_, rfl⟩
      exact ⟨_, by rw [unitNameReplaceInstance, found, last]⟩
  next => exact ⟨word, rfl⟩

theorem unitAddDependencyByName_run (allocates : Allocates h) (site : Site h u owner i part l)
    (d : UnitDependency) {word : CString} (names : resolved i part word = some n) :
    (Welcome l n ∧ ∃ l', unitAddDependencyByName h u d word none l = some (.ok (), l') ∧
        Site h u owner i part l' ∧ Adds d owner n l l') ∨
      ¬ Welcome l n ∧ ∃ e l', unitAddDependencyByName h u d word none l = some (.error e, l') ∧
        Unchanged l l' := by
  have resolves : resolveTemplate u word l = some (.ok n, l) := by
    unfold resolved at names
    unfold resolveTemplate
    split at names
    next template =>
      rw [if_pos template, read_bind, site.id]
      refine orAbort_bind.mpr ⟨i, rfl, ?_⟩
      exact orAbort_eq_some.mpr ⟨n, by rw [site.instancePart]; exact names, rfl, rfl⟩
    next template =>
      rw [if_neg template]
      obtain rfl := some.inj names
      rfl
  have later : ∀ {r l' y middle}, loadUnitLater h (some n) none l = some (.ok y, middle) ->
      unitAddDependency h u d y middle = some (r, l') ->
      unitAddDependencyByName h u d word none l = some (r, l') := fun loaded added =>
    bind_eq_some.mpr (.inr ⟨n, l, resolves, bind_eq_some.mpr (.inr ⟨_, _, loaded, added⟩)⟩)
  rcases managerLoadUnitPrepare_run allocates site.settled site.finite n with
    ⟨y, here, welcome, run⟩ | ⟨t, p, middle, free, welcome, loadable, fresh, run, registry⟩ |
      ⟨unwelcome, e, l', run, unchanged⟩
  · refine .inl ⟨welcome, ?_⟩
    have loaded : loadUnitLater h (some n) none l = some (.ok y, l) :=
      bind_eq_some.mpr (.inr ⟨_, l, run, rfl⟩)
    obtain ⟨l', added, site', units, links⟩ := unitAddDependency_run site d here
    refine ⟨l', later loaded added, site', ?_, ?_, ?_, ?_, ?_, ?_⟩
    · exact fun x z there => units ▸ there
    · exact fun x z there => .inl (units ▸ there)
    · rw [units, here]
      rfl
    · intro free
      rw [here] at free
      cases free
    · rw [units, here]
      rfl
    · intro z
      rw [links, units, here, some.injEq, eq_comm (a := y)]
  · refine .inl ⟨welcome, ?_⟩
    have site1 := site.withStub fresh free loadable registry
    have table : ∀ x, middle.registry.units.get x =
        (l.registry.units.get x).or (if x = n then some (h.address l) else none) := by
      intro x
      rw [registry, withStub, NameTable.get_append]
    have here : middle.registry.units.get n = some (h.address l) := by
      rw [table, free, none_or, if_pos rfl]
    have loaded : loadUnitLater h (some n) none l = some (.ok (h.address l), middle) :=
      bind_eq_some.mpr (.inr ⟨_, middle, run,
        unitFollowMerge_eq_some.mpr ⟨h.address l, site1.known here, rfl, rfl⟩⟩)
    obtain ⟨l', added, site', units, links⟩ := unitAddDependency_run site1 d here
    have owned : owner ≠ h.address l := by
      rintro rfl
      rw [site.ends.1] at fresh
      cases fresh
    have before : ∀ z, LinkedTo d owner middle z ↔ LinkedTo d owner l z := by
      intro z
      simp [LinkedTo, Links.Linked, registry, withStub, owned]
    refine ⟨l', later loaded added, site', ?_, ?_, ?_, ?_, ?_, ?_⟩
    · intro x z there
      rw [units, table, there, some_or]
    · intro x z there
      rw [units, table] at there
      cases old : l.registry.units.get x with
      | some w => exact .inl (by rw [old, some_or] at there; exact there)
      | none =>
        rw [old, none_or] at there
        split at there
        next same => exact .inr same
        next => cases there
    · rw [units, here]
      rfl
    · intro _ y there
      rw [units, here] at there
      obtain rfl := some.inj there
      refine ⟨owned.symm, fun x old => ?_⟩
      rw [site.settled.alive old] at fresh
      cases fresh
    · rw [units, registry, if_pos free]
      simp [withStub]
    · intro z
      rw [links, before, units, here, some.injEq, eq_comm (a := h.address l)]
  · refine .inr ⟨unwelcome, e, l', ?_, unchanged⟩
    refine bind_eq_some.mpr (.inr ⟨n, l, resolves, bind_eq_some.mpr (.inl ⟨e, ?_, rfl⟩)⟩)
    exact bind_eq_some.mpr (.inl ⟨e, run, rfl⟩)

end

end Systemd.Loading
