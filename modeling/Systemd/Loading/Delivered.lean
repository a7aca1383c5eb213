import Systemd.Loading.Switched
import Systemd.Shared.Reached

set_option autoImplicit false

namespace Systemd.Loading

open Program Option

variable {U : Type} [DecidableEq U]

/-- Every unit that is taken from the load queue is loaded in a manager that meets the condition. -/
def OrderlyQueue (h : Host U) : Nat -> Loader U -> Prop
  | 0, _ => True
  | fuel + 1, l =>
    match l.loadQueue with
    | [] => True
    | u :: _ => OrderlyLoad h u l ∧ ∀ r l', unitLoad h u l = some (r, l') -> OrderlyQueue h fuel l'

structure Request (U : Type) where
  host : Host U
  name : Option CString
  path : Option CString

def Request.call (request : Request U) : Load U U :=
  managerLoadUnit request.host request.name request.path

def Request.take (request : Request U) (l : Loader U) : Option (Loader U) :=
  (request.call l).map Prod.snd

def Request.Orderly (request : Request U) (l : Loader U) : Prop :=
  ∀ u l', managerLoadUnitPrepare request.host request.name request.path l = some (.ok (u, false), l') ->
    OrderlyQueue request.host request.host.fuel l'

def Request.DeliversOwner (request : Request U) (l : Loader U) : Prop :=
  ∀ u l' s, request.call l = some (.ok u, l') -> request.name.or (request.path.map fileName) = some s ->
    l'.registry.id u ≠ none ∧ l'.registry.loadState u ≠ .merged ∧ l'.registry.mergedInto u = none ∧
      l'.registry.units.get s = some u

section

variable {h : Host U} {l l' : Loader U} {claims : U -> CString -> Prop}

variable {r : Except LoadErrno Unit}

theorem HeldNow.unitLoad {u : U} (held : HeldNow claims l) (orderly : OrderlyLoad h u l)
    (run : unitLoad h u l = some (r, l')) : HeldNow claims l' := by
  rw [Loading.unitLoad, change_bind, read_bind] at run
  split_ifs at run with typeless waits
  · obtain ⟨rfl, rfl⟩ := fail_eq_some.mp run
    exact held
  · obtain ⟨rfl, rfl⟩ := pure_eq_some.mp run
    exact held
  · obtain ⟨outcome, middle, loaded, run⟩ := attempt_bind.mp run
    have begun : Begun claims { l with loadQueue := l.loadQueue.filter (· ≠ u) } u :=
      ⟨held, not_not.mp waits, typeless⟩
    have dropped : Dropped claims u outcome middle := loadOrFail_dropped begun orderly _ _ _ rfl loaded
    cases outcome with
    | ok _ =>
      simp only [read_bind] at run
      split_ifs at run
      · obtain ⟨rfl, rfl⟩ := pure_eq_some.mp run
        exact dropped.1
      · cases run
    | error e =>
      simp only [setLoadState, change_bind] at run
      obtain ⟨rfl, rfl⟩ := fail_eq_some.mp run
      exact dropped.1.setLoadState (dropped.2 e rfl) (by decide)

theorem HeldNow.dispatch {fuel : Nat} (held : HeldNow claims l) (orderly : OrderlyQueue h fuel l)
    (run : managerDispatchLoadQueue h fuel l = some (r, l')) : HeldNow claims l' := by
  induction fuel generalizing l with
  | zero => cases run
  | succ fuel ih =>
    rw [managerDispatchLoadQueue, read_bind] at run
    cases queue : l.loadQueue with
    | nil =>
      simp only [queue] at run
      obtain ⟨rfl, rfl⟩ := pure_eq_some.mp run
      exact held
    | cons u rest =>
      simp only [queue] at run
      obtain ⟨outcome, middle, loaded, later⟩ := attempt_bind.mp run
      simp only [OrderlyQueue, queue] at orderly
      exact ih (held.unitLoad orderly.1 loaded) (orderly.2 outcome middle loaded) later

omit [DecidableEq U] in
theorem Settled.owner {m : Registry U} (settled : Settled m) {s : CString} {u : U}
    (entry : m.units.get s = some u) :
    m.id u ≠ none ∧ m.loadState u ≠ .merged ∧ m.mergedInto u = none := by
  have alive := settled.alive entry
  have unmerged := settled.unmerged entry
  obtain ⟨t, typed, -⟩ := settled.indexed.kind u s ((settled.indexed.table s u).mp entry)
  obtain ⟨x, chosen, -⟩ := settled.indexed.chosen u alive (by simp [typed]) unmerged
  refine ⟨by simp [chosen], unmerged, ?_⟩
  simpa using mt (settled.mergedInto u alive).mp unmerged

theorem Request.outcome {request : Request U} {r : Except LoadErrno U} (settled : Settled l.registry)
    (orderly : request.Orderly l) (run : request.call l = some (r, l')) :
    Settled l'.registry ∧ ∀ u s, r = .ok u ->
      request.name.or (request.path.map fileName) = some s -> l'.registry.units.get s = some u := by
  have nothing : Held (fun _ _ => False) l.registry := ⟨settled, fun _ _ => False.elim⟩
  rcases bind_eq_some.mp run with ⟨e, stops, rfl⟩ | ⟨⟨u, known⟩, middle, first, later⟩
  · refine ⟨?_, fun _ _ wrong => by cases wrong⟩
    cases managerLoadUnitPrepare_prepares stops with
    | refused _ same => exact same ▸ settled
    | dropped _ v elsewhere _ _ => exact (nothing.elsewhere elsewhere).1
  · cases managerLoadUnitPrepare_prepares first with
    | known s _ given same entry =>
      obtain ⟨rfl, rfl⟩ := pure_eq_some.mp later
      rw [same]
      refine ⟨settled, fun v x returned asked => ?_⟩
      cases returned
      rw [given] at asked
      cases asked
      exact entry
    | stub s _ t part given fresh free loadable registry _ _ =>
      have stubs := nothing.withStub fresh free loadable
      rw [← registry] at stubs
      have orderly := orderly u middle first
      rcases bind_eq_some.mp later with ⟨e, stops, rfl⟩ | ⟨_, last, dispatched, ended⟩
      · exact ⟨(HeldNow.dispatch stubs orderly stops).1, fun _ _ wrong => by cases wrong⟩
      · have held := HeldNow.dispatch stubs orderly dispatched
        obtain ⟨v, follow, rfl, rfl⟩ := unitFollowMerge_eq_some.mp ended
        refine ⟨held.1, fun w x returned asked => ?_⟩
        cases returned
        rw [given] at asked
        cases asked
        obtain ⟨t, leads, owned⟩ := held.2 u s (.inr ⟨rfl, rfl⟩)
        rwa [leads.unique (.of_follow follow)] at owned

end

/-- Every call returns the owner of the name, as long as nothing behind a name at which merge_by_names turns
to another unit is refused, and no drop-in directory of that unit either. -/
theorem calls_deliver_owners (requests : List (Request U))
    (orderly : Steps.EachStep Request.take Request.Orderly requests .empty) :
    Steps.EachStep Request.take Request.DeliversOwner requests .empty := by
  have kept : ∀ (request : Request U) (l l' : Loader U), Settled l.registry -> request.Orderly l ->
      request.take l = some l' -> Settled l'.registry := by
    intro request l l' settled clean taken
    obtain ⟨⟨r, last⟩, run, rfl⟩ := map_eq_some_iff.mp taken
    exact (Request.outcome settled clean run).1
  refine Steps.EachStep.strengthen kept ?_ Settled.empty orderly
  intro request l settled clean u l' s run asked
  obtain ⟨settled', owned⟩ := Request.outcome settled clean run
  have entry := owned u s rfl asked
  obtain ⟨chosen, unmerged, into⟩ := settled'.owner entry
  exact ⟨chosen, unmerged, into, entry⟩

-- The chain leads to another unit at its end only.
def switchesLate (h : Host U) (u : U) (l : Loader U) : Bool :=
  match l.registry.id u with
  | none => true
  | some id =>
    match firstFound h (fragmentPaths l u id) with
    | none => true
    | some found => found.names.members.dropLast.all fun k => (l.registry.units.get k).all (· = u)

def lateQueue (h : Host U) : Nat -> Loader U -> Bool
  | 0, _ => true
  | fuel + 1, l =>
    match l.loadQueue with
    | [] => true
    | u :: _ => switchesLate h u l && (unitLoad h u l).all fun ended => lateQueue h fuel ended.2

def Request.late (request : Request U) (l : Loader U) : Bool :=
  match managerLoadUnitPrepare request.host request.name request.path l with
  | some (.ok (_, false), l') => lateQueue request.host request.host.fuel l'
  | _ => true

theorem orderlyQueue_of_late {h : Host U} (missing : ∀ path, h.openDirectory path = .error enoent) {fuel : Nat}
    {l : Loader U} (late : lateQueue h fuel l = true) : OrderlyQueue h fuel l := by
  induction fuel generalizing l with
  | zero => trivial
  | succ fuel ih =>
    unfold OrderlyQueue
    unfold lateQueue at late
    split
    · trivial
    · rename_i u _ queue
      simp only [queue, Bool.and_eq_true] at late
      refine ⟨fun id found _ _ chosen first front k rest w split switches => ⟨?_, ?_⟩, fun r l' run => ?_⟩
      · cases rest with
        | nil => simp
        | cons k' rest =>
          have before : k ∈ found.names.members.dropLast := by simp [split]
          simp only [switchesLate, chosen, first] at late
          have own := List.all_eq_true.mp late.1 k before
          rw [switches.owner] at own
          exact absurd (of_decide_eq_true own) switches.other
      · have opens (path : CString) : Opens h path := by
          intro _ e failed
          rw [missing] at failed
          exact (Except.error.inj failed).symm
        exact fun t _ p _ suffix _ => ⟨opens _, fun _ _ => opens _⟩
      · have later := late.2
        rw [run] at later
        exact ih later

theorem Request.orderly_of_late {request : Request U} {l : Loader U}
    (missing : ∀ path, request.host.openDirectory path = .error enoent) (late : request.late l = true) :
    request.Orderly l := by
  intro u l' prepared
  rw [Request.late, prepared] at late
  exact orderlyQueue_of_late missing late

local instance (priority := 1200) fourLoaded : @NeZero Nat Zero.ofOfNat0 4 := ⟨by decide⟩

def treeHost (entries : List (CString × Entry)) : Host (Fin 4) where
  unitPath := [.ofString "/etc"]
  sysvinitPath := []
  unitPathCache := none
  openNoFollow := fun path =>
    match entries.find? fun entry => entry.1 = path with
    | some entry => entry.2
    | none => .fails enoent
  openDirectory := fun _ => .error enoent
  openScript := fun _ => .error enoent
  extras := fun _ _ => ([], .ok ())
  reloading := false
  address := fun l => ((List.finRange 4).find? fun u => l.registry.alive u = false).getD 0
  fuel := 10

def plainFile : Entry := .file ⟨false, fun _ => [], .ok ()⟩

def linkTo (target : String) : Entry := .link (.ofString target)

def named (h : Host (Fin 4)) (name : String) : Request (Fin 4) :=
  ⟨h, some (.ofString name), none⟩

def aliased : Host (Fin 4) :=
  treeHost [(.ofString "/etc/a.service", plainFile), (.ofString "/etc/x.service", linkTo "a.service")]

theorem calls_deliver_owners_aliased :
    Steps.EachStep Request.take Request.DeliversOwner [named aliased "a.service", named aliased "x.service"]
      .empty := by
  refine calls_deliver_owners _ fun l taken => ⟨?_, fun l' _ => ⟨?_, trivial⟩⟩
  · exact Request.orderly_of_late (fun _ => rfl) (by decide +kernel)
  · have second : (Request.take (named aliased "a.service") .empty).all (named aliased "x.service").late = true := by
      decide +kernel
    rw [taken] at second
    exact Request.orderly_of_late (fun _ => rfl) second

-- The target is no name for a service, but the link in front of it has been followed by then.
def overridden : Host (Fin 4) :=
  treeHost [(.ofString "/etc/a.service", plainFile), (.ofString "/etc/x.service", linkTo "/lib/a.service"),
    (.ofString "/lib/a.service", linkTo "t.target"), (.ofString "/lib/t.target", plainFile)]

def returnsMerged (l : Loader (Fin 4)) : Bool :=
  match (named overridden "x.service").call l with
  | some (.ok u, l') => decide (l'.registry.id u = none)
  | _ => false

theorem merged_unit_returned :
    ¬Steps.EachStep Request.take Request.DeliversOwner
      [named overridden "a.service", named overridden "x.service"] .empty := by
  have wrong : (Request.take (named overridden "a.service") .empty).any returnsMerged = true := by
    decide +kernel
  obtain ⟨l, first, wrong⟩ := (any_eq_true _ _).mp wrong
  unfold returnsMerged at wrong
  split at wrong
  · rename_i u l' second
    intro each
    obtain ⟨-, later⟩ := each l first
    have taken : (named overridden "x.service").take l = some l' := by
      rw [Request.take, second, map_some]
    exact ((later l' taken).1 u l' _ second rfl).1 (of_decide_eq_true wrong)
  · cases wrong

end Systemd.Loading
