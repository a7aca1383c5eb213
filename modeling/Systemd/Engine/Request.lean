import Mathlib.Data.Fintype.Prod
import Systemd.Engine.Manager
import Systemd.Shared.Loop

set_option autoImplicit false

namespace Systemd

open Loop

def unitCanStart {U : Type} (E : Units U) (u : U) : Bool := E.canStart u

def unitJobIsApplicable {U : Type} (E : Units U) (u : U) : JobType -> Bool
  | .verifyActive | .start | .stop => true
  | .restart | .tryRestart => unitCanStart E u
  | .reload => E.canReload u
  | .reloadOrStart => E.canReload u && unitCanStart E u

inductive PullSet where
  | following
  | dependency (kind : UnitDependency)
  deriving DecidableEq

/-- One of the loops of transaction_add_job_and_dependencies: the set it walks, the arguments of the
recursive call, and whether a failure of that call is only logged. -/
structure Pull where
  set : PullSet
  type : JobType
  matters : Bool
  override : Bool
  conflicts : Bool
  ignored : Bool

def pulls (type : JobType) (override : Bool) : List Pull :=
  ⟨.following, type, false, override, false, true⟩ ::
    match type with
    | .start | .reloadOrStart =>
      [⟨.dependency .requires, .start, true, override, false, false⟩,
        ⟨.dependency .bindTo, .start, true, override, false, false⟩,
        ⟨.dependency .requiresOverridable, .start, !override, override, false, true⟩,
        ⟨.dependency .wants, .start, false, false, false, true⟩,
        ⟨.dependency .requisite, .verifyActive, true, override, false, false⟩,
        ⟨.dependency .requisiteOverridable, .verifyActive, !override, override, false, true⟩,
        ⟨.dependency .conflicts, .stop, true, override, true, false⟩,
        ⟨.dependency .conflictedBy, .stop, false, override, false, true⟩]
    | .stop | .restart | .tryRestart =>
      [⟨.dependency .requiredBy, type, true, override, false, false⟩,
        ⟨.dependency .boundBy, type, true, override, false, false⟩]
    | .verifyActive | .reload => []

structure AddCall (U : Type) where
  type : JobType
  unit : U
  requester : Option JobId
  matters : Bool
  override : Bool
  conflicts : Bool
  ignoreRequirements : Bool
  ignoreOrder : Bool

variable {U : Type} [DecidableEq U]

def pullUnits (E : Units U) (u : U) : PullSet -> List U
  | .following => E.followingSet u
  | .dependency kind => E.dependencies kind u

def pullCalls (E : Units U) (call : AddCall U) (ret : JobId) : List (Pull × AddCall U) :=
  (pulls call.type call.override).flatMap fun pull =>
    (pullUnits E call.unit pull.set).map fun dep =>
      (pull, { type := pull.type, unit := dep, requester := some ret, matters := pull.matters,
               override := pull.override, conflicts := pull.conflicts,
               ignoreRequirements := false, ignoreOrder := call.ignoreOrder })

def refusal (E : Units U) (type : JobType) (u : U) : Option (RequestError U) :=
  if E.loadState u ≠ .loaded ∧ E.loadState u ≠ .error ∧ E.loadState u ≠ .masked then
    some (.notLoaded u)
  else if type ≠ .stop ∧ E.loadState u = .error then some (.loadFailed u)
  else if type ≠ .stop ∧ E.loadState u = .masked then some (.masked u)
  else if !unitJobIsApplicable E u type then some (.notApplicable type u)
  else none

def transactionPrepend (m : Manager U) (u : U) (j : JobId) : Manager U :=
  { m with
    transactionUnits :=
      if m.chain u = [] then m.transactionUnits ++ [u] else m.transactionUnits
    chain := Function.update m.chain u (j :: m.chain u) }

def transactionAddOneJob (m : Manager U) (type : JobType) (u : U) (override : Bool) :
    Manager U × JobId × Bool :=
  match (m.chain u).find? fun j => (m.job j).type = type with
  | some j => (m, j, false)
  | none =>
    let (m, j) := match m.metaJob u with
      | some j => if (m.job j).type = type then (m, j) else jobNew m type u
      | none => jobNew m type u
    let m := m.setJob j fun job =>
      { job with generation := 0, marker := none, mattersToAnchor := false, override := override }
    (transactionPrepend m u j, j, true)

abbrev AddFunction (U : Type) :=
  Manager U -> AddCall U -> Manager U × Except (RequestError U) JobId

def pullIn (add : AddFunction U) (m : Manager U) (pull : Pull × AddCall U) : Manager U × Status U :=
  match add m pull.2 with
  | (m, .ok _) => (m, .ok ())
  | (m, .error e) => if pull.1.ignored ∨ e.errno = .ebadr then (m, .ok ()) else (m, .error e)

def addJobAndDependencies (E : Units U) (add : AddFunction U) : AddFunction U := fun m call =>
  match refusal E call.type call.unit with
  | some e => (m, .error e)
  | none =>
    let (m, ret, isNew) := transactionAddOneJob m call.type call.unit call.override
    let m := m.setJob ret fun job =>
      { job with ignoreOrder := job.ignoreOrder || call.ignoreOrder }
    let m := jobDependencyNew m call.requester ret call.matters call.conflicts
    if isNew && !call.ignoreRequirements then
      match forEach (pullIn add) m (pullCalls E call ret) with
      | (m, .ok ()) => (m, .ok ret)
      | (m, .error e) => (m, .error e)
    else (m, .ok ret)

def addWithDepth (E : Units U) : Nat -> AddFunction U
  | 0 => addJobAndDependencies E fun m _ => (m, .error .noMemory)
  | depth + 1 => addJobAndDependencies E (addWithDepth E depth)

-- Every nested call that goes on to recurse has put a new pair of unit and type into the
-- transaction.
def transactionAddJobAndDependencies [Fintype U] (E : Units U) : AddFunction U :=
  addWithDepth E (Fintype.card (U × JobType))

def isolateStops (m : Manager U) (E : Units U) (u : U) : Bool :=
  !E.ignoreOnIsolate u &&
    !((m.activeState u).isInactiveOrFailed && m.metaJob u = none) &&
    m.transactionGet u = none

def transactionAddIsolateJobs [Fintype U] (E : Units U) (m : Manager U) : Manager U :=
  E.units.foldl (fun m u =>
    if isolateStops m E u then
      (transactionAddJobAndDependencies E m
        { type := .stop, unit := u, requester := none, matters := true, override := false,
          conflicts := false, ignoreRequirements := false, ignoreOrder := false }).1
    else m) m

end Systemd
