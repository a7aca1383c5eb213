import Mathlib.Data.List.Basic
import Mathlib.Logic.Function.Basic
import Systemd.Engine.JobType

set_option autoImplicit false

namespace Systemd

-- A few units are numbered.
instance (priority := 1100) twoUnits : @NeZero Nat Zero.ofOfNat0 2 := ⟨by decide⟩

instance (priority := 1100) threeUnits : @NeZero Nat Zero.ofOfNat0 3 := ⟨by decide⟩

instance (priority := 1100) fourUnits : @NeZero Nat Zero.ofOfNat0 4 := ⟨by decide⟩

inductive UnitDependency where
  | requires
  | requiresOverridable
  | requisite
  | requisiteOverridable
  | wants
  | bindTo
  | requiredBy
  | requiredByOverridable
  | wantedBy
  | boundBy
  | conflicts
  | conflictedBy
  | before
  | after
  | onFailure
  | references
  | referencedBy
  deriving DecidableEq

inductive UnitLoadState where
  | stub
  | loaded
  | error
  | merged
  | masked
  deriving DecidableEq

/-- What the job engine reads of the loaded units and never writes. A dependency set is listed in
its iteration order, and `units` is the unit table without its alias entries. -/
structure Units (U : Type) where
  id : U -> String
  dependencies : UnitDependency -> U -> List U
  followingSet : U -> List U
  loadState : U -> UnitLoadState
  loadError : U -> String
  canStart : U -> Bool
  canReload : U -> Bool
  ignoreOnIsolate : U -> Bool
  allowIsolate : U -> Bool
  onFailureIsolate : U -> Bool
  stopWhenUnneeded : U -> Bool
  units : List U

abbrev JobId := Nat

structure Job (U : Type) where
  unit : U
  type : JobType
  state : JobState := .waiting
  generation : Nat := 0
  marker : Option JobId := none
  installed : Bool := false
  mattersToAnchor : Bool := false
  override : Bool := false
  ignoreOrder : Bool := false

structure JobDependency where
  subject : Option JobId
  object : JobId
  matters : Bool
  conflicts : Bool
  deriving DecidableEq

/-- A job is its id: `job` is the memory behind the pointers, `jobs` the installed-job table in
insertion order. `transaction_jobs` is split into its keys in insertion order and the chain of
jobs behind each key, head first. Every `JobDependency` stands once in `links`, newest first. -/
structure Manager (U : Type) where
  job : JobId -> Job U
  jobs : List JobId
  metaJob : U -> Option JobId
  activeState : U -> UnitActiveState
  transactionUnits : List U
  chain : U -> List JobId
  links : List JobDependency
  runQueue : List JobId
  currentJobId : JobId
  nReloading : Nat := 0

namespace Manager

variable {U : Type}

def setJob (m : Manager U) (j : JobId) (change : Job U -> Job U) : Manager U :=
  { m with job := Function.update m.job j (change (m.job j)) }

def subjectList (m : Manager U) (j : JobId) : List JobDependency :=
  m.links.filter fun link => link.subject = some j

def objectList (m : Manager U) (j : JobId) : List JobDependency :=
  m.links.filter fun link => link.object = j

def transactionAnchor (m : Manager U) : List JobDependency :=
  m.links.filter fun link => link.subject = none

def transactionGet (m : Manager U) (u : U) : Option JobId :=
  (m.chain u).head?

-- The values HASHMAP_FOREACH meets on transaction_jobs.
def transactionHeads (m : Manager U) : List JobId :=
  m.transactionUnits.filterMap m.transactionGet

def transactionList (m : Manager U) : List JobId :=
  m.transactionUnits.flatMap m.chain

def InTransaction (m : Manager U) (j : JobId) : Prop :=
  ∃ u, j ∈ m.chain u

end Manager

section

variable {U : Type}

def jobIsAnchor (m : Manager U) (j : JobId) : Bool :=
  (m.objectList j).any fun link => link.subject = none

def jobDependencyNew (m : Manager U) (subject : Option JobId) (object : JobId)
    (matters conflicts : Bool) : Manager U :=
  { m with links := ⟨subject, object, matters, conflicts⟩ :: m.links }

def jobDependencyFree (m : Manager U) (link : JobDependency) : Manager U :=
  { m with links := m.links.erase link }

def jobNew (m : Manager U) (type : JobType) (u : U) : Manager U × JobId :=
  ({ m with
      job := Function.update m.job m.currentJobId { unit := u, type := type }
      currentJobId := m.currentJobId + 1 }, m.currentJobId)

def jobAddToRunQueue (m : Manager U) (j : JobId) : Manager U :=
  if j ∈ m.runQueue then m else { m with runQueue := j :: m.runQueue }

end

end Systemd

namespace Systemd

inductive Errno where
  | einval
  | ebadr
  | enomem
  | enoexec
  | eagain
  | eexist
  | eperm
  | ealready
  | ecanceled
  deriving DecidableEq

inductive RequestError (U : Type) where
  | notLoaded (u : U)
  | loadFailed (u : U)
  | masked (u : U)
  | notApplicable (type : JobType) (u : U)
  | noMemory
  | again
  | orderIsCyclic
  | jobsConflicting (merged type : JobType) (u : U) (errno : Errno)
  | isDestructive
  | invalidJobMode
  | noIsolation
  deriving DecidableEq

namespace RequestError

variable {U : Type}

def errno : RequestError U -> Errno
  | notLoaded _ | loadFailed _ | masked _ | invalidJobMode => .einval
  | notApplicable _ _ => .ebadr
  | noMemory => .enomem
  | again => .eagain
  | orderIsCyclic => .enoexec
  | jobsConflicting _ _ _ errno => errno
  | isDestructive => .eexist
  | noIsolation => .eperm

end RequestError

abbrev Status (U : Type) := Except (RequestError U) Unit

end Systemd
