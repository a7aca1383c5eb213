import Systemd.Engine.Merge
import Systemd.Engine.Request
import Systemd.Engine.VerifyOrder

set_option autoImplicit false

namespace Systemd

variable {U : Type} [DecidableEq U]

def collectUnlessIsolating (mode : JobMode) (m : Manager U) : Manager U :=
  if mode = .isolate then m else transactionCollectGarbage m

def orderRounds (E : Units U) (mode : JobMode) : Nat -> Manager U -> Nat -> Manager U × Status U
  | 0, m, _ => (m, .error .again)
  | rounds + 1, m, generation =>
    match transactionVerifyOrder E (collectUnlessIsolating mode m) generation with
    | (m, .ok ()) => (m, .ok ())
    | (m, .error .again) => orderRounds E mode rounds m (generation + 1)
    | (m, .error e) => (m, .error e)

def mergeRounds (mode : JobMode) : Nat -> Manager U -> Manager U × Status U
  | 0, m => (m, .error .again)
  | rounds + 1, m =>
    match transactionMergeJobs m with
    | (m, .ok ()) => (m, .ok ())
    | (m, .error .again) => mergeRounds mode rounds (collectUnlessIsolating mode m)
    | (m, .error e) => (m, .error e)

-- The steps of transaction_activate before the transaction is applied. A round that asks to be
-- repeated has deleted a job.
def transactionCheck (E : Units U) (mode : JobMode) (m : Manager U) : Manager U × Status U :=
  let m := transactionFindJobsThatMatterToAnchor m 1
  let m := if mode = .fail then transactionMinimizeImpact m else m
  let m := transactionDropRedundant m
  match orderRounds E mode (m.transactionList.length + 1) m 2 with
  | (m, .error e) => (m, .error e)
  | (m, .ok ()) =>
    match mergeRounds mode (m.transactionList.length + 1) m with
    | (m, .error e) => (m, .error e)
    | (m, .ok ()) =>
      let m := transactionDropRedundant m
      if mode = .fail ∧ transactionIsDestructive m then (m, .error .isDestructive) else (m, .ok ())

structure JobRequest (U : Type) where
  type : JobType
  unit : U
  mode : JobMode
  override : Bool

structure Entry (U : Type) where
  manager : Manager U
  request : JobRequest U

/-- `entered` is a history variable: the state each call of manager_add_job was entered in. Nothing
reads it. -/
structure World (U : Type) where
  manager : Manager U
  entered : List (Entry U)

inductive Fault where
  | fuel
  | danglingIterator
  | assertion
  deriving DecidableEq

abbrev FinishFunction (U : Type) := World U -> JobId -> JobResult -> Except Fault (World U)

abbrev AddJobFunction (U : Type) :=
  World U -> JobRequest U -> Except Fault (World U × Except (RequestError U) JobId)

def World.set (w : World U) (m : Manager U) : World U := { w with manager := m }

def nextJob (jobs : List JobId) (j : JobId) : Option JobId :=
  (jobs.dropWhile (· ≠ j)).tail.head?

-- HASHMAP_FOREACH over m->jobs holds on to the entry after the current one. When the body frees
-- that entry, the next turn reads freed memory.
def cancelOthers (finish : FinishFunction U) : Nat -> World U -> Option JobId -> Except Fault (World U)
  | _, w, none => .ok w
  | 0, _, some _ => .error .fuel
  | fuel + 1, w, some j =>
    if j ∈ w.manager.jobs then
      let next := nextJob w.manager.jobs j
      if w.manager.transactionGet (w.manager.job j).unit = none then do
        let w ← finish w j .canceled
        cancelOthers finish fuel w next
      else cancelOthers finish fuel w next
    else .error .danglingIterator

-- Ids are never reused here, so hashmap_put on m->jobs finds no other job under the key.
def putNewJobs (m : Manager U) : Manager U :=
  { m with jobs := m.jobs ++ m.transactionHeads.filter fun j => !(m.job j).installed }

def installJob (m : Manager U) (u : U) : Manager U :=
  match m.transactionGet u with
  | none => m
  | some j =>
    let m := { m with
      transactionUnits := m.transactionUnits.filter (· ≠ u)
      chain := Function.update m.chain u [] }
    if (m.job j).installed then m
    else
      let m := match m.metaJob u with
        | some other => jobFree m other
        | none => m
      let m := m.setJob j fun job => { job with installed := true }
      jobAddToRunQueue { m with metaJob := Function.update m.metaJob u (some j) } j

def installTransaction (m : Manager U) : Manager U :=
  let m := putNewJobs m
  transactionCleanDependencies (m.transactionUnits.foldl installJob m)

def transactionApply (finish : FinishFunction U) (fuel : Nat) (w : World U) (mode : JobMode) :
    Except Fault (World U) := do
  let w ← if mode = .isolate then cancelOthers finish fuel w w.manager.jobs.head? else .ok w
  .ok (w.set (installTransaction w.manager))

def transactionActivate (E : Units U) (finish : FinishFunction U) (fuel : Nat) (w : World U)
    (mode : JobMode) : Except Fault (World U × Status U) :=
  match transactionCheck E mode w.manager with
  | (m, .error e) => .ok (w.set (transactionAbort m), .error e)
  | (m, .ok ()) => do
    let w ← transactionApply finish fuel (w.set m) mode
    .ok (w, .ok ())

def JobRequest.call (request : JobRequest U) : AddCall U where
  type := request.type
  unit := request.unit
  requester := none
  matters := true
  override := request.override
  conflicts := false
  ignoreRequirements := request.mode = .ignoreDependencies ∨ request.mode = .ignoreRequirements
  ignoreOrder := request.mode = .ignoreDependencies

def requestRefusal (E : Units U) (request : JobRequest U) : Option (RequestError U) :=
  if request.mode = .isolate ∧ request.type ≠ .start then some .invalidJobMode
  else if request.mode = .isolate ∧ !E.allowIsolate request.unit then some .noIsolation
  else none

def buildTransaction [Fintype U] (E : Units U) (m : Manager U) (request : JobRequest U) :
    Manager U × Except (RequestError U) JobId :=
  match transactionAddJobAndDependencies E m request.call with
  | (m, .error e) => (m, .error e)
  | (m, .ok ret) =>
    (if request.mode = .isolate then transactionAddIsolateJobs E m else m, .ok ret)

def addJobBody [Fintype U] (E : Units U) (finish : FinishFunction U) (fuel : Nat) :
    AddJobFunction U := fun w request =>
  let w := { w with entered := w.entered ++ [⟨w.manager, request⟩] }
  match requestRefusal E request with
  | some e => .ok (w, .error e)
  | none =>
    match buildTransaction E w.manager request with
    | (m, .error e) => .ok (w.set (transactionAbort m), .error e)
    | (m, .ok ret) => do
      match ← transactionActivate E finish fuel (w.set m) request.mode with
      | (w, .error e) => .ok (w, .error e)
      | (w, .ok ()) => .ok (w, .ok ret)

end Systemd
