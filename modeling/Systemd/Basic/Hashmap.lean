import Mathlib.Logic.Function.Basic
import Systemd.Basic.OrderedSet
import Systemd.Shared.Chain

set_option autoImplicit false

namespace Systemd.Maps

open Function

abbrev Ptr := Nat

def nBuckets : Nat := 127

structure Hashmap (K : Type) where
  hashFunc : K -> UInt32
  compareFunc : K -> K -> Int
  byHash : Nat -> Option Ptr
  iterateListHead : Option Ptr
  iterateListTail : Option Ptr
  nEntries : UInt32

/-- The memory that the maps share, one function for each field of an entry. An address without a
cell is not allocated. -/
structure Store (M K V : Type) where
  cell : Ptr -> Option (K × V)
  bucketNext : Ptr -> Option Ptr
  bucketPrevious : Ptr -> Option Ptr
  iterateNext : Ptr -> Option Ptr
  iteratePrevious : Ptr -> Option Ptr
  nextEntry : Ptr
  maps : M -> Hashmap K

section

variable {M K V : Type}

def Store.allocated (s : Store M K V) (p : Ptr) : Bool :=
  (s.cell p).isSome

-- if (p) p->field = value
def assignAt (field : Ptr -> Option Ptr) (pointer value : Option Ptr) : Ptr -> Option Ptr :=
  match pointer with
  | some p => update field p value
  | none => field

def bucketOf (map : Hashmap K) (key : K) : Nat :=
  (map.hashFunc key).toNat % nBuckets

variable [DecidableEq M]

-- none stands for a failing assertion or the use of an address that is not allocated.
def linkBucket (s : Store M K V) (h : M) (e : Ptr) (hash : Nat) : Option (Store M K V) :=
  let map := s.maps h
  let first := map.byHash hash
  if s.allocated e && first.all s.allocated then
    some
      { s with
        bucketNext := update s.bucketNext e first
        bucketPrevious := assignAt (update s.bucketPrevious e none) first (some e)
        maps := update s.maps h
          { map with byHash := update map.byHash hash (some e) } }
  else
    none

def linkIterate (s : Store M K V) (h : M) (e : Ptr) : Option (Store M K V) :=
  let map := s.maps h
  let tail := map.iterateListTail
  if s.allocated e && tail.all s.allocated && tail.isSome == map.iterateListHead.isSome &&
      map.nEntries + 1 ≥ 1 then
    some
      { s with
        iteratePrevious := update s.iteratePrevious e tail
        iterateNext := assignAt (update s.iterateNext e none) tail (some e)
        maps := update s.maps h
          { map with
            iterateListHead := if tail.isSome then map.iterateListHead else some e
            iterateListTail := some e
            nEntries := map.nEntries + 1 } }
  else
    none

def linkEntry (s : Store M K V) (h : M) (e : Ptr) (hash : Nat) : Option (Store M K V) := do
  let s ← linkBucket s h e hash
  linkIterate s h e

def unlinkIterate (s : Store M K V) (h : M) (e : Ptr) : Option (Store M K V) :=
  let map := s.maps h
  let next := s.iterateNext e
  let previous := s.iteratePrevious e
  if s.allocated e && next.all s.allocated && previous.all s.allocated then
    some
      { s with
        iteratePrevious := assignAt s.iteratePrevious next previous
        iterateNext := assignAt s.iterateNext previous next
        maps := update s.maps h
          { map with
            iterateListHead := if previous.isSome then map.iterateListHead else next
            iterateListTail := if next.isSome then map.iterateListTail else previous } }
  else
    none

def unlinkBucket (s : Store M K V) (h : M) (e : Ptr) (hash : Nat) : Option (Store M K V) :=
  let map := s.maps h
  let next := s.bucketNext e
  let previous := s.bucketPrevious e
  if s.allocated e && next.all s.allocated && previous.all s.allocated && map.nEntries ≥ 1 then
    some
      { s with
        bucketPrevious := assignAt s.bucketPrevious next previous
        bucketNext := assignAt s.bucketNext previous next
        maps := update s.maps h
          { map with
            byHash := if previous.isSome then map.byHash else update map.byHash hash next
            nEntries := map.nEntries - 1 } }
  else
    none

def unlinkEntry (s : Store M K V) (h : M) (e : Ptr) (hash : Nat) : Option (Store M K V) := do
  let s ← unlinkIterate s h e
  unlinkBucket s h e hash

def freeEntry (s : Store M K V) (e : Ptr) : Store M K V :=
  { s with cell := update s.cell e none }

def removeEntry (s : Store M K V) (h : M) (e : Ptr) : Option (Store M K V) := do
  let (key, _) ← s.cell e
  let s ← unlinkEntry s h e (bucketOf (s.maps h) key)
  some (freeEntry s e)

-- A new entry never has the address of one that is still in use.
def newEntry (s : Store M K V) (key : K) (value : V) : Store M K V × Ptr :=
  ({ s with
      cell := update s.cell s.nextEntry (some (key, value))
      nextEntry := s.nextEntry + 1 }, s.nextEntry)

def setEntry (s : Store M K V) (e : Ptr) (key : K) (value : V) : Option (Store M K V) :=
  if s.allocated e then some { s with cell := update s.cell e (some (key, value)) } else none

def scanChain (s : Store M K V) (h : M) (key : K) : Nat -> Option Ptr -> Option (Option Ptr)
  | _, none => some none
  | 0, some _ => none
  | fuel + 1, some e =>
    match s.cell e with
    | none => none
    | some (other, _) =>
      if (s.maps h).compareFunc other key = 0 then some (some e)
      else scanChain s h key fuel (s.bucketNext e)

-- A chain is not longer than the number of entries.
def hashScan (s : Store M K V) (h : M) (hash : Nat) (key : K) : Option (Option Ptr) :=
  scanChain s h key ((s.maps h).nEntries.toNat) ((s.maps h).byHash hash)

def scan (s : Store M K V) (h : M) (key : K) : Option (Option Ptr) :=
  hashScan s h (bucketOf (s.maps h) key) key

inductive Answer (V : Type) where
  | code (result : Except SetErrno Nat)
  | value (result : V)
  | nothing

variable [DecidableEq V]

-- hash and key of the new entry are known from the scan.
def putNew (s : Store M K V) (h : M) (key : K) (value : V) : Option (Store M K V) :=
  let (s, e) := newEntry s key value
  linkEntry s h e (bucketOf (s.maps h) key)

def hashmapPut (s : Store M K V) (h : M) (key : K) (value : V) :
    Option (Store M K V × Except SetErrno Nat) := do
  match ← scan s h key with
  | some e =>
    let (_, old) ← s.cell e
    if old = value then some (s, .ok 0) else some (s, .error .eexist)
  | none =>
    let s ← putNew s h key value
    some (s, .ok 1)

def hashmapReplace (s : Store M K V) (h : M) (key : K) (value : V) :
    Option (Store M K V × Except SetErrno Nat) := do
  match ← scan s h key with
  | some e =>
    let s ← setEntry s e key value
    some (s, .ok 0)
  | none => hashmapPut s h key value

def hashmapGet (null : V) (s : Store M K V) (h : M) (key : K) : Option V := do
  match ← scan s h key with
  | none => some null
  | some e => (s.cell e).map Prod.snd

def hashmapRemove (null : V) (s : Store M K V) (h : M) (key : K) : Option (Store M K V × V) := do
  match ← scan s h key with
  | none => some (s, null)
  | some e =>
    let (_, data) ← s.cell e
    let s ← removeEntry s h e
    some (s, data)

-- The entry is taken out, gets its new key and value, and is linked in again.
def rekey (s : Store M K V) (h : M) (e : Ptr) (oldKey newKey : K) (value : V) :
    Option (Store M K V) := do
  let s ← unlinkEntry s h e (bucketOf (s.maps h) oldKey)
  let s ← setEntry s e newKey value
  linkEntry s h e (bucketOf (s.maps h) newKey)

def hashmapRemoveAndPut (s : Store M K V) (h : M) (oldKey newKey : K) (value : V) :
    Option (Store M K V × Except SetErrno Nat) := do
  match ← scan s h oldKey with
  | none => some (s, .error .enoent)
  | some e =>
    match ← scan s h newKey with
    | some _ => some (s, .error .eexist)
    | none =>
      let s ← rekey s h e oldKey newKey value
      some (s, .ok 0)

def hashmapRemoveAndReplace (s : Store M K V) (h : M) (oldKey newKey : K) (value : V) :
    Option (Store M K V × Except SetErrno Nat) := do
  match ← scan s h oldKey with
  | none => some (s, .error .enoent)
  | some e =>
    let found ← scan s h newKey
    let s ←
      match found with
      | some k => if e ≠ k then removeEntry s h k else some s
      | none => some s
    let s ← rekey s h e oldKey newKey value
    some (s, .ok 0)

def hashmapRemoveValue (null : V) (s : Store M K V) (h : M) (key : K) (value : V) :
    Option (Store M K V × V) := do
  match ← scan s h key with
  | none => some (s, null)
  | some e =>
    let (_, data) ← s.cell e
    if data ≠ value then
      some (s, null)
    else
      let s ← removeEntry s h e
      some (s, value)

def hashmapStealFirst (null : V) (s : Store M K V) (h : M) : Option (Store M K V × V) :=
  match (s.maps h).iterateListHead with
  | none => some (s, null)
  | some e => do
    let (_, data) ← s.cell e
    let s ← removeEntry s h e
    some (s, data)

def clearLoop (h : M) : Nat -> Store M K V -> Option (Store M K V)
  | 0, _ => none
  | fuel + 1, s =>
    match (s.maps h).iterateListHead with
    | none => some s
    | some e => (removeEntry s h e).bind (clearLoop h fuel)

def hashmapClear (s : Store M K V) (h : M) : Option (Store M K V) :=
  clearLoop h ((s.maps h).nEntries.toNat + 1) s

def mergeLoop (h : M) : Nat -> Option Ptr -> Store M K V -> Option (Store M K V)
  | _, none, s => some s
  | 0, some _, _ => none
  | fuel + 1, some e, s => do
    let (key, value) ← s.cell e
    let (s, _) ← hashmapPut s h key value
    mergeLoop h fuel (s.iterateNext e) s

-- The only failure of hashmap_put without shortage of memory is -EEXIST, which is ignored.
def hashmapMerge (s : Store M K V) (h other : M) : Option (Store M K V) :=
  mergeLoop h ((s.maps other).nEntries.toNat) (s.maps other).iterateListHead s

def moveEntry (s : Store M K V) (h other : M) (e : Ptr) (key : K) : Option (Store M K V) := do
  let s ← unlinkEntry s other e (bucketOf (s.maps other) key)
  linkEntry s h e (bucketOf (s.maps h) key)

def moveLoop (h other : M) : Nat -> Option Ptr -> Store M K V -> Option (Store M K V)
  | _, none, s => some s
  | 0, some _, _ => none
  | fuel + 1, some e, s => do
    let (key, _) ← s.cell e
    let next := s.iterateNext e
    match ← scan s h key with
    | some _ => moveLoop h other fuel next s
    | none =>
      let s ← moveEntry s h other e key
      moveLoop h other fuel next s

def hashmapMove (s : Store M K V) (h other : M) : Option (Store M K V) :=
  moveLoop h other ((s.maps other).nEntries.toNat) (s.maps other).iterateListHead s

def hashmapMoveOne (s : Store M K V) (h other : M) (key : K) :
    Option (Store M K V × Except SetErrno Nat) := do
  match ← scan s h key with
  | some _ => some (s, .error .eexist)
  | none =>
    match ← scan s other key with
    | none => some (s, .error .enoent)
    | some e =>
      let s ← moveEntry s h other e key
      some (s, .ok 0)

def hashmapSize (s : Store M K V) (h : M) : Nat :=
  (s.maps h).nEntries.toNat

-- The values and keys that HASHMAP_FOREACH_KEY meets.
def iterateLoop (s : Store M K V) : Nat -> Option Ptr -> Option (List (K × V))
  | _, none => some []
  | 0, some _ => none
  | fuel + 1, some e => do
    let entry ← s.cell e
    let rest ← iterateLoop s fuel (s.iterateNext e)
    some (entry :: rest)

def hashmapIterate (s : Store M K V) (h : M) : Option (List (K × V)) :=
  iterateLoop s (hashmapSize s h) (s.maps h).iterateListHead

end

inductive Operation (M K V : Type) where
  | put (h : Option M) (key : K) (value : V)
  | replace (h : Option M) (key : K) (value : V)
  | remove (h : Option M) (key : K)
  | removeValue (h : Option M) (key : K) (value : V)
  | removeAndPut (h : Option M) (oldKey newKey : K) (value : V)
  | removeAndReplace (h : Option M) (oldKey newKey : K) (value : V)
  | move (h other : Option M)
  | moveOne (h other : Option M) (key : K)
  | merge (h other : Option M)
  | stealFirst (h : Option M)
  | clear (h : Option M)

section

variable {M K V : Type} [DecidableEq M] [DecidableEq V]

def answerCode : Store M K V × Except SetErrno Nat -> Store M K V × Answer V
  | (s, result) => (s, .code result)

def answerValue : Store M K V × V -> Store M K V × Answer V
  | (s, result) => (s, .value result)

def execute (null : V) (s : Store M K V) : Operation M K V -> Option (Store M K V × Answer V)
  | .put none _ _ => none
  | .put (some h) key value => (hashmapPut s h key value).map answerCode
  | .replace none _ _ => none
  | .replace (some h) key value => (hashmapReplace s h key value).map answerCode
  | .remove none _ => some (s, .value null)
  | .remove (some h) key => (hashmapRemove null s h key).map answerValue
  | .removeValue none _ _ => some (s, .value null)
  | .removeValue (some h) key value => (hashmapRemoveValue null s h key value).map answerValue
  | .removeAndPut none _ _ _ => some (s, .code (.error .enoent))
  | .removeAndPut (some h) oldKey newKey value =>
    (hashmapRemoveAndPut s h oldKey newKey value).map answerCode
  | .removeAndReplace none _ _ _ => some (s, .code (.error .enoent))
  | .removeAndReplace (some h) oldKey newKey value =>
    (hashmapRemoveAndReplace s h oldKey newKey value).map answerCode
  | .move none _ => none
  | .move (some _) none => some (s, .nothing)
  | .move (some h) (some other) => (hashmapMove s h other).map fun s => (s, .nothing)
  | .moveOne _ none _ => some (s, .code (.ok 0))
  | .moveOne none (some _) _ => none
  | .moveOne (some h) (some other) key => (hashmapMoveOne s h other key).map answerCode
  | .merge none _ => none
  | .merge (some _) none => some (s, .code (.ok 0))
  | .merge (some h) (some other) => (hashmapMerge s h other).map fun s => (s, .code (.ok 0))
  | .stealFirst none => some (s, .value null)
  | .stealFirst (some h) => (hashmapStealFirst null s h).map answerValue
  | .clear none => some (s, .nothing)
  | .clear (some h) => (hashmapClear s h).map fun s => (s, .nothing)

end

end Systemd.Maps
