import Mathlib.Data.Finset.Card
import Mathlib.Data.Fintype.Card
import Mathlib.Logic.Function.Basic
import Systemd.Shared.Cycles

set_option autoImplicit false

namespace Systemd.Collect

open Avoid Relation List Option Function

/-- What the collector reads of the units and never writes: the UNIT_REFERENCED_BY sets in their
iteration order, and the answers of unit_check_gc. -/
structure References (U : Type) where
  referencedBy : U -> List U
  checkGc : U -> Bool

/-- The part of the manager and of its units that the collector works on. A unit has its
in_gc_queue or in_cleanup_queue flag exactly while it is linked into the queue. -/
structure Manager (U : Type) where
  marker : U -> UInt32
  gcQueue : List U
  cleanupQueue : List U
  gcMarker : Int32
  nInGcQueue : Nat
  gcQueueTimestamp : Nat
  now : Nat

inductive GcOffset where
  | inPath
  | unsure
  | good
  | bad
  deriving DecidableEq

def GcOffset.value : GcOffset -> UInt32
  | .inPath => 0
  | .unsure => 1
  | .good => 2
  | .bad => 3

def gcOffsetMax : Int32 := 4

def mark (gcMarker : UInt32) (offset : GcOffset) : UInt32 :=
  gcMarker + offset.value

@[simp] theorem mark_inj (gcMarker : UInt32) (first second : GcOffset) :
    mark gcMarker first = mark gcMarker second ↔ first = second := by
  constructor
  · intro same
    have values : first.value = second.value := by
      have cancelled := congrArg (· - gcMarker) same
      simpa [mark, UInt32.add_comm gcMarker] using cancelled
    revert values
    cases first <;> cases second <;> decide
  · rintro rfl
    rfl

def gcQueueEntriesMax : Nat := 16

def gcQueueUsecMax : Nat := 10 * 1000000

section

variable {U : Type} [DecidableEq U]

def setMarker (m : Manager U) (u : U) (value : UInt32) : Manager U :=
  { m with marker := update m.marker u value }

def unitAddToCleanupQueue (m : Manager U) (u : U) : Manager U :=
  if u ∈ m.cleanupQueue then m else { m with cleanupQueue := u :: m.cleanupQueue }

def unitAddToGcQueue (refs : References U) (m : Manager U) (u : U) : Manager U :=
  if u ∈ m.gcQueue ∨ u ∈ m.cleanupQueue then
    m
  else if refs.checkGc u then
    m
  else
    { m with
      gcQueue := u :: m.gcQueue
      nInGcQueue := m.nInGcQueue + 1
      gcQueueTimestamp := if m.gcQueueTimestamp ≤ 0 then m.now else m.gcQueueTimestamp }

def sweepBad (gcMarker : UInt32) (m : Manager U) (u : U) : Manager U :=
  unitAddToCleanupQueue (setMarker m u (mark gcMarker .bad)) u

def sweepGood (gcMarker : UInt32) (m : Manager U) (u : U) : Manager U :=
  setMarker m u (mark gcMarker .good)

def sweepUnsure (refs : References U) (gcMarker : UInt32) (m : Manager U) (u : U) : Manager U :=
  unitAddToGcQueue refs (setMarker m u (mark gcMarker .unsure)) u

-- The loop over the units that reference u, with the recursive call as an argument.
def sweepReferences (refs : References U) (gcMarker : UInt32)
    (sweep : U -> Manager U -> Option (Manager U)) (u : U) :
    List U -> Bool -> Manager U -> Option (Manager U)
  | [], isBad, m =>
    if isBad then some (sweepBad gcMarker m u) else some (sweepUnsure refs gcMarker m u)
  | other :: rest, isBad, m => do
    let m ← sweep other m
    if m.marker other = mark gcMarker .good then
      some (sweepGood gcMarker m u)
    else if m.marker other ≠ mark gcMarker .bad then
      sweepReferences refs gcMarker sweep u rest false m
    else
      sweepReferences refs gcMarker sweep u rest isBad m

-- none stands for a recursion deeper than the fuel.
def unitGcSweep (refs : References U) (gcMarker : UInt32) :
    Nat -> U -> Manager U -> Option (Manager U)
  | 0, _, _ => none
  | fuel + 1, u, m =>
    if m.marker u = mark gcMarker .good ∨ m.marker u = mark gcMarker .bad ∨
        m.marker u = mark gcMarker .inPath then
      some m
    else if u ∈ m.cleanupQueue then
      some (sweepBad gcMarker m u)
    else if refs.checkGc u then
      some (sweepGood gcMarker m u)
    else
      sweepReferences refs gcMarker (unitGcSweep refs gcMarker fuel) u (refs.referencedBy u) true
        (setMarker m u (mark gcMarker .inPath))

def dispatchOne (gcMarker : UInt32) (m : Manager U) (u : U) : Manager U :=
  let m := { m with gcQueue := m.gcQueue.erase u }
  if m.marker u = mark gcMarker .bad ∨ m.marker u = mark gcMarker .unsure then
    sweepBad gcMarker m u
  else
    m

def dispatchLoop (refs : References U) (gcMarker : UInt32) (depth : Nat) :
    Nat -> Nat -> Manager U -> Option (Manager U × Nat)
  | 0, _, _ => none
  | turns + 1, n, m =>
    match m.gcQueue with
    | [] => some (m, n)
    | u :: _ => do
      let m ← unitGcSweep refs gcMarker depth u m
      dispatchLoop refs gcMarker depth turns (n + 1) (dispatchOne gcMarker m u)

def throttled (m : Manager U) : Bool :=
  m.nInGcQueue < gcQueueEntriesMax &&
    (m.gcQueueTimestamp ≤ 0 || m.gcQueueTimestamp + gcQueueUsecMax > m.now)

def nextGcMarker (gcMarker : Int32) : Int32 :=
  let advanced := gcMarker + gcOffsetMax
  if advanced + gcOffsetMax ≤ gcOffsetMax then 1 else advanced

-- Neither the depth of the recursion nor the number of turns exceeds the number of units.
def managerDispatchGcQueue [Fintype U] (refs : References U) (m : Manager U) :
    Option (Manager U × Nat) :=
  if throttled m then
    some (m, 0)
  else do
    let m := { m with gcMarker := nextGcMarker m.gcMarker }
    let (m, n) ← dispatchLoop refs m.gcMarker.toUInt32 (Fintype.card U + 1) (Fintype.card U + 1) 0 m
    some ({ m with nInGcQueue := 0, gcQueueTimestamp := 0 }, n)

end

section

variable {U : Type}

def Saved (refs : References U) (u : U) : Prop :=
  ∃ v, ReflTransGen (fun x y => y ∈ refs.referencedBy x) u v ∧ refs.checkGc v = true

variable {refs : References U} {u : U} {m m' middle : Manager U} {gcMarker : UInt32}

theorem saved_here (keeps : refs.checkGc u = true) : Saved refs u :=
  ⟨u, .refl, keeps⟩

theorem saved_step {v : U} (edge : v ∈ refs.referencedBy u) (saved : Saved refs v) : Saved refs u := by
  obtain ⟨w, path, keeps⟩ := saved
  exact ⟨w, .head edge path, keeps⟩

theorem not_saved (drops : refs.checkGc u = false)
    (others : ∀ v ∈ refs.referencedBy u, ¬ Saved refs v) : ¬ Saved refs u := by
  rintro ⟨w, path, keeps⟩
  cases path using ReflTransGen.head_induction_on with
  | refl => simp [drops] at keeps
  | head edge path => exact others _ edge ⟨w, path, keeps⟩

def Final (gcMarker : UInt32) (m : Manager U) (v : U) : Prop :=
  m.marker v = mark gcMarker .good ∨ m.marker v = mark gcMarker .bad

def OnPath (gcMarker : UInt32) (m : Manager U) (v : U) : Prop :=
  m.marker v = mark gcMarker .inPath

instance (gcMarker : UInt32) (m : Manager U) : DecidablePred (OnPath gcMarker m) :=
  fun v => inferInstanceAs (Decidable (m.marker v = mark gcMarker .inPath))

structure Sound (refs : References U) (gcMarker : UInt32) (m : Manager U) : Prop where
  good : ∀ v, m.marker v = mark gcMarker .good -> Saved refs v
  bad : ∀ v, m.marker v = mark gcMarker .bad -> ¬ Saved refs v
  cleanup : ∀ v, v ∈ m.cleanupQueue ↔ m.marker v = mark gcMarker .bad
  nodup : m.gcQueue.Nodup

/-- What a sweep may change: it never takes back a verdict, leaves the path as it found it, and
queues only units without a verdict. -/
structure Swept (gcMarker : UInt32) (m m' : Manager U) : Prop where
  final : ∀ v, Final gcMarker m v -> m'.marker v = m.marker v
  onPath : ∀ v, OnPath gcMarker m' v ↔ OnPath gcMarker m v
  queued : ∀ v ∈ m.gcQueue, v ∈ m'.gcQueue
  added : ∀ v ∈ m'.gcQueue, v ∈ m.gcQueue ∨ ¬ Final gcMarker m v
  markers : ∀ v, m'.marker v = m.marker v ∨ ∃ offset, m'.marker v = mark gcMarker offset
  gcMarker : m'.gcMarker = m.gcMarker

theorem Swept.refl (gcMarker : UInt32) (m : Manager U) : Swept gcMarker m m where
  final _ _ := rfl
  onPath _ := Iff.rfl
  queued _ mem := mem
  added _ mem := .inl mem
  markers _ := .inl rfl
  gcMarker := rfl

theorem Swept.kept (swept : Swept gcMarker m m') {v : U} (final : Final gcMarker m v) :
    Final gcMarker m' v := by
  unfold Final at *
  rwa [swept.final v final]

theorem Swept.trans {m'' : Manager U} (first : Swept gcMarker m m') (second : Swept gcMarker m' m'') :
    Swept gcMarker m m'' where
  final v final := (second.final v (first.kept final)).trans (first.final v final)
  onPath v := (second.onPath v).trans (first.onPath v)
  queued v mem := second.queued v (first.queued v mem)
  added v mem := by
    rcases second.added v mem with inside | fresh
    · exact first.added v inside
    · exact .inr fun final => fresh (first.kept final)
  markers v := by
    rcases second.markers v with same | set
    · rw [same]
      exact first.markers v
    · exact .inr set
  gcMarker := second.gcMarker.trans first.gcMarker

variable [DecidableEq U]

theorem Swept.settle {offset : GcOffset} (open' : ¬ Final gcMarker m u) (free : ¬ OnPath gcMarker m u)
    (settled : offset ≠ .inPath)
    (behind : Swept gcMarker (setMarker m u (mark gcMarker .inPath)) middle)
    (marker : m'.marker = update middle.marker u (mark gcMarker offset))
    (queued : ∀ v ∈ middle.gcQueue, v ∈ m'.gcQueue)
    (added : ∀ v ∈ m'.gcQueue, v ∈ middle.gcQueue ∨ v = u) (same : m'.gcMarker = middle.gcMarker) :
    Swept gcMarker m m' where
  final v final := by
    have distinct : v ≠ u := fun equal => open' (equal ▸ final)
    have early : Final gcMarker (setMarker m u (mark gcMarker .inPath)) v := by
      simpa [Final, setMarker, distinct] using final
    have later := behind.final v early
    simpa [marker, setMarker, distinct] using later
  onPath v := by
    by_cases equal : v = u
    · subst equal
      simp only [OnPath] at free
      simp [OnPath, marker, settled, free]
    · have through := behind.onPath v
      simpa [OnPath, marker, setMarker, equal] using through
  queued v mem := queued v (behind.queued v mem)
  added v mem := by
    rcases added v mem with inside | equal
    · rcases behind.added v inside with early | fresh
      · exact .inl early
      · by_cases equal : v = u
        · exact .inr (equal ▸ open')
        · exact .inr (by simpa [Final, setMarker, equal] using fresh)
    · exact .inr (equal ▸ open')
  markers v := by
    by_cases equal : v = u
    · subst equal
      exact .inr ⟨offset, by simp [marker]⟩
    · have through := behind.markers v
      simpa [marker, setMarker, equal] using through
  gcMarker := same.trans behind.gcMarker

theorem Sound.enter (sound : Sound refs gcMarker m) (open' : ¬ Final gcMarker m u) :
    Sound refs gcMarker (setMarker m u (mark gcMarker .inPath)) where
  good v marked := by
    by_cases equal : v = u
    · simp [setMarker, equal] at marked
    · exact sound.good v (by simpa [setMarker, equal] using marked)
  bad v marked := by
    by_cases equal : v = u
    · simp [setMarker, equal] at marked
    · exact sound.bad v (by simpa [setMarker, equal] using marked)
  cleanup v := by
    by_cases equal : v = u
    · subst equal
      have notBad : m.marker v ≠ mark gcMarker .bad := fun bad => open' (.inr bad)
      simp [setMarker, sound.cleanup, notBad]
    · simpa [setMarker, equal] using sound.cleanup v
  nodup := sound.nodup

theorem Sound.sweepGood (sound : Sound refs gcMarker m) (path : OnPath gcMarker m u)
    (saved : Saved refs u) : Sound refs gcMarker (sweepGood gcMarker m u) where
  good v marked := by
    by_cases equal : v = u
    · exact equal ▸ saved
    · exact sound.good v (by simpa [Collect.sweepGood, setMarker, equal] using marked)
  bad v marked := by
    by_cases equal : v = u
    · simp [Collect.sweepGood, setMarker, equal] at marked
    · exact sound.bad v (by simpa [Collect.sweepGood, setMarker, equal] using marked)
  cleanup v := by
    by_cases equal : v = u
    · subst equal
      unfold OnPath at path
      simp [Collect.sweepGood, setMarker, sound.cleanup, path]
    · simpa [Collect.sweepGood, setMarker, equal] using sound.cleanup v
  nodup := sound.nodup

theorem sweepBad_cleanupQueue (gcMarker : UInt32) (m : Manager U) (u v : U) :
    v ∈ (sweepBad gcMarker m u).cleanupQueue ↔ v = u ∨ v ∈ m.cleanupQueue := by
  unfold sweepBad unitAddToCleanupQueue
  split_ifs with inside
  · simp only [setMarker] at inside ⊢
    constructor
    · exact .inr
    · rintro (rfl | mem)
      · exact inside
      · exact mem
  · simp [setMarker]

@[simp] theorem sweepBad_marker (gcMarker : UInt32) (m : Manager U) (u : U) :
    (sweepBad gcMarker m u).marker = update m.marker u (mark gcMarker .bad) := by
  unfold sweepBad unitAddToCleanupQueue
  split_ifs <;> rfl

@[simp] theorem sweepBad_gcQueue (gcMarker : UInt32) (m : Manager U) (u : U) :
    (sweepBad gcMarker m u).gcQueue = m.gcQueue := by
  unfold sweepBad unitAddToCleanupQueue
  split_ifs <;> rfl

@[simp] theorem sweepBad_gcMarker (gcMarker : UInt32) (m : Manager U) (u : U) :
    (sweepBad gcMarker m u).gcMarker = m.gcMarker := by
  unfold sweepBad unitAddToCleanupQueue
  split_ifs <;> rfl

theorem Sound.sweepBad (sound : Sound refs gcMarker m) (lost : ¬ Saved refs u) :
    Sound refs gcMarker (sweepBad gcMarker m u) where
  good v marked := by
    by_cases equal : v = u
    · simp [equal] at marked
    · exact sound.good v (by simpa [equal] using marked)
  bad v marked := by
    by_cases equal : v = u
    · exact equal ▸ lost
    · exact sound.bad v (by simpa [equal] using marked)
  cleanup v := by
    rw [sweepBad_cleanupQueue]
    by_cases equal : v = u
    · simp [equal]
    · simp [equal, sound.cleanup]
  nodup := by simpa using sound.nodup

@[simp] theorem sweepUnsure_marker (refs : References U) (gcMarker : UInt32) (m : Manager U) (u : U) :
    (sweepUnsure refs gcMarker m u).marker = update m.marker u (mark gcMarker .unsure) := by
  unfold sweepUnsure unitAddToGcQueue
  split_ifs <;> rfl

@[simp] theorem sweepUnsure_gcMarker (refs : References U) (gcMarker : UInt32) (m : Manager U)
    (u : U) : (sweepUnsure refs gcMarker m u).gcMarker = m.gcMarker := by
  unfold sweepUnsure unitAddToGcQueue
  split_ifs <;> rfl

@[simp] theorem sweepUnsure_cleanupQueue (refs : References U) (gcMarker : UInt32) (m : Manager U)
    (u : U) : (sweepUnsure refs gcMarker m u).cleanupQueue = m.cleanupQueue := by
  unfold sweepUnsure unitAddToGcQueue
  split_ifs <;> rfl

theorem sweepUnsure_gcQueue (refs : References U) (gcMarker : UInt32) (m : Manager U) (u : U) :
    (sweepUnsure refs gcMarker m u).gcQueue = m.gcQueue ∨
      u ∉ m.gcQueue ∧ (sweepUnsure refs gcMarker m u).gcQueue = u :: m.gcQueue := by
  unfold sweepUnsure unitAddToGcQueue
  split
  · exact .inl rfl
  · rename_i linked
    rw [not_or] at linked
    split
    · exact .inl rfl
    · exact .inr ⟨linked.1, rfl⟩

theorem Sound.sweepUnsure (sound : Sound refs gcMarker m) (path : OnPath gcMarker m u) :
    Sound refs gcMarker (sweepUnsure refs gcMarker m u) where
  good v marked := by
    by_cases equal : v = u
    · simp [equal] at marked
    · exact sound.good v (by simpa [equal] using marked)
  bad v marked := by
    by_cases equal : v = u
    · simp [equal] at marked
    · exact sound.bad v (by simpa [equal] using marked)
  cleanup v := by
    rw [sweepUnsure_cleanupQueue, sound.cleanup]
    by_cases equal : v = u
    · subst equal
      unfold OnPath at path
      simp [path]
    · simp [equal]
  nodup := by
    rcases sweepUnsure_gcQueue refs gcMarker m u with same | ⟨fresh, added⟩
    · rw [same]
      exact sound.nodup
    · rw [added]
      exact nodup_cons.mpr ⟨fresh, sound.nodup⟩

def unblocked [Fintype U] (gcMarker : UInt32) (m : Manager U) : Nat :=
  (Finset.univ.filter fun v => ¬ OnPath gcMarker m v).card

theorem unblocked_enter [Fintype U] (free : ¬ OnPath gcMarker m u) :
    unblocked gcMarker (setMarker m u (mark gcMarker .inPath)) < unblocked gcMarker m := by
  apply Finset.card_lt_card
  rw [Finset.ssubset_iff_of_subset]
  · refine ⟨u, by simpa using free, ?_⟩
    rw [Finset.mem_filter]
    simp [OnPath, setMarker]
  · intro v mem
    rw [Finset.mem_filter] at mem ⊢
    by_cases equal : v = u
    · exact ⟨mem.1, equal ▸ free⟩
    · simpa [OnPath, setMarker, equal] using mem

omit [DecidableEq U] in
theorem Swept.unblocked [Fintype U] (swept : Swept gcMarker m m') :
    unblocked gcMarker m' = unblocked gcMarker m := by
  simp only [Collect.unblocked, swept.onPath]

def Escapes (refs : References U) (gcMarker : UInt32) (m : Manager U) (u : U) : Prop :=
  Leads (fun x y => y ∈ refs.referencedBy x) (fun v => refs.checkGc v = true) (OnPath gcMarker m) u

structure Outcome (refs : References U) (gcMarker : UInt32) (m : Manager U) (u : U)
    (m' : Manager U) : Prop where
  swept : Swept gcMarker m m'
  sound : Sound refs gcMarker m'
  found : Escapes refs gcMarker m u -> m'.marker u = mark gcMarker .good
  touched : ∃ offset, m'.marker u = mark gcMarker offset

def SweepsWithin (refs : References U) (gcMarker : UInt32) (bound : Nat) [Fintype U]
    (sweep : U -> Manager U -> Option (Manager U)) : Prop :=
  ∀ u m, Sound refs gcMarker m -> unblocked gcMarker m < bound ->
    ∃ m', sweep u m = some m' ∧ Outcome refs gcMarker m u m'

section

variable (escapes : Escapes refs gcMarker m u)
include escapes

section

omit [DecidableEq U]

theorem Escapes.saved : Saved refs u :=
  Leads.reaches escapes

theorem Escapes.free : ¬ OnPath gcMarker m u :=
  Leads.free escapes

theorem Escapes.swept (swept : Swept gcMarker m m') : Escapes refs gcMarker m' u :=
  Leads.widen escapes fun v path => (swept.onPath v).mp path

end

end

-- The loop runs while u is on the path; middle is the state it has come to. Units already passed
-- are known to be bad as long as isBad holds.
theorem sweepReferences_spec [Fintype U] {bound : Nat} {sweep : U -> Manager U -> Option (Manager U)}
    (within : SweepsWithin refs gcMarker bound sweep) (open' : ¬ Final gcMarker m u)
    (free : ¬ OnPath gcMarker m u) (drops : refs.checkGc u = false) (rest : List U) (isBad : Bool)
    (middle : Manager U) (sound : Sound refs gcMarker middle)
    (behind : Swept gcMarker (setMarker m u (mark gcMarker .inPath)) middle)
    (small : unblocked gcMarker middle < bound) (listed : ∀ v ∈ rest, v ∈ refs.referencedBy u)
    (passed : isBad = true -> ∀ v ∈ refs.referencedBy u, v ∈ rest ∨ ¬ Saved refs v) :
    ∃ m', sweepReferences refs gcMarker sweep u rest isBad middle = some m' ∧
      Swept gcMarker m m' ∧ Sound refs gcMarker m' ∧
      ((∃ v ∈ rest, Escapes refs gcMarker middle v) -> m'.marker u = mark gcMarker .good) ∧
      (∃ offset, m'.marker u = mark gcMarker offset) := by
  induction rest generalizing isBad middle with
  | nil =>
    have path : OnPath gcMarker middle u := by
      rw [behind.onPath]
      simp [OnPath, setMarker]
    cases isBad with
    | true =>
      have lost : ¬ Saved refs u := by
        apply not_saved drops
        intro v edge
        rcases passed rfl v edge with impossible | lost
        · simp at impossible
        · exact lost
      refine ⟨_, rfl, ?_, sound.sweepBad lost, by simp, ⟨.bad, by simp⟩⟩
      refine Swept.settle open' free (by decide) behind (sweepBad_marker _ _ _) (by simp) ?_
        (sweepBad_gcMarker _ _ _)
      intro v mem
      exact .inl (by simpa using mem)
    | false =>
      refine ⟨_, rfl, ?_, sound.sweepUnsure path, by simp, ⟨.unsure, by simp⟩⟩
      refine Swept.settle open' free (by decide) behind (sweepUnsure_marker _ _ _ _) ?_ ?_
        (sweepUnsure_gcMarker _ _ _ _)
      · rcases sweepUnsure_gcQueue refs gcMarker middle u with same | ⟨-, added⟩
        · simp [same]
        · intro v mem
          simp [added, mem]
      · intro v mem
        rcases sweepUnsure_gcQueue refs gcMarker middle u with same | ⟨-, added⟩
        · rw [same] at mem
          exact .inl mem
        · rw [added, mem_cons] at mem
          exact mem.symm
  | cons other rest ih =>
    obtain ⟨next, run, outcome⟩ := within other middle sound small
    have through := behind.trans outcome.swept
    simp only [sweepReferences, run, bind_eq_bind, bind_some]
    by_cases good : next.marker other = mark gcMarker .good
    · rw [if_pos good]
      have path : OnPath gcMarker next u := by
        rw [through.onPath]
        simp [OnPath, setMarker]
      have saved : Saved refs u := saved_step (listed other (by simp)) (outcome.sound.good other good)
      refine ⟨_, rfl, ?_, outcome.sound.sweepGood path saved, ?_, ⟨.good, ?_⟩⟩
      · exact Swept.settle open' free (by decide) through rfl (fun _ mem => mem)
          (fun _ mem => .inl mem) rfl
      · intro
        simp [sweepGood, setMarker]
      · simp [sweepGood, setMarker]
    · rw [if_neg good]
      have small' : unblocked gcMarker next < bound := by
        rw [outcome.swept.unblocked]
        exact small
      have listed' : ∀ v ∈ rest, v ∈ refs.referencedBy u :=
        fun v mem => listed v (mem_cons_of_mem _ mem)
      have finish : ∀ isBad' : Bool, (isBad' = true -> isBad = true ∧ ¬ Saved refs other) ->
          ∃ m', sweepReferences refs gcMarker sweep u rest isBad' next = some m' ∧
            Swept gcMarker m m' ∧ Sound refs gcMarker m' ∧
            ((∃ v ∈ other :: rest, Escapes refs gcMarker middle v) ->
              m'.marker u = mark gcMarker .good) ∧
            (∃ offset, m'.marker u = mark gcMarker offset) := by
        intro isBad' known
        obtain ⟨m', result, swept, sound', found, touched⟩ :=
          ih isBad' next outcome.sound through small' listed' (by
            intro bad v edge
            obtain ⟨earlier, lost⟩ := known bad
            rcases passed earlier v edge with mem | gone
            · rcases mem_cons.mp mem with equal | mem
              · exact .inr (equal ▸ lost)
              · exact .inl mem
            · exact .inr gone)
        refine ⟨m', result, swept, sound', ?_, touched⟩
        rintro ⟨v, mem, escapes⟩
        rcases mem_cons.mp mem with equal | mem
        · exact absurd (outcome.found (equal ▸ escapes)) good
        · exact found ⟨v, mem, escapes.swept outcome.swept⟩
      by_cases bad : next.marker other = mark gcMarker .bad
      · simp only [bad, ne_eq, not_true_eq_false, if_false]
        exact finish isBad fun holds => ⟨holds, outcome.sound.bad other bad⟩
      · simp only [ne_eq, bad, not_false_eq_true, if_true]
        exact finish false (by simp)

theorem unitGcSweep_spec [Fintype U] (refs : References U) (gcMarker : UInt32) (fuel : Nat) :
    SweepsWithin refs gcMarker fuel (unitGcSweep refs gcMarker fuel) := by
  induction fuel with
  | zero =>
    intro u m _ small
    omega
  | succ fuel ih =>
    intro u m sound small
    rw [unitGcSweep]
    by_cases done : m.marker u = mark gcMarker .good ∨ m.marker u = mark gcMarker .bad ∨
        m.marker u = mark gcMarker .inPath
    · rw [if_pos done]
      refine ⟨m, rfl, .refl _ _, sound, ?_, ?_⟩
      · intro escapes
        rcases done with good | bad | path
        · exact good
        · exact absurd escapes.saved (sound.bad u bad)
        · exact absurd path escapes.free
      · rcases done with good | bad | path
        · exact ⟨_, good⟩
        · exact ⟨_, bad⟩
        · exact ⟨_, path⟩
    · rw [if_neg done]
      simp only [not_or] at done
      have open' : ¬ Final gcMarker m u := by
        rintro (good | bad)
        · exact done.1 good
        · exact done.2.1 bad
      have free : ¬ OnPath gcMarker m u := done.2.2
      rw [if_neg (fun inside => done.2.1 ((sound.cleanup u).mp inside))]
      cases keeps : refs.checkGc u with
      | true =>
        have saved := saved_here keeps
        rw [if_pos rfl]
        have entered := (sound.enter open').sweepGood (u := u)
          (by simp [OnPath, setMarker]) saved
        refine ⟨_, rfl, ?_, ?_, ?_, ⟨.good, ?_⟩⟩
        · refine Swept.settle open' free (?_ : GcOffset.good ≠ .inPath) (Swept.refl _ _) ?_
            (fun _ mem => mem) (fun _ mem => .inl mem) rfl
          · decide
          · simp [sweepGood, setMarker]
        · simpa [sweepGood, setMarker] using entered
        · intro
          simp [sweepGood, setMarker]
        · simp [sweepGood, setMarker]
      | false =>
        rw [if_neg (by decide)]
        have smaller := unblocked_enter free
        obtain ⟨m', result, swept, sound', found, touched⟩ :=
          sweepReferences_spec ih open' free keeps (refs.referencedBy u) true
            (setMarker m u (mark gcMarker .inPath)) (sound.enter open') (.refl _ _) (by omega)
            (fun _ mem => mem) (fun _ _ mem => .inl mem)
        refine ⟨m', result, swept, sound', ?_, touched⟩
        intro escapes
        rcases Leads.first escapes with here | ⟨v, edge, rest⟩
        · simp [keeps] at here
        · refine found ⟨v, edge, rest.widen ?_⟩
          intro x path
          by_cases equal : x = u
          · exact .inr equal
          · exact .inl (by simpa [OnPath, setMarker, equal] using path)

-- Units the loop still has to take out of the queue, or may yet put there.
def Pending (gcMarker : UInt32) (m : Manager U) (v : U) : Prop :=
  v ∈ m.gcQueue ∨ ¬ Final gcMarker m v

instance (gcMarker : UInt32) (m : Manager U) : DecidablePred (Pending gcMarker m) :=
  fun v => inferInstanceAs (Decidable (v ∈ m.gcQueue ∨
    ¬ (m.marker v = mark gcMarker .good ∨ m.marker v = mark gcMarker .bad)))

def pending [Fintype U] (gcMarker : UInt32) (m : Manager U) : Nat :=
  (Finset.univ.filter (Pending gcMarker m)).card

structure Turn (refs : References U) (gcMarker : UInt32) (m : Manager U) (u : U)
    (m' : Manager U) : Prop where
  sound : Sound refs gcMarker m'
  clear : ∀ v, ¬ OnPath gcMarker m' v
  decided : Final gcMarker m' u
  final : ∀ v, Final gcMarker m v -> m'.marker v = m.marker v
  queued : ∀ v ∈ m.gcQueue, v ∈ m'.gcQueue ∨ v = u
  added : ∀ v ∈ m'.gcQueue, v ≠ u ∧ Pending gcMarker m v
  markers : ∀ v, m'.marker v = m.marker v ∨ ∃ offset, m'.marker v = mark gcMarker offset
  gcMarker : m'.gcMarker = m.gcMarker

theorem Sound.dequeue (sound : Sound refs gcMarker m) :
    Sound refs gcMarker { m with gcQueue := m.gcQueue.erase u } where
  good := sound.good
  bad := sound.bad
  cleanup := sound.cleanup
  nodup := sound.nodup.erase u

theorem dispatchOne_turn {swept : Manager U} (clear : ∀ v, ¬ OnPath gcMarker m v)
    (outcome : Outcome refs gcMarker m u swept) :
    Turn refs gcMarker m u (dispatchOne gcMarker swept u) := by
  have clear' : ∀ v, ¬ OnPath gcMarker swept v :=
    fun v path => clear v ((outcome.swept.onPath v).mp path)
  have shrunk : ∀ v ∈ swept.gcQueue.erase u, v ≠ u ∧ Pending gcMarker m v := by
    intro v mem
    have pair := (List.Nodup.mem_erase_iff outcome.sound.nodup).mp mem
    exact ⟨pair.1, outcome.swept.added v pair.2⟩
  have rest : ∀ v ∈ m.gcQueue, v ∈ swept.gcQueue.erase u ∨ v = u := by
    intro v mem
    by_cases equal : v = u
    · exact .inr equal
    · exact .inl ((mem_erase_of_ne equal).mpr (outcome.swept.queued v mem))
  rw [dispatchOne]
  by_cases condemned : swept.marker u = mark gcMarker .bad ∨ swept.marker u = mark gcMarker .unsure
  · have lost : ¬ Saved refs u := by
      rintro ⟨w, path, keeps⟩
      have good := outcome.found (leads_of_reaches path keeps clear)
      rw [good] at condemned
      simp at condemned
    simp only [if_pos condemned]
    refine
      { sound := outcome.sound.dequeue.sweepBad lost
        clear := ?_
        decided := .inr (by simp)
        final := ?_
        queued := by simpa using rest
        added := by simpa using shrunk
        markers := ?_
        gcMarker := by simpa using outcome.swept.gcMarker }
    · intro v path
      by_cases equal : v = u
      · simp [OnPath, equal] at path
      · exact clear' v (by simpa [OnPath, equal] using path)
    · intro v final
      by_cases equal : v = u
      · subst equal
        have kept := outcome.swept.final v final
        rcases final with good | bad
        · rw [kept, good] at condemned
          simp at condemned
        · simp [bad]
      · simpa [equal] using outcome.swept.final v final
    · intro v
      by_cases equal : v = u
      · exact .inr ⟨.bad, by simp [equal]⟩
      · simpa [equal] using outcome.swept.markers v
  · simp only [if_neg condemned]
    have good : swept.marker u = mark gcMarker .good := by
      obtain ⟨offset, touched⟩ := outcome.touched
      cases offset with
      | inPath => exact absurd touched (clear' u)
      | unsure => exact absurd (.inr touched) condemned
      | good => exact touched
      | bad => exact absurd (.inl touched) condemned
    exact
      { sound := outcome.sound.dequeue
        clear := clear'
        decided := .inl good
        final := outcome.swept.final
        queued := rest
        added := shrunk
        markers := outcome.swept.markers
        gcMarker := outcome.swept.gcMarker }

theorem Turn.pending_lt [Fintype U] (turn : Turn refs gcMarker m u m') (here : u ∈ m.gcQueue) :
    pending gcMarker m' < pending gcMarker m := by
  apply Finset.card_lt_card
  rw [Finset.ssubset_iff_of_subset]
  · refine ⟨u, by simp [Pending, here], ?_⟩
    rw [Finset.mem_filter]
    rintro ⟨-, mem | undecided⟩
    · exact (turn.added u mem).1 rfl
    · exact undecided turn.decided
  · intro v mem
    rw [Finset.mem_filter] at mem ⊢
    refine ⟨mem.1, ?_⟩
    rcases mem.2 with queued | undecided
    · exact (turn.added v queued).2
    · refine .inr fun final => undecided ?_
      unfold Final at final ⊢
      rwa [turn.final v final]

structure Emptied (refs : References U) (gcMarker : UInt32) (m m' : Manager U) : Prop where
  sound : Sound refs gcMarker m'
  empty : m'.gcQueue = []
  final : ∀ v, Final gcMarker m v -> m'.marker v = m.marker v
  decided : ∀ v ∈ m.gcQueue, Final gcMarker m' v
  markers : ∀ v, m'.marker v = m.marker v ∨ ∃ offset, m'.marker v = mark gcMarker offset
  gcMarker : m'.gcMarker = m.gcMarker

omit [DecidableEq U] in
theorem Turn.emptied (turn : Turn refs gcMarker m u middle) (rest : Emptied refs gcMarker middle m') :
    Emptied refs gcMarker m m' where
  sound := rest.sound
  empty := rest.empty
  final v final := by
    have kept : Final gcMarker middle v := by
      unfold Final at final ⊢
      rwa [turn.final v final]
    exact (rest.final v kept).trans (turn.final v final)
  decided v mem := by
    rcases turn.queued v mem with queued | equal
    · exact rest.decided v queued
    · subst equal
      have decided := turn.decided
      unfold Final at decided ⊢
      rwa [rest.final v turn.decided]
  markers v := by
    rcases rest.markers v with same | set
    · rw [same]
      exact turn.markers v
    · exact .inr set
  gcMarker := rest.gcMarker.trans turn.gcMarker

theorem dispatchLoop_spec [Fintype U] (refs : References U) (gcMarker : UInt32) {depth : Nat}
    (deep : Fintype.card U < depth) (turns n : Nat) (m : Manager U) (sound : Sound refs gcMarker m)
    (clear : ∀ v, ¬ OnPath gcMarker m v) (enough : pending gcMarker m < turns) :
    ∃ m' n', dispatchLoop refs gcMarker depth turns n m = some (m', n') ∧
      Emptied refs gcMarker m m' := by
  induction turns generalizing n m with
  | zero => omega
  | succ turns ih =>
    rw [dispatchLoop]
    cases queue : m.gcQueue with
    | nil =>
      refine ⟨m, n, rfl, sound, queue, fun _ _ => rfl, ?_, fun _ => .inl rfl, rfl⟩
      simp [queue]
    | cons u rest =>
      have shallow : unblocked gcMarker m < depth :=
        lt_of_le_of_lt (Finset.card_le_univ _) deep
      obtain ⟨swept, run, outcome⟩ := unitGcSweep_spec refs gcMarker depth u m sound shallow
      have turn := dispatchOne_turn clear outcome
      have fewer := turn.pending_lt (by simp [queue])
      obtain ⟨m', n', result, emptied⟩ :=
        ih (n + 1) (dispatchOne gcMarker swept u) turn.sound turn.clear (by omega)
      simp only [run, bind_eq_bind, bind_some]
      exact ⟨m', n', result, turn.emptied emptied⟩

end

theorem nextGcMarker_toInt {gcMarker : Int32} (positive : 0 ≤ gcMarker.toInt)
    (small : gcMarker.toInt + 8 < 2 ^ 31) : (nextGcMarker gcMarker).toInt = gcMarker.toInt + 4 := by
  have four : gcOffsetMax.toInt = 4 := by decide
  have once : (gcMarker + gcOffsetMax).toInt = gcMarker.toInt + 4 := by
    rw [Int32.toInt_add, four, Int.bmod_eq_of_le]
    all_goals omega
  have twice : (gcMarker + gcOffsetMax + gcOffsetMax).toInt = gcMarker.toInt + 8 := by
    rw [Int32.toInt_add, once, four, Int.bmod_eq_of_le]
    all_goals omega
  have large : ¬ gcMarker + gcOffsetMax + gcOffsetMax ≤ gcOffsetMax := by
    rw [Int32.le_iff_toInt_le, twice, four]
    omega
  rw [nextGcMarker, if_neg large, once]

theorem mark_toNat {gcMarker : Int32} (positive : 0 ≤ gcMarker.toInt) (offset : GcOffset) :
    ∃ distance : Nat, distance < 4 ∧
      ((mark gcMarker.toUInt32 offset).toNat : Int) = gcMarker.toInt + distance := by
  have same : (gcMarker.toUInt32.toNat : Int) = gcMarker.toInt := by
    have nonnegative : 0 ≤ gcMarker := by
      rw [Int32.le_iff_toInt_le]
      simpa using positive
    rw [Int32.toNat_toUInt32_of_le nonnegative, Int32.toNatClampNeg]
    omega
  have bounded := gcMarker.toInt_lt
  have small : offset.value.toNat < 4 := by cases offset <;> decide
  refine ⟨offset.value.toNat, small, ?_⟩
  rw [mark, UInt32.toNat_add, Nat.mod_eq_of_lt]
  · omega
  · omega

section

variable {U : Type} [DecidableEq U] [Fintype U]

/-- States of a manager after some number of collector runs. Between two runs everything may change
except the marks: a unit keeps the one it has, and a new unit has none. -/
inductive Reached : Nat -> Manager U -> Prop where
  | initial {m : Manager U} (unmarked : ∀ v, m.marker v = 0) (gcMarker : m.gcMarker = 0)
      (nodup : m.gcQueue.Nodup) : Reached 0 m
  | between {runs : Nat} {m m' : Manager U} (reached : Reached runs m)
      (kept : ∀ v, m'.marker v = m.marker v ∨ m'.marker v = 0)
      (same : m'.gcMarker = m.gcMarker) (nodup : m'.gcQueue.Nodup) : Reached runs m'
  | dispatch {runs count : Nat} {m m' : Manager U} {refs : References U}
      (reached : Reached runs m) (empty : m.cleanupQueue = [])
      (run : managerDispatchGcQueue refs m = some (m', count)) : Reached (runs + 1) m'

structure Stale (runs : Nat) (m : Manager U) : Prop where
  positive : 0 ≤ m.gcMarker.toInt
  bounded : m.gcMarker.toInt ≤ 4 * runs
  markers : ∀ v, ((m.marker v).toNat : Int) < m.gcMarker.toInt + 4
  nodup : m.gcQueue.Nodup

variable {runs : Nat} {m : Manager U}

omit [DecidableEq U] [Fintype U] in
theorem Stale.next (stale : Stale runs m) (few : runs + 2 < 2 ^ 29) :
    0 ≤ (nextGcMarker m.gcMarker).toInt ∧ (nextGcMarker m.gcMarker).toInt = m.gcMarker.toInt + 4 := by
  have positive := stale.positive
  have bounded := stale.bounded
  have next := nextGcMarker_toInt positive (by omega)
  exact ⟨by omega, next⟩

omit [DecidableEq U] [Fintype U] in
theorem Stale.unused (stale : Stale runs m) (few : runs + 2 < 2 ^ 29) (v : U) (offset : GcOffset) :
    m.marker v ≠ mark (nextGcMarker m.gcMarker).toUInt32 offset := by
  intro same
  obtain ⟨positive, next⟩ := stale.next few
  obtain ⟨distance, -, position⟩ := mark_toNat positive offset
  have old := stale.markers v
  rw [same, position] at old
  omega

theorem Stale.dispatch (refs : References U) (stale : Stale runs m) (few : runs + 2 < 2 ^ 29)
    (empty : m.cleanupQueue = []) (awake : throttled m = false) :
    ∃ m' count, managerDispatchGcQueue refs m =
        some ({ m' with nInGcQueue := 0, gcQueueTimestamp := 0 }, count) ∧
      Emptied refs (nextGcMarker m.gcMarker).toUInt32
        { m with gcMarker := nextGcMarker m.gcMarker } m' := by
  have unused := stale.unused few
  have sound : Sound refs (nextGcMarker m.gcMarker).toUInt32
      { m with gcMarker := nextGcMarker m.gcMarker } :=
    { good := fun v marked => absurd marked (unused v .good)
      bad := fun v marked => absurd marked (unused v .bad)
      cleanup := fun v => by simp [empty, unused v .bad]
      nodup := stale.nodup }
  have bounded : pending (nextGcMarker m.gcMarker).toUInt32
      { m with gcMarker := nextGcMarker m.gcMarker } ≤ Fintype.card U := Finset.card_le_univ _
  obtain ⟨m', count, run, emptied⟩ :=
    dispatchLoop_spec refs (nextGcMarker m.gcMarker).toUInt32 (Nat.lt_succ_self _)
      (Fintype.card U + 1) 0 _ sound (fun v path => unused v .inPath path) (by omega)
  refine ⟨m', count, ?_, emptied⟩
  simp [managerDispatchGcQueue, awake, run]

theorem Reached.stale (reached : Reached runs m) (few : runs + 1 < 2 ^ 29) : Stale runs m := by
  induction reached with
  | initial unmarked gcMarker nodup =>
    refine ⟨?_, ?_, ?_, nodup⟩
    · simp [gcMarker]
    · simp [gcMarker]
    · simp [gcMarker, unmarked]
  | @between runs m m' _ kept same nodup ih =>
    have stale := ih few
    refine ⟨same ▸ stale.positive, same ▸ stale.bounded, ?_, nodup⟩
    intro v
    rw [same]
    rcases kept v with old | new
    · rw [old]
      exact stale.markers v
    · rw [new]
      have positive := stale.positive
      simp only [UInt32.toNat_zero]
      omega
  | @dispatch runs count m m' refs _ empty run ih =>
    have stale := ih (by omega)
    have bounded := stale.bounded
    cases asleep : throttled m with
    | true =>
      simp only [managerDispatchGcQueue, asleep, if_true, some.injEq,
        Prod.mk.injEq] at run
      obtain ⟨rfl, -⟩ := run
      exact ⟨stale.positive, by omega, stale.markers, stale.nodup⟩
    | false =>
      obtain ⟨positive, next⟩ := stale.next (by omega)
      obtain ⟨swept, count', result, emptied⟩ := stale.dispatch refs (by omega) empty asleep
      rw [result] at run
      simp only [some.injEq, Prod.mk.injEq] at run
      obtain ⟨rfl, -⟩ := run
      have same : swept.gcMarker = nextGcMarker m.gcMarker := emptied.gcMarker
      refine ⟨?_, ?_, ?_, ?_⟩
      · simpa [same] using positive
      · simp only [same]
        omega
      · intro v
        simp only [same]
        rcases emptied.markers v with old | ⟨offset, new⟩
        · have early := stale.markers v
          rw [old, next]
          simp only
          omega
        · obtain ⟨distance, near, position⟩ := mark_toNat positive offset
          rw [new, position]
          omega
      · simp [emptied.empty]

def Collected (refs : References U) (m m' : Manager U) : Prop :=
  m'.gcQueue = [] ∧
    (∀ v ∈ m.gcQueue, v ∈ m'.cleanupQueue ↔ ¬ Saved refs v) ∧
    (∀ v ∈ m'.cleanupQueue, ¬ Saved refs v)

theorem collects_exactly (refs : References U) (reached : Reached runs m) (few : runs + 2 < 2 ^ 29)
    (empty : m.cleanupQueue = []) (awake : throttled m = false) :
    ∃ m' count, managerDispatchGcQueue refs m = some (m', count) ∧ Collected refs m m' := by
  obtain ⟨m', count, run, emptied⟩ :=
    (reached.stale (by omega)).dispatch refs few empty awake
  refine ⟨_, count, run, emptied.empty, ?_, ?_⟩
  · intro v mem
    have decided := emptied.decided v mem
    constructor
    · intro condemned
      exact emptied.sound.bad v ((emptied.sound.cleanup v).mp condemned)
    · intro lost
      rcases decided with good | bad
      · exact absurd (emptied.sound.good v good) lost
      · exact (emptied.sound.cleanup v).mpr bad
  · intro v condemned
    exact emptied.sound.bad v ((emptied.sound.cleanup v).mp condemned)

end

local instance (priority := 1200) threeCollected : @NeZero Nat Zero.ofOfNat0 3 := ⟨by decide⟩

-- Two units that reference each other and a third that holds nothing; the queue is old enough.
def interlocked : References (Fin 3) where
  referencedBy := fun v => if v = 0 then [1] else if v = 1 then [0] else []
  checkGc := fun _ => false

def queuedLongAgo : Manager (Fin 3) where
  marker := fun _ => 0
  gcQueue := [1, 2]
  cleanupQueue := []
  gcMarker := 0
  nInGcQueue := 2
  gcQueueTimestamp := 5
  now := 20000000

theorem queuedLongAgo_reached : Reached 0 queuedLongAgo :=
  .initial (fun _ => rfl) rfl (by decide)

theorem collects_exactly_interlocked :
    Reached 0 queuedLongAgo ∧ queuedLongAgo.cleanupQueue = [] ∧ throttled queuedLongAgo = false ∧
      ∃ m' count, managerDispatchGcQueue interlocked queuedLongAgo = some (m', count) ∧
        Collected interlocked queuedLongAgo m' :=
  ⟨queuedLongAgo_reached, rfl, by decide,
    collects_exactly interlocked queuedLongAgo_reached (by decide) rfl (by decide)⟩

def queuedJustNow : Manager (Fin 3) :=
  { queuedLongAgo with now := 6 }

theorem queue_left_waiting :
    Reached 0 queuedJustNow ∧ queuedJustNow.cleanupQueue = [] ∧
      managerDispatchGcQueue interlocked queuedJustNow = some (queuedJustNow, 0) ∧
      ¬ Collected interlocked queuedJustNow queuedJustNow := by
  refine ⟨.initial (fun _ => rfl) rfl (by decide), rfl, ?_, ?_⟩
  · have asleep : throttled queuedJustNow = true := by decide
    simp [managerDispatchGcQueue, asleep]
  · rintro ⟨impossible, -⟩
    revert impossible
    decide

end Systemd.Collect
