import Mathlib.Data.List.Nodup

set_option autoImplicit false

namespace Systemd

open List

inductive SetErrno where
  | eexist
  | enoent
  deriving DecidableEq

structure OrderedSet (V : Type) where
  members : List V
  nodup : members.Nodup
  deriving DecidableEq

namespace OrderedSet

variable {V : Type}

instance : Membership V (OrderedSet V) :=
  ⟨fun set value => value ∈ set.members⟩

variable (set : OrderedSet V) (value : V)

theorem mem_def : value ∈ set ↔ value ∈ set.members := Iff.rfl

def empty : OrderedSet V :=
  ⟨[], nodup_nil⟩

@[simp] theorem not_mem_empty : value ∉ (empty : OrderedSet V) := by
  simp [mem_def, empty]

variable [DecidableEq V]

instance (set : OrderedSet V) (value : V) : Decidable (value ∈ set) :=
  inferInstanceAs (Decidable (value ∈ set.members))

-- set_put returns 0 for a member and 1 for a new one.
def put (set : OrderedSet V) (value : V) : OrderedSet V :=
  if fresh : value ∈ set.members then
    set
  else
    ⟨set.members ++ [value], by
      rw [nodup_append]
      refine ⟨set.nodup, nodup_singleton value, ?_⟩
      intro v mem w single
      rw [mem_singleton] at single
      rintro rfl
      exact fresh (single ▸ mem)⟩

def remove (set : OrderedSet V) (value : V) : OrderedSet V :=
  ⟨set.members.filter (· ≠ value), set.nodup.filter _⟩

def removeAndPut (set : OrderedSet V) (old new : V) : Except SetErrno (OrderedSet V) :=
  if old ∉ set then
    .error .enoent
  else if new ∈ set then
    .error .eexist
  else
    .ok ((set.remove old).put new)

def move (set other : OrderedSet V) : OrderedSet V :=
  other.members.foldl put set

-- The result is the new value of the first pointer; the second one is cleared by the callers.
def completeMove : Option (OrderedSet V) -> Option (OrderedSet V) -> Option (OrderedSet V)
  | set, none => set
  | some set, some other => some (set.move other)
  | none, some other => some other

@[simp] theorem mem_put (v : V) : v ∈ set.put value ↔ v ∈ set ∨ v = value := by
  unfold put
  split_ifs with inside
  · constructor
    · exact .inl
    · rintro (mem | rfl)
      · exact mem
      · exact inside
  · simp [mem_def]

@[simp] theorem mem_remove (v : V) : v ∈ set.remove value ↔ v ∈ set ∧ v ≠ value := by
  simp [mem_def, remove]

theorem mem_foldl_put (values : List V) (set : OrderedSet V) (v : V) :
    v ∈ values.foldl put set ↔ v ∈ set ∨ v ∈ values := by
  induction values generalizing set with
  | nil => simp
  | cons value rest ih => rw [foldl_cons, ih, mem_put, mem_cons, or_assoc]

@[simp] theorem mem_move (other : OrderedSet V) (v : V) : v ∈ set.move other ↔ v ∈ set ∨ v ∈ other :=
  mem_foldl_put other.members set v

variable {set : OrderedSet V}

theorem put_members_of_fresh {value : V} (fresh : value ∉ set) :
    (set.put value).members = set.members ++ [value] := by
  rw [put, dif_neg (show value ∉ set.members from fresh)]

-- The entry behind the one an iterator stands on.
def following (set : OrderedSet V) (value : V) : Option V :=
  ((set.members.dropWhile (· ≠ value)).drop 1).head?

theorem following_split {front rest : List V} {value : V}
    (split : set.members = front ++ value :: rest) : set.following value = rest.head? := by
  have fresh : value ∉ front := by
    have nodup := set.nodup
    rw [split, nodup_append] at nodup
    intro mem
    exact nodup.2.2 value mem value (by simp) rfl
  have skipped : set.members.dropWhile (· ≠ value) = value :: rest := by
    rw [split, dropWhile_append_of_pos]
    · simp
    · intro v mem
      have distinct : v ≠ value := fun same => fresh (same ▸ mem)
      simpa using distinct
  rw [following, skipped, drop_one, tail_cons]

end OrderedSet

end Systemd
