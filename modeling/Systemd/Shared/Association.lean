import Mathlib.Data.List.Basic

set_option autoImplicit false

namespace Systemd.Association

open List

variable {K V : Type} (same : K -> K -> Bool)

def lookup (key : K) (entries : List (K × V)) : Option (K × V) :=
  entries.find? fun entry => same entry.1 key

def erase (key : K) (entries : List (K × V)) : List (K × V) :=
  entries.eraseP fun entry => same entry.1 key

-- The entry keeps its place.
def rewrite (key : K) (value : V) (entries : List (K × V)) : List (K × V) :=
  entries.map fun entry => if same entry.1 key then (key, value) else entry

def Absent (key : K) (entries : List (K × V)) : Prop :=
  ∀ entry ∈ entries, same entry.1 key = false

variable {same} {key : K} {value : V} {entries before behind : List (K × V)} {entry : K × V}

theorem lookup_of_absent (absent : Absent same key entries) : lookup same key entries = none := by
  rw [lookup, find?_eq_none]
  intro other mem
  simp [absent other mem]

theorem lookup_eq_none : lookup same key entries = none ↔ Absent same key entries := by
  rw [lookup, find?_eq_none]
  simp only [Absent, Bool.not_eq_true]

theorem lookup_split (found : same entry.1 key = true) (absent : Absent same key before) :
    lookup same key (before ++ entry :: behind) = some entry := by
  rw [lookup, find?_append, ← lookup, lookup_of_absent absent, Option.none_or,
    find?_cons_of_pos]
  exact found

theorem erase_of_absent (absent : Absent same key entries) : erase same key entries = entries := by
  rw [erase, eraseP_of_forall_not]
  intro other mem
  simp [absent other mem]

theorem erase_split (found : same entry.1 key = true) (absent : Absent same key before) :
    erase same key (before ++ entry :: behind) = before ++ behind := by
  rw [erase, eraseP_append_right, eraseP_cons, found]
  · rfl
  · intro other mem
    simp [absent other mem]

theorem rewrite_of_absent (value : V) (absent : Absent same key entries) :
    rewrite same key value entries = entries := by
  rw [rewrite, map_congr_left, map_id]
  intro other mem
  simp [absent other mem]

theorem rewrite_split (found : same entry.1 key = true) (absent : Absent same key before)
    (absent' : Absent same key behind) :
    rewrite same key value (before ++ entry :: behind) = before ++ (key, value) :: behind := by
  have ahead := rewrite_of_absent value absent
  have after := rewrite_of_absent value absent'
  rw [rewrite] at ahead after ⊢
  rw [map_append, map_cons, ahead, after, if_pos found]

theorem Absent.left (absent : Absent same key (before ++ behind)) : Absent same key before :=
  fun other mem => absent other (mem_append_left _ mem)

theorem Absent.right (absent : Absent same key (before ++ behind)) : Absent same key behind :=
  fun other mem => absent other (mem_append_right _ mem)

theorem Absent.without (absent : Absent same key (before ++ entry :: behind)) :
    Absent same key (before ++ behind) :=
  fun other mem => absent other
    (List.Sublist.mem mem ((sublist_cons_self entry behind).append_left before))

variable (same) in
-- The entries of the second list whose key the first one does not have, and the others.
def missing (entries others : List (K × V)) : List (K × V) :=
  others.filter fun entry => (lookup same entry.1 entries).isNone

variable (same) in
def present (entries others : List (K × V)) : List (K × V) :=
  others.filter fun entry => (lookup same entry.1 entries).isSome

variable {others : List (K × V)} {old : K × V}

theorem missing_nil : missing same entries [] = [] := rfl

theorem present_nil : present same entries [] = [] := rfl

theorem missing_cons_found (found : lookup same entry.1 entries = some old) :
    missing same entries (entry :: others) = missing same entries others := by
  simp [missing, found]

theorem missing_cons_absent (absent : lookup same entry.1 entries = none) :
    missing same entries (entry :: others) = entry :: missing same entries others := by
  simp [missing, absent]

theorem present_cons_found (found : lookup same entry.1 entries = some old) :
    present same entries (entry :: others) = entry :: present same entries others := by
  simp [present, found]

theorem present_cons_absent (absent : lookup same entry.1 entries = none) :
    present same entries (entry :: others) = present same entries others := by
  simp [present, absent]

theorem lookup_concat (other : same entry.1 key = false) :
    lookup same key (entries ++ [entry]) = lookup same key entries := by
  simp [lookup, find?_append, other]

theorem missing_concat (distinct : ∀ other ∈ others, same entry.1 other.1 = false) :
    missing same (entries ++ [entry]) others = missing same entries others := by
  refine filter_congr ?_
  intro other mem
  rw [lookup_concat (distinct other mem)]

theorem present_concat (distinct : ∀ other ∈ others, same entry.1 other.1 = false) :
    present same (entries ++ [entry]) others = present same entries others := by
  refine filter_congr ?_
  intro other mem
  rw [lookup_concat (distinct other mem)]

end Systemd.Association

namespace Systemd

variable {A B : Type}

def replaceFirst (matched : A -> Bool) (value : A) : List A -> List A
  | [] => [value]
  | first :: rest => if matched first then value :: rest else first :: replaceFirst matched value rest

variable {matched : A -> Bool} {value : A} {values : List A}

theorem replaceFirst_absent (absent : values.find? matched = none) :
    replaceFirst matched value values = values ++ [value] := by
  induction values with
  | nil => rfl
  | cons first rest ih =>
    obtain ⟨other, others⟩ : matched first = false ∧ rest.find? matched = none := by
      simpa using absent
    rw [replaceFirst, other, ih others]
    rfl

theorem replaceFirst_found {front back : List A} {found : A} (others : ∀ other ∈ front, matched other = false)
    (it : matched found = true) :
    replaceFirst matched value (front ++ found :: back) = front ++ value :: back := by
  induction front with
  | nil => simp [replaceFirst, it]
  | cons first rest ih =>
    have tail := ih fun other mem => others other (List.mem_cons_of_mem _ mem)
    simp [replaceFirst, others first List.mem_cons_self, tail]

theorem find?_split {found : A} (result : values.find? matched = some found) :
    ∃ front back, values = front ++ found :: back ∧ matched found = true ∧
      ∀ other ∈ front, matched other = false := by
  obtain ⟨it, front, back, split, others⟩ := List.find?_eq_some_iff_append.mp result
  exact ⟨front, back, split, it, fun other mem => by simpa using others other mem⟩

theorem replaceFirst_names [DecidableEq B] (name : A -> B)
    (same : ∀ found, values.find? matched = some found -> name found = name value) :
    (replaceFirst matched value values).map name =
      if (values.find? matched).isSome then values.map name else values.map name ++ [name value] := by
  cases search : values.find? matched with
  | none => simp [replaceFirst_absent search]
  | some found =>
    obtain ⟨front, back, rfl, it, others⟩ := find?_split search
    rw [replaceFirst_found others it]
    simp [same found search]

theorem replaceFirst_filter [DecidableEq B] (name : A -> B) (wanted : B)
    (same : ∀ found, values.find? matched = some found -> name found = name value) :
    (replaceFirst matched value values).filter (name · = wanted) =
      if name value = wanted then
        replaceFirst matched value (values.filter (name · = wanted))
      else
        values.filter (name · = wanted) := by
  cases search : values.find? matched with
  | none =>
    have absent : (values.filter (name · = wanted)).find? matched = none := by
      rw [List.find?_eq_none] at search ⊢
      exact fun other mem => search other (List.mem_filter.mp mem).1
    rw [replaceFirst_absent search, replaceFirst_absent absent, List.filter_append]
    by_cases own : name value = wanted <;> simp [own]
  | some found =>
    have its := same found search
    obtain ⟨front, back, rfl, it, others⟩ := find?_split search
    have fewer : ∀ other ∈ front.filter (name · = wanted), matched other = false :=
      fun other mem => others other (List.mem_filter.mp mem).1
    rw [replaceFirst_found others it]
    by_cases own : name value = wanted
    next => simp [own, its, replaceFirst_found fewer it]
    next => simp [own, its]

end Systemd
