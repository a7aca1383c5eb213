import Systemd.Basic.HashmapCalls

set_option autoImplicit false

namespace Systemd.Maps

open Association List Option Function

variable {M K V : Type} [DecidableEq M] [DecidableEq V] {compareFunc : K -> K -> Int}
  {s : Store M K V} {order : M -> List Ptr} {A : M -> List (K × V)} {h : M} {e : Ptr}
  {entry : K × V} {front back : List Ptr} {before behind : List (K × V)} {key : K}

namespace Represents

section

variable (rep : Represents compareFunc s order A)
include rep

section

omit [DecidableEq M] [DecidableEq V]

theorem locate_at (nodes : order h = front ++ e :: back) (entries : A h = before ++ behind)
    (aligned : front.length = before.length) :
    ∃ entry rest, behind = entry :: rest ∧ Located s order A h e entry front back before rest := by
  obtain ⟨entry, before', rest, located⟩ := rep.locate nodes
  have lengths : before.length = before'.length := by
    rw [← aligned]
    simpa using congrArg List.length located.ahead
  obtain ⟨rfl, rfl⟩ := append_inj (entries.symm.trans located.entries) lengths
  exact ⟨entry, rest, rfl, located⟩

theorem none_behind (nodes : order h = front ++ []) (entries : A h = before ++ behind)
    (aligned : front.length = before.length) : behind = [] := by
  have lengths := rep.length_eq h
  rw [nodes, entries, append_nil, length_append, aligned] at lengths
  exact eq_nil_of_length_eq_zero (by omega)

theorem iterateNext_eq (nodes : order h = front ++ e :: back) : s.iterateNext e = back.head? := by
  have chain := rep.valid.iterate h
  rw [nodes] at chain
  exact chain.next_eq

theorem distinct_behind (located : Located s order A h e entry front back before behind) :
    ∀ other ∈ behind, sameKey compareFunc entry.1 other.1 = false := by
  have law := (rep.lawful h).equivalence
  intro other mem
  have absent := (rep.other_keys located (law.refl entry.1)).right other mem
  rw [sameKey, beq_eq_false_iff_ne] at absent ⊢
  exact fun equal => absent (law.symm equal)

end

end

variable {other : M}

section

variable (rep : Represents compareFunc s order A)
include rep

theorem mergeLoop_eq (apart : other ≠ h) (nodes : order other = front ++ back)
    (entries : A other = before ++ behind) (aligned : front.length = before.length) (fuel : Nat)
    (enough : back.length ≤ fuel) :
    Grows compareFunc ((mergeLoop h fuel back.head? s).map fun s => (s, ()))
      (update A h (A h ++ missing (sameKey compareFunc) (A h) behind)) h () := by
  induction back generalizing s order A front before behind fuel with
  | nil =>
    have nothing := rep.none_behind nodes entries aligned
    subst nothing
    have done : mergeLoop h fuel ([] : List Ptr).head? s = some s := by
      cases fuel <;> rfl
    rw [done, missing_nil, append_nil, update_eq_self]
    exact rep.grows h ()
  | cons e back ih =>
    obtain ⟨entry, rest, rfl, located⟩ := rep.locate_at nodes entries aligned
    cases fuel with
    | zero => simp at enough
    | succ fuel =>
      have enough' : back.length ≤ fuel := by simpa using enough
      rw [head?_cons, mergeLoop, located.cell]
      cases found : lookup (sameKey compareFunc) entry.1 (A h) with
      | some old =>
        have continued := ih rep (nodes.trans (append_cons front e back))
          (entries.trans (append_cons before entry rest)) (by simp [aligned]) fuel enough'
        rw [missing_cons_found found]
        simpa [rep.hashmapPut_found found, rep.iterateNext_eq nodes] using continued
      | none =>
        have absent := lookup_eq_none.mp found
        obtain ⟨s', result, rep'⟩ := rep.putNew_eq entry.2 absent
        rw [missing_cons_absent found]
        by_cases fits : (A h).length + 1 < 2 ^ 32
        · have grown := rep' fits
          have nodes' : update order h (order h ++ [s.nextEntry]) other =
              front ++ e :: back := by
            rw [update_of_ne apart, nodes]
          have entries' : update A h (A h ++ [(entry.1, entry.2)]) other =
              before ++ entry :: rest := by
            rw [update_of_ne apart, entries]
          have continued := ih grown (nodes'.trans (append_cons front e back))
            (entries'.trans (append_cons before entry rest)) (by simp [aligned])
            fuel enough'
          simp only [update_self, update_idem, append_assoc,
            singleton_append, missing_concat (rep.distinct_behind located)] at continued
          rw [if_pos fits] at result
          simpa [rep.hashmapPut_absent entry.2 absent, result,
            grown.iterateNext_eq nodes'] using continued
        · refine ⟨?_, ?_⟩
          · intro small
            rw [update_self, length_append, length_cons] at small
            omega
          · rw [if_neg fits] at result
            simp [rep.hashmapPut_absent entry.2 absent, result]

theorem mergeLoop_self (nodes : order h = front ++ back) (entries : A h = before ++ behind)
    (aligned : front.length = before.length) (fuel : Nat) (enough : back.length ≤ fuel) :
    mergeLoop h fuel back.head? s = some s := by
  induction back generalizing front before behind fuel with
  | nil => cases fuel <;> rfl
  | cons e back ih =>
    obtain ⟨entry, rest, rfl, located⟩ := rep.locate_at nodes entries aligned
    cases fuel with
    | zero => simp at enough
    | succ fuel =>
      have found := rep.lookup_eq located ((rep.lawful h).equivalence.refl entry.1)
      have continued := ih (nodes.trans (append_cons front e back))
        (entries.trans (append_cons before entry rest)) (by simp [aligned]) fuel
        (by simpa using enough)
      rw [head?_cons, mergeLoop, located.cell]
      simpa [rep.hashmapPut_found found, rep.iterateNext_eq nodes] using continued

omit [DecidableEq M] [DecidableEq V] in
theorem missing_self (h : M) : missing (sameKey compareFunc) (A h) (A h) = [] := by
  rw [missing, filter_eq_nil_iff]
  intro entry mem
  have law := (rep.lawful h).equivalence
  rw [isNone_iff_eq_none, lookup_eq_none]
  intro absent
  have own := absent entry mem
  rw [sameKey, beq_eq_false_iff_ne] at own
  exact own (law.refl entry.1)

theorem hashmapMerge (h other : M) :
    Grows compareFunc ((hashmapMerge s h other).map fun s => (s, ()))
      (update A h (A h ++ missing (sameKey compareFunc) (A h) (A other))) h () := by
  rw [Maps.hashmapMerge, rep.valid.count, rep.valid.head]
  by_cases self : other = h
  · subst self
    rw [rep.mergeLoop_self (nil_append _).symm (nil_append _).symm rfl _ (Nat.le_refl _),
      rep.missing_self, append_nil, update_eq_self]
    exact rep.grows other ()
  · exact rep.mergeLoop_eq self (nil_append _).symm (nil_append _).symm rfl _
      (Nat.le_refl _)

omit [DecidableEq V] in
theorem moveEntry_eq (apart : other ≠ h)
    (located : Located s order A other e entry front back before behind)
    (equal : compareFunc entry.1 key = 0) (absent : Absent (sameKey compareFunc) entry.1 (A h)) :
    ∃ s', moveEntry s h other e key = (if (A h).length + 1 < 2 ^ 32 then some s' else none) ∧
      ((A h).length + 1 < 2 ^ 32 ->
        Represents compareFunc s'
          (update (update order other (front ++ back)) h (order h ++ [e]))
          (update (update A other (before ++ behind)) h (A h ++ [entry]))) := by
  have cells := unlinked_sameCells s other e (bucketOf (s.maps other) entry.1)
  have rep' := rep.unlinked located
  have cell : (Maps.unlinked s other e (bucketOf (s.maps other) entry.1)).cell e = some entry := by
    rw [cells.cell, located.cell]
  have same : update A other (before ++ behind) h = A h :=
    update_of_ne (Ne.symm apart) _ _
  have same' : update order other (front ++ back) h = order h :=
    update_of_ne (Ne.symm apart) _ _
  have linked := rep'.linked (h := h) cell (rep.detached located) (by rwa [same])
  rw [same, same'] at linked
  refine ⟨_, ?_, linked⟩
  rw [moveEntry, rep.unlinkEntry_eq located equal, bind_eq_bind, bind_some,
    rep'.linkEntry_eq cell, same, rep'.bucketOf_eq equal]

omit [DecidableEq M] [DecidableEq V] in
theorem scan_found (found : lookup (sameKey compareFunc) key (A h) = some entry) :
    ∃ e front back before behind, scan s h key = some (some e) ∧
      Located s order A h e entry front back before behind ∧ compareFunc entry.1 key = 0 := by
  obtain ⟨-, absent⟩ | ⟨e, entry', front, back, before, behind, scanned, located, equal⟩ :=
    rep.scan_cases h key
  · rw [lookup_of_absent absent] at found
    cases found
  · rw [rep.lookup_eq located equal] at found
    cases found
    exact ⟨e, front, back, before, behind, scanned, located, equal⟩

omit [DecidableEq M] [DecidableEq V] in
theorem scan_missing (absent : Absent (sameKey compareFunc) key (A h)) : scan s h key = some none := by
  obtain ⟨scanned, -⟩ | ⟨e, entry, front, back, before, behind, scanned, located, equal⟩ :=
    rep.scan_cases h key
  · exact scanned
  · have found := rep.lookup_eq located equal
    rw [lookup_of_absent absent] at found
    cases found

omit [DecidableEq V] in
theorem moveLoop_eq (apart : other ≠ h) (nodes : order other = front ++ back)
    (entries : A other = before ++ behind) (aligned : front.length = before.length) (fuel : Nat)
    (enough : back.length ≤ fuel) :
    Grows compareFunc ((moveLoop h other fuel back.head? s).map fun s => (s, ()))
      (update
        (update A other (before ++ present (sameKey compareFunc) (A h) behind)) h
        (A h ++ missing (sameKey compareFunc) (A h) behind)) h () := by
  induction back generalizing s order A front before behind fuel with
  | nil =>
    have nothing := rep.none_behind nodes entries aligned
    subst nothing
    have done : moveLoop h other fuel ([] : List Ptr).head? s = some s := by
      cases fuel <;> rfl
    rw [done, missing_nil, present_nil, ← entries, append_nil, update_eq_self,
      update_eq_self]
    exact rep.grows h ()
  | cons e back ih =>
    obtain ⟨entry, rest, rfl, located⟩ := rep.locate_at nodes entries aligned
    cases fuel with
    | zero => simp at enough
    | succ fuel =>
      have enough' : back.length ≤ fuel := by simpa using enough
      rw [head?_cons, moveLoop, located.cell]
      cases found : lookup (sameKey compareFunc) entry.1 (A h) with
      | some old =>
        obtain ⟨k, -, -, -, -, scanned, -⟩ := rep.scan_found found
        have continued := ih rep (nodes.trans (append_cons front e back))
          (entries.trans (append_cons before entry rest)) (by simp [aligned]) fuel enough'
        rw [missing_cons_found found, present_cons_found found, append_cons]
        simpa [scanned, rep.iterateNext_eq nodes] using continued
      | none =>
        have absent := lookup_eq_none.mp found
        have scanned := rep.scan_missing absent
        obtain ⟨s', result, rep'⟩ := rep.moveEntry_eq apart located
          ((rep.lawful other).equivalence.refl entry.1) absent
        rw [missing_cons_absent found, present_cons_absent found]
        by_cases fits : (A h).length + 1 < 2 ^ 32
        · have continued := ih (rep' fits)
            (by rw [update_of_ne apart, update_self])
            (by rw [update_of_ne apart, update_self]) aligned fuel enough'
          simp only [update_self, append_assoc, singleton_append,
            missing_concat (rep.distinct_behind located),
            present_concat (rep.distinct_behind located)] at continued
          rw [update_comm apart, update_idem, update_comm apart,
            update_idem, update_comm (Ne.symm apart)] at continued
          rw [if_pos fits] at result
          simpa [scanned, result, rep.iterateNext_eq nodes] using continued
        · refine ⟨?_, ?_⟩
          · intro small
            rw [update_self, length_append, length_cons] at small
            omega
          · rw [if_neg fits] at result
            simp [scanned, result]

omit [DecidableEq V] in
theorem moveLoop_self (nodes : order h = front ++ back) (entries : A h = before ++ behind)
    (aligned : front.length = before.length) (fuel : Nat) (enough : back.length ≤ fuel) :
    moveLoop h h fuel back.head? s = some s := by
  induction back generalizing front before behind fuel with
  | nil => cases fuel <;> rfl
  | cons e back ih =>
    obtain ⟨entry, rest, rfl, located⟩ := rep.locate_at nodes entries aligned
    cases fuel with
    | zero => simp at enough
    | succ fuel =>
      have found := rep.lookup_eq located ((rep.lawful h).equivalence.refl entry.1)
      obtain ⟨k, -, -, -, -, scanned, -⟩ := rep.scan_found found
      have continued := ih (nodes.trans (append_cons front e back))
        (entries.trans (append_cons before entry rest)) (by simp [aligned]) fuel
        (by simpa using enough)
      rw [head?_cons, moveLoop, located.cell]
      simpa [scanned, rep.iterateNext_eq nodes] using continued

omit [DecidableEq M] [DecidableEq V] in
theorem present_self (h : M) : present (sameKey compareFunc) (A h) (A h) = A h := by
  rw [present, filter_eq_self]
  intro entry mem
  have nothing := rep.missing_self h
  rw [missing, filter_eq_nil_iff] at nothing
  simpa [isSome_iff_ne_none] using nothing entry mem

omit [DecidableEq V] in
theorem hashmapMove (h other : M) :
    Grows compareFunc ((hashmapMove s h other).map fun s => (s, ()))
      (update
        (update A other (present (sameKey compareFunc) (A h) (A other))) h
        (A h ++ missing (sameKey compareFunc) (A h) (A other))) h () := by
  rw [Maps.hashmapMove, rep.valid.count, rep.valid.head]
  by_cases self : other = h
  · subst self
    rw [rep.moveLoop_self (nil_append _).symm (nil_append _).symm rfl _ (Nat.le_refl _),
      rep.missing_self, rep.present_self, append_nil, update_eq_self,
      update_eq_self]
    exact rep.grows other ()
  · exact rep.moveLoop_eq self (nil_append _).symm (nil_append _).symm rfl _
      (Nat.le_refl _)

omit [DecidableEq V] in
theorem hashmapMoveOne (h other : M) (key : K) :
    Grows compareFunc (hashmapMoveOne s h other key)
      (expectedMoveOne (sameKey compareFunc) h other key A).1 h
      (expectedMoveOne (sameKey compareFunc) h other key A).2 := by
  rw [Maps.hashmapMoveOne, expectedMoveOne]
  cases found : lookup (sameKey compareFunc) key (A h) with
  | some old =>
    obtain ⟨k, -, -, -, -, scanned, -⟩ := rep.scan_found found
    rw [scanned]
    exact rep.grows h _
  | none =>
    have absent := lookup_eq_none.mp found
    rw [rep.scan_missing absent]
    cases found' : lookup (sameKey compareFunc) key (A other) with
    | none =>
      simp only [bind_eq_bind, bind_some,
        rep.scan_missing (lookup_eq_none.mp found')]
      exact rep.grows h _
    | some entry =>
      obtain ⟨e, front, back, before, behind, scanned, located, equal⟩ := rep.scan_found found'
      have apart : other ≠ h := by
        rintro rfl
        rw [found] at found'
        cases found'
      have law := (rep.lawful h).equivalence
      have absent' : Absent (sameKey compareFunc) entry.1 (A h) := by
        intro twin mem
        have other := absent twin mem
        rw [sameKey, beq_eq_false_iff_ne] at other ⊢
        exact fun clash => other (law.trans clash equal)
      obtain ⟨s', result, rep'⟩ := rep.moveEntry_eq apart located equal absent'
      simp only [bind_eq_bind, bind_some, scanned, result,
        rep.erase_eq located equal]
      rw [Grows, update_self, length_append, length_singleton]
      constructor
      · intro fits
        refine ⟨s', _, ?_, rep' fits⟩
        rw [if_pos fits, bind_some]
      · intro large
        rw [if_neg large, bind_none]

section

omit [DecidableEq M] [DecidableEq V]

theorem hashmapSize (h : M) : hashmapSize s h = (A h).length := by
  rw [Maps.hashmapSize, rep.valid.count, rep.length_eq]

theorem iterateLoop_eq (nodes : order h = front ++ back) (entries : A h = before ++ behind)
    (aligned : front.length = before.length) (fuel : Nat) (enough : back.length ≤ fuel) :
    iterateLoop s fuel back.head? = some behind := by
  induction back generalizing front before behind fuel with
  | nil =>
    rw [rep.none_behind nodes entries aligned]
    cases fuel <;> rfl
  | cons e back ih =>
    obtain ⟨entry, rest, rfl, located⟩ := rep.locate_at nodes entries aligned
    cases fuel with
    | zero => simp at enough
    | succ fuel =>
      have continued := ih (nodes.trans (append_cons front e back))
        (entries.trans (append_cons before entry rest)) (by simp [aligned]) fuel
        (by simpa using enough)
      rw [head?_cons, iterateLoop, located.cell, rep.iterateNext_eq nodes, continued]
      rfl

theorem hashmapIterate (h : M) : hashmapIterate s h = some (A h) := by
  rw [Maps.hashmapIterate, rep.valid.head]
  refine rep.iterateLoop_eq (nil_append _).symm (nil_append _).symm rfl _ ?_
  exact Nat.le_of_eq ((rep.length_eq h).trans (rep.hashmapSize h).symm)

end

end

end Represents

end Systemd.Maps
