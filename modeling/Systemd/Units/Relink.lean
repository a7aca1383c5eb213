import Systemd.Units.Links

set_option autoImplicit false

namespace Systemd.Links

variable {U : Type}

def Clean (links : Links U) (other x : U) : Prop :=
  ∀ d, ¬ links.Linked d x other

/-- The units whose sets unit_merge rewrites. The second case is an entry of the merged unit for
itself, which is moved to the end of its set under the new name and met again there. -/
def Touched (links : Links U) (u other x : U) : Prop :=
  (∃ k, links.Linked k other x) ∨ (x = u ∧ ∃ k, links.Linked k other other)

def Origin (links : Links U) (u other : U) (d : UnitDependency) (x y : U) : Prop :=
  links.Linked d x y ∨ (y = u ∧ links.Linked d x other ∧ Touched links u other x)

variable [DecidableEq U]

def owner (u other : U) (moved : List UnitDependency) (d : UnitDependency) (x : U) : U :=
  if x = other ∧ d ∈ moved then u else x

structure Merging (start : Links U) (u other : U) (moved : List UnitDependency) (links : Links U) :
    Prop where
  origin : ∀ d x y, links.Linked d x y ->
    ∃ source, (source = x ∨ (source = other ∧ x = u)) ∧ Origin start u other d source y
  kept : ∀ d x y, start.Linked d x y ->
    links.Linked d (owner u other moved d x) y ∨
      (y = other ∧ links.Linked d (owner u other moved d x) u)
  clean : ∀ k ∈ moved, ∀ x, start.Linked k other x -> Clean links other x
  own : Clean links other other ∨
    ∀ k ∉ moved, start.Linked k other other -> links.Linked k other other
  mine : ∀ d, links.Linked d u other -> start.Linked d u other
  emptied : ∀ k ∈ moved, links other k = none

theorem Merging.start (links : Links U) (u other : U) : Merging links u other [] links where
  origin d x y linked := ⟨x, .inl rfl, .inl linked⟩
  kept d x y linked := .inl (by simpa [owner] using linked)
  clean k mem := by simp at mem
  own := .inr fun k _ linked => linked
  mine d linked := linked
  emptied k mem := by simp at mem

variable {u other back : U} {links start links' : Links U} {d : UnitDependency}
  {moved : List UnitDependency} {alive : U -> Bool} {fuel : Nat} {addReference : Bool}
  {allocates : AddAllocation -> Bool}

section

variable (distinct : u ≠ other)
include distinct

theorem clean_redirect (links : Links U) (back : U) :
    Clean (redirect u other links back) other back := by
  intro d linked
  rw [linked_redirect_same distinct] at linked
  rcases linked with ⟨-, same⟩ | ⟨same, -⟩
  · exact same rfl
  · exact distinct same.symm

theorem Clean.redirect {x : U} (clean : Clean links other x) :
    Clean (redirect u other links back) other x := by
  by_cases same : x = back
  · subst same
    exact clean_redirect distinct links x
  · intro d linked
    rw [linked_congr (redirect_elsewhere same links d)] at linked
    exact clean d linked

section

variable (merging : Merging start u other moved links)
include merging

theorem Merging.touched (mem : links.Linked d other back) : Touched start u other back := by
  obtain ⟨source, rfl | ⟨-, impossible⟩, linked | ⟨rfl, linked, -⟩⟩ := merging.origin d other back mem
  · exact .inl ⟨d, linked⟩
  · exact .inr ⟨rfl, d, linked⟩
  · exact absurd impossible.symm distinct
  · exact absurd impossible.symm distinct

theorem Merging.redirect (touched : Touched start u other back) :
    Merging start u other moved (redirect u other links back) where
  origin d x y linked := by
    by_cases same : x = back
    · subst same
      rw [linked_redirect_same distinct] at linked
      rcases linked with ⟨old, -⟩ | ⟨rfl, old⟩
      · exact merging.origin d x y old
      · obtain ⟨source, place, origin⟩ := merging.origin d x other old
        refine ⟨source, place, .inr ⟨rfl, ?_⟩⟩
        rcases origin with entry | ⟨impossible, -⟩
        · refine ⟨entry, ?_⟩
          rcases place with rfl | ⟨rfl, -⟩
          · exact touched
          · exact .inl ⟨d, entry⟩
        · exact absurd impossible.symm distinct
    · rw [linked_congr (redirect_elsewhere same links d)] at linked
      exact merging.origin d x y linked
  kept d x y linked := by
    have before := merging.kept d x y linked
    by_cases same : owner u other moved d x = back
    · rw [same] at before ⊢
      simp only [linked_redirect_same distinct]
      rcases before with here | ⟨rfl, renamed⟩
      · by_cases entry : y = other
        · subst entry
          exact .inr ⟨rfl, .inr ⟨trivial, here⟩⟩
        · exact .inl (.inl ⟨here, entry⟩)
      · exact .inr ⟨rfl, .inl ⟨renamed, distinct⟩⟩
    · simp only [linked_congr (redirect_elsewhere same links d)]
      exact before
  clean k mem x linked := (merging.clean k mem x linked).redirect distinct
  own := by
    by_cases same : other = back
    · subst same
      exact .inl (clean_redirect distinct links other)
    · rcases merging.own with clean | stays
      · exact .inl (clean.redirect distinct)
      · refine .inr fun k fresh linked => ?_
        rw [linked_congr (redirect_elsewhere same links k)]
        exact stays k fresh linked
  mine d linked := by
    by_cases same : u = back
    · subst same
      exact absurd linked (clean_redirect distinct links u d)
    · rw [linked_congr (redirect_elsewhere same links d)] at linked
      exact merging.mine d linked
  emptied k mem := by
    have before := merging.emptied k mem
    simp [Links.redirect, before]

theorem Merging.move (fresh : d ∉ moved) (clean : ∀ x, start.Linked d other x -> Clean links other x) :
    Merging start u other (moved ++ [d]) (moveLinks links u other d) := by
  -- The set that is moved has no entry for the merged unit itself.
  have foreign : ¬ links.Linked d other other := by
    intro linked
    obtain ⟨source, rfl | ⟨-, impossible⟩, entry | ⟨impossible', -⟩⟩ :=
      merging.origin d other other linked
    · exact clean source entry d linked
    · exact distinct impossible'.symm
    · exact distinct impossible.symm
    · exact distinct impossible'.symm
  have cleans : ∀ x, Clean links other x -> Clean (moveLinks links u other d) other x := by
    intro x tidy k linked
    rw [linked_moveLinks distinct] at linked
    split_ifs at linked with kind
    · rcases linked.2 with own | ⟨rfl, theirs⟩
      · exact tidy d own
      · exact foreign theirs
    · exact tidy k linked
  constructor
  · intro k x y linked
    rw [linked_moveLinks distinct] at linked
    split_ifs at linked with kind
    · subst kind
      rcases linked.2 with own | ⟨rfl, theirs⟩
      · exact merging.origin k x y own
      · obtain ⟨source, rfl | ⟨-, impossible⟩, origin⟩ := merging.origin k other y theirs
        · exact ⟨source, .inr ⟨rfl, rfl⟩, origin⟩
        · exact absurd impossible.symm distinct
    · exact merging.origin k x y linked
  · intro k x y linked
    have before := merging.kept k x y linked
    simp only [linked_moveLinks distinct]
    by_cases kind : k = d
    · subst kind
      by_cases same : x = other
      · subst same
        have now : owner u x (moved ++ [k]) k x = u := by simp [owner]
        have then' : owner u x moved k x = x := by simp [owner, fresh]
        rw [then'] at before
        rw [now]
        simp only [if_true, ne_eq, distinct, not_false_eq_true, true_and]
        rcases before with here | ⟨entry, renamed⟩
        · exact .inl (.inr here)
        · exact .inr ⟨entry, .inr renamed⟩
      · have now : owner u other (moved ++ [k]) k x = x := by simp [owner, same]
        have then' : owner u other moved k x = x := by simp [owner, same]
        rw [then'] at before
        rw [now]
        simp only [if_true, ne_eq, same, not_false_eq_true, true_and]
        rcases before with here | ⟨entry, renamed⟩
        · exact .inl (.inl here)
        · exact .inr ⟨entry, .inl renamed⟩
    · have same : owner u other (moved ++ [d]) k x = owner u other moved k x := by
        simp [owner, kind]
      rw [same]
      simpa [kind] using before
  · intro k mem x linked
    rcases List.mem_append.mp mem with old | new
    · exact cleans x (merging.clean k old x linked)
    · rw [List.mem_singleton] at new
      subst new
      exact cleans x (clean x linked)
  · rcases merging.own with tidy | stays
    · exact .inl (cleans other tidy)
    · refine .inr fun k later linked => ?_
      rw [List.mem_append, not_or, List.mem_singleton] at later
      rw [linked_moveLinks distinct, if_neg later.2]
      exact stays k later.1 linked
  · intro k linked
    rw [linked_moveLinks distinct] at linked
    split_ifs at linked with kind
    · subst kind
      rcases linked.2 with own | ⟨-, theirs⟩
      · exact merging.mine k own
      · exact absurd theirs foreign
    · exact merging.mine k linked
  · intro k mem
    by_cases kind : k = d
    · simp [moveLinks, kind]
    · have old : k ∈ moved := by simpa [kind] using mem
      simpa [moveLinks, kind] using merging.emptied k old

end

end

theorem keepsRest_redirect (links : Links U) (back : U) :
    KeepsRest (fun links => links other d) links (redirect u other links back) back := by
  intro current here front rest split
  simp only at here
  by_cases same : other = back
  · subst same
    have fresh : other ∉ front ∧ other ∉ rest := by
      have nodup := current.nodup
      rw [split, List.nodup_append, List.nodup_cons] at nodup
      refine ⟨fun mem => ?_, nodup.2.1.1⟩
      exact nodup.2.2 other mem other (by simp) rfl
    have removed : (current.remove other).members = front ++ rest := by
      have keepFront : front.filter (· ≠ other) = front := by
        rw [List.filter_eq_self]
        intro v mem
        simpa using fun same : v = other => fresh.1 (same ▸ mem)
      have keepRest : rest.filter (· ≠ other) = rest := by
        rw [List.filter_eq_self]
        intro v mem
        simpa using fun same : v = other => fresh.2 (same ▸ mem)
      simp only [OrderedSet.remove, split, List.filter_append, List.filter_cons, keepFront, keepRest]
      simp
    have mem : other ∈ current := by
      rw [OrderedSet.mem_def, split]
      simp
    refine ⟨replaceEntry other u current, front, ?_⟩
    by_cases present : u ∈ current
    · refine ⟨[], by simp [redirect, here], ?_⟩
      simp [replaceEntry, OrderedSet.removeAndPut, mem, present, removed]
    · have absent : u ∉ current.remove other := by simp [present]
      refine ⟨[u], by simp [redirect, here], ?_⟩
      simp [replaceEntry, OrderedSet.removeAndPut, mem, present,
        OrderedSet.put_members_of_fresh absent, removed]
  · refine ⟨current, front ++ [back], [], ?_, ?_⟩
    · simpa [redirect, same] using here
    · simp [split]

theorem Merging.dependencies (distinct : u ≠ other) (merging : Merging start u other moved links)
    (fresh : d ∉ moved) (run : mergeDependencies alive fuel u other links d = some links') :
    Merging start u other (moved ++ [d]) links' := by
  simp only [mergeDependencies, Option.bind_eq_bind, Option.bind_eq_some_iff,
    Option.some.injEq] at run
  obtain ⟨redirected, loop, rfl⟩ := run
  obtain ⟨after, all, still⟩ :=
    setForeach_spec (fun links x => Clean links other x) (by
        intro links current back links' merging here mem turn
        simp only [Option.ite_none_right_eq_some, Option.some.injEq] at turn
        obtain ⟨-, rfl⟩ := turn
        have touched := merging.touched distinct (d := d) ((linked_some here).mpr mem)
        exact ⟨merging.redirect distinct touched, clean_redirect distinct links back,
          fun x clean => clean.redirect distinct, keepsRest_redirect links back⟩)
      merging loop
  refine after.move distinct fresh ?_
  have seen : ∀ x, links.Linked d other x -> Clean redirected other x := by
    rintro x ⟨set, here, mem⟩
    exact all set here x mem
  intro x linked
  have notMoved : owner u other moved d other = other := by simp [owner, fresh]
  rcases merging.kept d other x linked with here | ⟨rfl, -⟩
  · rw [notMoved] at here
    exact seen x here
  · rcases merging.own with clean | stays
    · exact still x clean
    · exact seen x (stays d fresh linked)

theorem Merging.foldl (distinct : u ≠ other) (kinds moved : List UnitDependency) (links : Links U)
    (nodup : (moved ++ kinds).Nodup) (merging : Merging start u other moved links)
    (run : kinds.foldlM (mergeDependencies alive fuel u other) links = some links') :
    Merging start u other (moved ++ kinds) links' := by
  induction kinds generalizing moved links with
  | nil =>
    simp only [List.foldlM_nil, Option.pure_def, Option.some.injEq] at run
    subst run
    simpa using merging
  | cons d kinds ih =>
    simp only [List.foldlM_cons, Option.bind_eq_bind, Option.bind_eq_some_iff] at run
    obtain ⟨next, first, rest⟩ := run
    have fresh : d ∉ moved := by
      rw [List.nodup_append] at nodup
      exact fun mem => nodup.2.2 d mem d (by simp) rfl
    have shuffled : (moved ++ [d] ++ kinds).Nodup := by simpa using nodup
    simpa using ih (moved ++ [d]) next shuffled (merging.dependencies distinct fresh first) rest

theorem mergeAllDependencies_merging (distinct : u ≠ other)
    (run : mergeAllDependencies alive fuel u other links = some links') :
    Merging links u other UnitDependency.all links' :=
  Merging.foldl distinct UnitDependency.all [] links (by decide) (.start links u other) run

def rename (u other x : U) : U :=
  if x = other then u else x

def Mutual (links : Links U) : Prop :=
  ∀ d x y, links.Linked d x y -> ∃ k, links.Linked k y x

section

variable {start links : Links U} {u other : U}

variable {d : UnitDependency}

theorem Merging.source_ne (merging : Merging start u other UnitDependency.all links) {x y : U}
    (linked : links.Linked d x y) : x ≠ other := by
  rintro rfl
  exact linked_none (merging.emptied d d.mem_all) linked

theorem Merging.target_ne (merging : Merging start u other UnitDependency.all links)
    (mutual' : Mutual start) {x y : U} (linked : links.Linked d x y) : y ≠ other := by
  rintro rfl
  have old : start.Linked d x y := by
    obtain ⟨source, rfl | ⟨-, rfl⟩, entry | ⟨rfl, entry, -⟩⟩ := merging.origin d x y linked
    · exact entry
    · exact entry
    · exact merging.mine d linked
    · exact merging.mine d linked
  obtain ⟨k, back⟩ := mutual' d x y old
  exact merging.clean k k.mem_all x back d linked

theorem Merging.linked_iff (distinct : u ≠ other)
    (merging : Merging start u other UnitDependency.all links) (mutual' : Mutual start)
    (d : UnitDependency) (x y : U) :
    links.Linked d x y ↔
      ∃ x' y', rename u other x' = x ∧ rename u other y' = y ∧ start.Linked d x' y' := by
  constructor
  · intro linked
    have notSource := merging.source_ne linked
    have notTarget := merging.target_ne mutual' linked
    obtain ⟨source, place, origin⟩ := merging.origin d x y linked
    have from' : rename u other source = x := by
      rcases place with rfl | ⟨rfl, rfl⟩
      · simp [rename, notSource]
      · simp [rename]
    rcases origin with entry | ⟨rfl, entry, -⟩
    · exact ⟨source, y, from', by simp [rename, notTarget], entry⟩
    · exact ⟨source, other, from', by simp [rename], entry⟩
  · rintro ⟨x', y', rfl, rfl, linked⟩
    have place : owner u other UnitDependency.all d x' = rename u other x' := by
      simp [owner, rename, d.mem_all]
    rcases merging.kept d x' y' linked with here | ⟨rfl, renamed⟩
    · rw [place] at here
      have notTarget := merging.target_ne mutual' here
      simpa [rename, notTarget] using here
    · rw [place] at renamed
      simpa [rename] using renamed

end

def SameEntries (links links' : Links U) : Prop :=
  ∀ k x y, links'.Linked k x y ↔ links.Linked k x y

omit [DecidableEq U] in
theorem SameEntries.trans {links'' : Links U} (first : SameEntries links links')
    (second : SameEntries links' links'') : SameEntries links links'' :=
  fun k x y => (second k x y).trans (first k x y)

def Harmless (links : Links U) (outcome : Except (Links U) (Links U)) : Prop :=
  ∀ links', outcome = .ok links' ∨ outcome = .error links' -> SameEntries links links'

omit [DecidableEq U] in
theorem Harmless.ok (links : Links U) : Harmless links (.ok links) := by
  rintro links' (same | impossible)
  · cases same
    exact fun k x y => Iff.rfl
  · cases impossible

omit [DecidableEq U] in
theorem Harmless.bind {first : Except (Links U) (Links U)} {rest : Links U -> Except (Links U) (Links U)}
    (one : Harmless links first) (two : ∀ middle, Harmless middle (rest middle)) :
    Harmless links (first >>= rest) := by
  intro links' run
  cases first with
  | error left =>
    refine one links' (.inr ?_)
    rcases run with impossible | same
    · cases impossible
    · exact same
  | ok middle => exact (one middle (.inl rfl)).trans (two middle links' run)

theorem setEnsureAllocated_harmless (allocates : Bool) (links : Links U) (u : U)
    (d : UnitDependency) : Harmless links (setEnsureAllocated allocates links u d) := by
  unfold setEnsureAllocated
  cases here : links u d with
  | some set => exact .ok links
  | none =>
    cases allocates with
    | false =>
      rintro links' (impossible | same)
      · cases impossible
      · cases same
        exact fun k x y => Iff.rfl
    | true =>
      rintro links' (same | impossible)
      · cases same
        intro k x y
        by_cases place : x = u ∧ k = d
        · obtain ⟨rfl, rfl⟩ := place
          rw [linked_assign_same]
          simp [linked_none here]
        · exact linked_assign_other place y
      · cases impossible

theorem prepareSets_harmless (allocates : AddAllocation -> Bool) (links : Links U) (u : U)
    (d : UnitDependency) (other : U) (addReference : Bool) :
    Harmless links (prepareSets allocates links u d other addReference) := by
  refine (setEnsureAllocated_harmless _ links u d).bind fun links1 => .bind ?_ fun links2 => ?_
  · unfold ensureInverse
    cases d.inverse with
    | none => exact .ok links1
    | some e => exact setEnsureAllocated_harmless _ links1 other e
  · cases addReference with
    | false => exact .ok links2
    | true =>
      exact (setEnsureAllocated_harmless _ links2 u _).bind fun links3 =>
        setEnsureAllocated_harmless _ links3 other _

def OneMore (links links' : Links U) (d : UnitDependency) (u other : U) : Prop :=
  ∀ k x y, links'.Linked k x y ↔ links.Linked k x y ∨ (k = d ∧ x = u ∧ y = other)

theorem putLink_spec {allocates new : Bool}
    (run : putLink allocates links u d other = some (links', new)) :
    OneMore links links' d u other ∧ (new = true ↔ ¬ links.Linked d u other) := by
  unfold putLink at run
  cases here : links u d with
  | none => simp [here] at run
  | some set =>
    simp only [here] at run
    split_ifs at run with mem
    · simp only [Option.some.injEq, Prod.mk.injEq] at run
      obtain ⟨rfl, rfl⟩ := run
      have linked : links.Linked d u other := (linked_some here).mpr mem
      refine ⟨?_, by simp [linked]⟩
      intro k x y
      constructor
      · exact .inl
      · rintro (old | ⟨rfl, rfl, rfl⟩)
        · exact old
        · exact linked
    · simp only [Option.some.injEq, Prod.mk.injEq] at run
      obtain ⟨rfl, rfl⟩ := run
      refine ⟨?_, by simp [linked_some here, mem]⟩
      intro k x y
      by_cases place : x = u ∧ k = d
      · obtain ⟨rfl, rfl⟩ := place
        simp [linked_assign_same, linked_some here]
      · rw [linked_assign_other place]
        have elsewhere : ¬ (k = d ∧ x = u ∧ y = other) := fun ⟨kind, unit, _⟩ => place ⟨unit, kind⟩
        simp [elsewhere]

theorem linked_undoLink (new : Bool) (links : Links U) (u other : U) (d k : UnitDependency) (x y : U) :
    (undoLink new links u d other).Linked k x y ↔
      links.Linked k x y ∧ ¬ (new = true ∧ k = d ∧ x = u ∧ y = other) := by
  unfold undoLink
  cases new with
  | false => simp
  | true =>
    simp only [if_true, true_and, removeLink]
    by_cases place : x = u ∧ k = d
    · obtain ⟨rfl, rfl⟩ := place
      cases here : links x k with
      | none => simp [Linked, assign, here]
      | some set => simp [Linked, assign, here]
    · rw [linked_assign_other place]
      have elsewhere : ¬ (k = d ∧ x = u ∧ y = other) := by
        rintro ⟨kind, unit, _⟩
        exact place ⟨unit, kind⟩
      simp [elsewhere]

def Asked (u : U) (d : UnitDependency) (other : U) (addReference : Bool)
    (k : UnitDependency) (x y : U) : Prop :=
  (k = d ∧ x = u ∧ y = other) ∨ (d.inverse = some k ∧ x = other ∧ y = u) ∨
    (addReference = true ∧
      ((k = .references ∧ x = u ∧ y = other) ∨ (k = .referencedBy ∧ x = other ∧ y = u)))

theorem putInverse_spec {allocates new : Bool}
    (run : putInverse allocates links u d other = some (links', new)) :
    (∀ k x y, links'.Linked k x y ↔
      links.Linked k x y ∨ (d.inverse = some k ∧ x = other ∧ y = u)) ∧
    (∀ k, d.inverse = some k -> (new = true ↔ ¬ links.Linked k other u)) := by
  unfold putInverse at run
  cases kind : d.inverse with
  | none =>
    simp only [kind, Option.some.injEq, Prod.mk.injEq] at run
    obtain ⟨rfl, -⟩ := run
    simp
  | some e =>
    simp only [kind] at run
    obtain ⟨more, fresh⟩ := putLink_spec run
    constructor
    · intro k x y
      rw [more k x y, Option.some.injEq, eq_comm (a := k)]
    · intro k same
      cases same
      exact fresh

theorem linked_undoInverse (new : Bool) (links : Links U) (u other : U) (d k : UnitDependency)
    (x y : U) :
    (undoInverse new links u d other).Linked k x y ↔
      links.Linked k x y ∧ ¬ (new = true ∧ d.inverse = some k ∧ x = other ∧ y = u) := by
  unfold undoInverse
  cases kind : d.inverse with
  | none => simp
  | some e => simp only [linked_undoLink, Option.some.injEq, eq_comm (a := k)]

theorem putAll_spec :
    (∀ links', putAll allocates links u d other addReference = .ok links' ->
      ∀ k x y, links'.Linked k x y ↔
        links.Linked k x y ∨ Asked u d other addReference k x y) ∧
    (∀ links', putAll allocates links u d other addReference = .error links' ->
      SameEntries links links') := by
  unfold putAll
  cases first : putLink (allocates .ownEntry) links u d other with
  | none =>
    refine ⟨by simp, ?_⟩
    rintro links' same
    cases same
    exact fun k x y => Iff.rfl
  | some put1 =>
    obtain ⟨links1, q⟩ := put1
    obtain ⟨more1, fresh1⟩ := putLink_spec first
    simp only
    cases second : putInverse (allocates .inverseEntry) links1 u d other with
    | none =>
      refine ⟨by simp, ?_⟩
      rintro links' same
      cases same
      intro k x y
      rw [linked_undoLink, more1]
      grind
    | some put2 =>
      obtain ⟨links2, v⟩ := put2
      obtain ⟨more2, fresh2⟩ := putInverse_spec second
      cases addReference with
      | false =>
        refine ⟨?_, by simp⟩
        intro links' same
        simp only [Bool.false_eq_true, if_false, Except.ok.injEq] at same
        subst same
        intro k x y
        rw [more2, more1]
        simp [Asked, or_assoc]
      | true =>
        simp only [if_true]
        cases third : putLink (allocates .referencesEntry) links2 u .references other with
        | none =>
          refine ⟨by simp, ?_⟩
          rintro links' same
          cases same
          intro k x y
          rw [linked_undoInverse, linked_undoLink, more2, more1]
          have known := fresh2 k
          rw [more1] at known
          grind
        | some put3 =>
          obtain ⟨links3, w⟩ := put3
          obtain ⟨more3, fresh3⟩ := putLink_spec third
          simp only
          cases fourth : putLink (allocates .referencedByEntry) links3 other .referencedBy u with
          | none =>
            refine ⟨by simp, ?_⟩
            rintro links' same
            cases same
            intro k x y
            rw [linked_undoLink, linked_undoInverse, linked_undoLink, more3, more2, more1]
            have known := fresh2 k
            rw [more1] at known
            rw [more2, more1] at fresh3
            grind
          | some put4 =>
            obtain ⟨links4, new⟩ := put4
            obtain ⟨more4, -⟩ := putLink_spec fourth
            refine ⟨?_, by simp⟩
            rintro links' same
            cases same
            intro k x y
            rw [more4, more3, more2, more1]
            simp [Asked, or_assoc]

theorem addDependency_ok (run : addDependency allocates links u d other addReference = .ok links')
    (k : UnitDependency) (x y : U) :
    links'.Linked k x y ↔ links.Linked k x y ∨ Asked u d other addReference k x y := by
  unfold addDependency at run
  cases first : prepareSets allocates links u d other addReference with
  | error left =>
    rw [first] at run
    cases run
  | ok middle =>
    rw [first] at run
    have same := prepareSets_harmless allocates links u d other addReference middle (.inl first)
    rw [putAll_spec.1 links' run k x y, same k x y]

theorem addDependency_error
    (run : addDependency allocates links u d other addReference = .error links') :
    SameEntries links links' := by
  unfold addDependency at run
  cases first : prepareSets allocates links u d other addReference with
  | error left =>
    rw [first] at run
    cases run
    exact prepareSets_harmless allocates links u d other addReference links' (.inr first)
  | ok middle =>
    rw [first] at run
    have same := prepareSets_harmless allocates links u d other addReference middle (.inl first)
    exact same.trans (putAll_spec.2 links' run)

structure Freeing (start : Links U) (u : U) (links : Links U) : Prop where
  old : ∀ k x y, links.Linked k x y -> start.Linked k x y
  kept : ∀ k x y, start.Linked k x y -> y ≠ u -> links.Linked k x y

theorem linked_dropBack (u : U) (links : Links U) (other : U) (k : UnitDependency) (x y : U) :
    (dropBack u links other).Linked k x y ↔ links.Linked k x y ∧ ¬ (x = other ∧ y = u) := by
  by_cases same : x = other
  · subst same
    cases here : links x k with
    | none => simp [Linked, dropBack, here]
    | some set => simp [Linked, dropBack, here]
  · simp [Linked, dropBack, same]

theorem Freeing.dropBack (freeing : Freeing start u links) (other : U) :
    Freeing start u (dropBack u links other) where
  old k x y linked := by
    rw [linked_dropBack] at linked
    exact freeing.old k x y linked.1
  kept k x y linked foreign := by
    rw [linked_dropBack]
    exact ⟨freeing.kept k x y linked foreign, fun entry => foreign entry.2⟩

theorem keepsRest_dropBack (links : Links U) (other : U) :
    KeepsRest (fun links => links u d) links (dropBack u links other) other := by
  intro current here front rest split
  simp only at here
  by_cases same : u = other
  · subst same
    refine ⟨current.remove u, front.filter (· ≠ u), [], by simp [Links.dropBack, here], ?_⟩
    have fresh : u ∉ rest := by
      have nodup := current.nodup
      rw [split, List.nodup_append, List.nodup_cons] at nodup
      exact nodup.2.1.1
    have keepRest : rest.filter (· ≠ u) = rest := by
      rw [List.filter_eq_self]
      intro v mem
      simpa using fun same : v = u => fresh (same ▸ mem)
    simp only [OrderedSet.remove, split, List.filter_append, List.filter_cons, keepRest]
    simp
  · refine ⟨current, front ++ [other], [], ?_, ?_⟩
    · simpa [Links.dropBack, same] using here
    · simp [split]

theorem Freeing.bidiSetFree (freeing : Freeing start u links)
    (run : bidiSetFree alive fuel u links d = some links') :
    Freeing start u links' ∧
      (∀ x, start.Linked d u x -> x ≠ u -> Clean links' u x) ∧
      (∀ x, Clean links u x -> Clean links' u x) := by
  obtain ⟨after, all, still⟩ :=
    setForeach_spec (fun links x => Clean links u x) (by
      intro links current other links' freeing _ _ turn
      split_ifs at turn
      cases turn
      refine ⟨freeing.dropBack other, ?_, ?_, keepsRest_dropBack links other⟩
      · intro k linked
        rw [linked_dropBack] at linked
        exact linked.2 ⟨rfl, rfl⟩
      · intro x clean k linked
        rw [linked_dropBack] at linked
        exact clean k linked.1) freeing run
  refine ⟨after, ?_, still⟩
  intro x linked foreign
  obtain ⟨set, here, mem⟩ := freeing.kept d u x linked foreign
  exact all set here x mem

theorem Freeing.foldl (kinds : List UnitDependency) (links : Links U) (freeing : Freeing start u links)
    (run : kinds.foldlM (Links.bidiSetFree alive fuel u) links = some links') :
    Freeing start u links' ∧
      (∀ d ∈ kinds, ∀ x, start.Linked d u x -> x ≠ u -> Clean links' u x) ∧
      (∀ x, Clean links u x -> Clean links' u x) := by
  induction kinds generalizing links with
  | nil =>
    simp only [List.foldlM_nil, Option.pure_def, Option.some.injEq] at run
    subst run
    exact ⟨freeing, by simp, fun _ clean => clean⟩
  | cons d kinds ih =>
    simp only [List.foldlM_cons, Option.bind_eq_bind, Option.bind_eq_some_iff] at run
    obtain ⟨next, first, rest⟩ := run
    obtain ⟨freeing', seen, still⟩ := freeing.bidiSetFree first
    obtain ⟨final, later, kept⟩ := ih next freeing' rest
    refine ⟨final, ?_, fun x clean => kept x (still x clean)⟩
    intro k mem x linked foreign
    rcases List.mem_cons.mp mem with rfl | mem
    · exact kept x (seen x linked foreign)
    · exact later k mem x linked foreign

theorem freeAllDependencies_old (run : freeAllDependencies alive fuel u links = some links')
    {k : UnitDependency} {x y : U} (linked : links'.Linked k x y) : links.Linked k x y := by
  simp only [freeAllDependencies, Option.bind_eq_bind, Option.bind_eq_some_iff,
    Option.some.injEq] at run
  obtain ⟨freed, loop, rfl⟩ := run
  obtain ⟨freeing, -, -⟩ :=
    Freeing.foldl UnitDependency.all links ⟨fun _ _ _ linked => linked, fun _ _ _ linked _ => linked⟩ loop
  by_cases same : x = u
  · simp [Linked, same] at linked
  · exact freeing.old k x y ((linked_congr (by simp [same]) y).mp linked)

theorem freeAllDependencies_linked (mutual' : Mutual links)
    (run : freeAllDependencies alive fuel u links = some links') (k : UnitDependency) (x y : U) :
    links'.Linked k x y ↔ links.Linked k x y ∧ x ≠ u ∧ y ≠ u := by
  simp only [freeAllDependencies, Option.bind_eq_bind, Option.bind_eq_some_iff,
    Option.some.injEq] at run
  obtain ⟨freed, loop, rfl⟩ := run
  obtain ⟨freeing, seen, -⟩ :=
    Freeing.foldl UnitDependency.all links ⟨fun _ _ _ linked => linked, fun _ _ _ linked _ => linked⟩ loop
  by_cases same : x = u
  · simp [Linked, same]
  · have shown : Linked (fun v k => if v = u then none else freed v k) k x y ↔ freed.Linked k x y := by
      simp [Linked, same]
    rw [shown]
    constructor
    · intro linked
      refine ⟨freeing.old k x y linked, same, ?_⟩
      rintro rfl
      obtain ⟨d, back⟩ := mutual' k x y (freeing.old k x y linked)
      exact seen d d.mem_all x back same k linked
    · rintro ⟨linked, -, foreign⟩
      exact freeing.kept k x y linked foreign

end Systemd.Links
