import Mathlib.Data.List.Induction
import Systemd.Services.EnvironmentWords
import Systemd.Shared.Association

set_option autoImplicit false

namespace Systemd.CommandLine

open List Option

-- What env_append compares of an entry: its name with the equals sign behind it, if there is one.
def envAppendLength (a : CString) : Nat :=
  let n := (a.bytes.takeWhile (· ≠ equalsSign)).length
  if a.bytes[n]? = some equalsSign then n + 1 else n

def overrides (a j : CString) : Bool :=
  j.bytes.take (envAppendLength a) = a.bytes.take (envAppendLength a)

def envAppend (r a : List CString) : List CString :=
  a.foldl (fun r a => replaceFirst (overrides a) a r) r

def strvEnvMerge (lists : List (List CString)) : List CString :=
  lists.foldl envAppend []

def strvEnvGet (l : List CString) (name : List UInt8) : Option CString :=
  strvEnvGetWithLength l name

def variableName (entry : CString) : List UInt8 :=
  entry.bytes.takeWhile (· ≠ equalsSign)

def Assigns (name : List UInt8) (entry : CString) : Prop :=
  name ++ [equalsSign] <+: entry.bytes

instance (name : List UInt8) (entry : CString) : Decidable (Assigns name entry) :=
  inferInstanceAs (Decidable (_ <+: _))

def Bare (entry : CString) : Prop :=
  equalsSign ∉ entry.bytes

def KeepsLast (entries result : List CString) : Prop :=
  ∀ name, equalsSign ∉ name -> ∀ last, (entries.filter (Assigns name ·)).getLast? = some last ->
    result.filter (Assigns name ·) = [last] ∧
    strvEnvGet result name = some (.ofBuffer (last.bytes.drop (name.length + 1)))

def DisplacesOwn (entries : List CString) : Prop :=
  ∀ front entry back, entries = front ++ entry :: back ->
    ∀ displaced, (envAppend [] front).find? (overrides entry) = some displaced ->
      variableName displaced = variableName entry

/-- The first entry that begins with a bare name is about that variable, and where the variable is
assigned at all, it is so behind the first time that the bare name occurs. -/
def BareHarmless (entries : List CString) : Prop :=
  ∀ entry ∈ entries, Bare entry ->
    (∃ first, entries.find? (entry.bytes.isPrefixOf ·.bytes) = some first ∧
      variableName first = entry.bytes) ∧
    ((∃ assignment ∈ entries, Assigns entry.bytes assignment) ->
      ∃ assignment ∈ (entries.dropWhile (· ≠ entry)).tail, Assigns entry.bytes assignment)

variable {entry : CString} {text name : List UInt8} {entries back front : List CString}

theorem entry_split (assigned : ¬ Bare entry) :
    ∃ value, entry.bytes = variableName entry ++ equalsSign :: value := by
  have sign : equalsSign ∈ entry.bytes := not_not.mp assigned
  cases rest : entry.bytes.dropWhile (· ≠ equalsSign) with
  | nil =>
    have plain := dropWhile_eq_nil_iff.mp rest equalsSign sign
    simp at plain
  | cons first value =>
    have head : first = equalsSign := by
      have stops := head?_dropWhile_not (· ≠ equalsSign) entry.bytes
      rw [rest] at stops
      simpa using stops
    have joined := takeWhile_append_dropWhile (p := (· ≠ equalsSign)) (l := entry.bytes)
    rw [rest, head] at joined
    exact ⟨value, joined.symm⟩

theorem variableName_plain (entry : CString) : equalsSign ∉ variableName entry := by
  intro mem
  simpa using mem_takeWhile_imp mem

theorem takeWhile_plain (plain : equalsSign ∉ text) : text.takeWhile (· ≠ equalsSign) = text := by
  apply takeWhile_eq_self_iff.mpr
  intro byte mem
  have other : byte ≠ equalsSign := fun same => plain (same ▸ mem)
  simpa using other

theorem variableName_bare (bare : Bare entry) : variableName entry = entry.bytes :=
  takeWhile_plain bare

theorem takeWhile_before {rest : List UInt8} (plain : equalsSign ∉ name) :
    (name ++ equalsSign :: rest).takeWhile (· ≠ equalsSign) = name := by
  have all : ∀ byte ∈ name, decide (byte ≠ equalsSign) = true :=
    takeWhile_eq_self_iff.mp (takeWhile_plain plain)
  rw [takeWhile_append_of_pos all]
  simp

theorem assigns_iff (plain : equalsSign ∉ name) (entry : CString) :
    Assigns name entry ↔ variableName entry = name ∧ ¬ Bare entry := by
  constructor
  next =>
    rintro ⟨value, bytes⟩
    have whole : entry.bytes = name ++ equalsSign :: value := by simpa using bytes.symm
    rw [variableName, Bare, whole, takeWhile_before plain]
    simp
  next =>
    rintro ⟨rfl, assigned⟩
    obtain ⟨value, bytes⟩ := entry_split assigned
    exact ⟨value, by simp [bytes.symm]⟩

theorem prefix_iff_variableName (plain : equalsSign ∉ text) (entry : CString) :
    text <+: entry.bytes ↔ text <+: variableName entry := by
  constructor
  next =>
    rintro ⟨rest, bytes⟩
    refine ⟨rest.takeWhile (· ≠ equalsSign), ?_⟩
    have all : ∀ byte ∈ text, decide (byte ≠ equalsSign) = true :=
      takeWhile_eq_self_iff.mp (takeWhile_plain plain)
    rw [variableName, ← bytes, takeWhile_append_of_pos all]
  next =>
    intro within
    exact within.trans (List.takeWhile_prefix _)

theorem envAppendLength_bare (bare : Bare entry) : envAppendLength entry = entry.bytes.length := by
  have whole : entry.bytes.takeWhile (· ≠ equalsSign) = entry.bytes := takeWhile_plain bare
  unfold envAppendLength
  rw [whole]
  simp

theorem envAppendLength_assigned (assigned : ¬ Bare entry) :
    envAppendLength entry = (variableName entry).length + 1 := by
  obtain ⟨value, bytes⟩ := entry_split assigned
  have sign : entry.bytes[(variableName entry).length]? = some equalsSign := by
    conv_lhs => rw [bytes]
    simp
  exact if_pos sign

theorem overrides_bare (bare : Bare entry) (other : CString) :
    overrides entry other = true ↔ entry.bytes <+: other.bytes := by
  rw [overrides, envAppendLength_bare bare, decide_eq_true_iff, take_length,
    prefix_iff_eq_take, eq_comm]

theorem overrides_assigned (assigned : ¬ Bare entry) (other : CString) :
    overrides entry other = true ↔ Assigns (variableName entry) other := by
  obtain ⟨value, bytes⟩ := entry_split assigned
  have compared : entry.bytes.take ((variableName entry).length + 1) =
      variableName entry ++ [equalsSign] := by
    conv_lhs => rw [bytes]
    simp [take_append, take_of_length_le]
  rw [overrides, envAppendLength_assigned assigned, compared, decide_eq_true_iff, Assigns,
    prefix_iff_eq_take, eq_comm]
  simp

theorem overrides_names {other : CString} (assigned : ¬ Bare entry)
    (matched : overrides entry other = true) : variableName other = variableName entry := by
  rw [overrides_assigned assigned, assigns_iff (variableName_plain entry)] at matched
  exact matched.1

theorem assigns_iff_take (name : List UInt8) (entry : CString) :
    Assigns name entry ↔
      entry.bytes.take name.length = name ∧ entry.bytes[name.length]? = some equalsSign := by
  constructor
  next =>
    rintro ⟨value, bytes⟩
    simp [← bytes]
  next =>
    rintro ⟨front, sign⟩
    obtain ⟨within, its⟩ := List.getElem?_eq_some_iff.mp sign
    have back := drop_eq_getElem_cons within
    rw [its] at back
    refine ⟨entry.bytes.drop (name.length + 1), ?_⟩
    conv_rhs => rw [← take_append_drop name.length entry.bytes, front, back]
    simp

theorem strvEnvGet_filter (l : List CString) (name : List UInt8) :
    strvEnvGet l name = (l.filter (Assigns name ·)).head?.map fun entry =>
      .ofBuffer (entry.bytes.drop (name.length + 1)) := by
  rw [head?_filter, strvEnvGet, strvEnvGetWithLength]
  congr 2
  funext entry
  rw [Bool.eq_iff_iff, decide_eq_true_iff, assigns_iff_take, Bool.and_eq_true, decide_eq_true_iff,
    decide_eq_true_iff]
  rfl

theorem envAppend_snoc (r entries : List CString) (entry : CString) :
    envAppend r (entries ++ [entry]) = replaceFirst (overrides entry) entry (envAppend r entries) := by
  rw [envAppend, envAppend, foldl_append]
  rfl

theorem displacesOwn_snoc (front : List CString) (entry : CString) :
    DisplacesOwn (front ++ [entry]) ↔ DisplacesOwn front ∧
      ∀ displaced, (envAppend [] front).find? (overrides entry) = some displaced ->
        variableName displaced = variableName entry := by
  constructor
  next =>
    intro own
    refine ⟨fun before other back split => ?_, own front entry [] rfl⟩
    exact own before other (back ++ [entry]) (by simp [split])
  next =>
    rintro ⟨own, last⟩ before other back split
    cases back using List.reverseRecOn with
    | nil =>
      obtain ⟨rfl, same⟩ := append_inj' split rfl
      obtain rfl : entry = other := by simpa using same
      exact last
    | append_singleton back final =>
      rw [← cons_append, ← append_assoc] at split
      exact own before other back (append_inj' split rfl).1

theorem names_first (own : DisplacesOwn entries) (text : List UInt8) :
    ((envAppend [] entries).map variableName).find? (text.isPrefixOf ·) =
      (entries.map variableName).find? (text.isPrefixOf ·) := by
  induction entries using List.reverseRecOn with
  | nil => rfl
  | append_singleton front entry ih =>
    obtain ⟨own, last⟩ := (displacesOwn_snoc front entry).mp own
    rw [envAppend_snoc, replaceFirst_names variableName last, map_append, find?_append,
      ← ih own]
    cases search : (envAppend [] front).find? (overrides entry) with
    | none => simp [find?_append]
    | some displaced =>
      have present : variableName entry ∈ (envAppend [] front).map variableName :=
        mem_map.mpr ⟨displaced, mem_of_find?_eq_some search, last displaced search⟩
      cases found : ((envAppend [] front).map variableName).find? (text.isPrefixOf ·) with
      | some name => simp [found]
      | none =>
        have other := find?_eq_none.mp found _ present
        simp [found, other]

theorem first_iff (plain : equalsSign ∉ text) (entries : List CString) :
    (entries.map variableName).find? (text.isPrefixOf ·) =
      (entries.find? (text.isPrefixOf ·.bytes)).map variableName := by
  rw [find?_map]
  congr 2
  funext entry
  rw [Bool.eq_iff_iff]
  simpa using (prefix_iff_variableName plain entry).symm

theorem displaced_name (bare : Bare entry) (r : List CString) :
    (r.find? (overrides entry)).map variableName =
      (r.map variableName).find? (entry.bytes.isPrefixOf ·) := by
  rw [first_iff bare]
  congr 2
  funext other
  rw [Bool.eq_iff_iff, overrides_bare bare, isPrefixOf_iff_prefix]

theorem displacesOwn_iff (entries : List CString) :
    DisplacesOwn entries ↔ ∀ entry ∈ entries, Bare entry ->
      (entries.map variableName).find? (entry.bytes.isPrefixOf ·) = some entry.bytes := by
  constructor
  next =>
    intro own entry mem bare
    obtain ⟨front, back, rfl⟩ := append_of_mem mem
    have before : DisplacesOwn front := fun first other rest split =>
      own first other (rest ++ entry :: back) (by simp [split])
    have found := displaced_name bare (envAppend [] front)
    rw [names_first before] at found
    rw [map_append, find?_append, ← found]
    cases search : (envAppend [] front).find? (overrides entry) with
    | none => simp [variableName_bare bare]
    | some displaced =>
      simp [own front entry back rfl displaced search, variableName_bare bare]
  next =>
    intro first
    have each : ∀ front back, entries = front ++ back -> DisplacesOwn front := by
      intro front
      induction front using List.reverseRecOn with
      | nil => exact fun back _ before other rest split => by simp at split
      | append_singleton front entry ih =>
        intro back split
        have own := ih (entry :: back) (by simp [split])
        refine (displacesOwn_snoc front entry).mpr ⟨own, fun displaced search => ?_⟩
        by_cases bare : Bare entry
        next =>
          have found := displaced_name bare (envAppend [] front)
          rw [names_first own, search, map_some] at found
          have whole := first entry (by simp [split]) bare
          rw [split, append_assoc, map_append, find?_append, ← found,
            some_or] at whole
          rw [variableName_bare bare]
          exact some.inj whole
        next => exact overrides_names bare (find?_some search)
    exact each entries [] (by simp)

theorem envAppend_filter (own : DisplacesOwn entries) (name : List UInt8) :
    (envAppend [] entries).filter (variableName · = name) =
      envAppend [] (entries.filter (variableName · = name)) := by
  induction entries using List.reverseRecOn with
  | nil => rfl
  | append_singleton front entry ih =>
    obtain ⟨own, last⟩ := (displacesOwn_snoc front entry).mp own
    rw [envAppend_snoc, replaceFirst_filter variableName name last, filter_append, ih own]
    by_cases its : variableName entry = name
    next => simp [its, envAppend_snoc]
    next => simp [its]

theorem envAppend_assignments (all : ∀ entry ∈ entries, variableName entry = name ∧ ¬ Bare entry) :
    envAppend [] entries = entries.getLast?.toList := by
  induction entries using List.reverseRecOn with
  | nil => rfl
  | append_singleton front entry ih =>
    have before := fun other mem => all other (mem_append_left [entry] mem)
    obtain ⟨its, assigned⟩ := all entry (by simp)
    rw [envAppend_snoc, ih before, getLast?_concat]
    cases last : front.getLast? with
    | none => rfl
    | some previous =>
      obtain ⟨same, more⟩ := before previous (mem_of_getLast? last)
      have matched : overrides entry previous = true :=
        (overrides_assigned assigned previous).mpr
          ((assigns_iff (variableName_plain entry) previous).mpr ⟨same.trans its.symm, more⟩)
      simp [replaceFirst, matched]

theorem envAppend_bare (bare : Bare entry)
    (before : ∀ other ∈ front, variableName other = entry.bytes ∧ ¬ Bare other)
    (after : ∀ other ∈ back, variableName other = entry.bytes) :
    envAppend [] (front ++ entry :: back) =
      entry :: (back.filter (Assigns entry.bytes ·)).getLast?.toList := by
  induction back using List.reverseRecOn with
  | nil =>
    rw [envAppend_snoc, envAppend_assignments before]
    cases last : front.getLast? with
    | none => rfl
    | some previous =>
      have named := (before previous (mem_of_getLast? last)).1
      have within : entry.bytes <+: previous.bytes := by
        rw [prefix_iff_variableName bare]
        exact named.symm ▸ prefix_rfl
      simp [replaceFirst, (overrides_bare bare previous).mpr within]
  | append_singleton back other ih =>
    have its := after other (by simp)
    rw [← cons_append, ← append_assoc, envAppend_snoc,
      ih fun one mem => after one (mem_append_left [other] mem), filter_append]
    by_cases plain : Bare other
    next =>
      obtain rfl : other = entry := CString.eq_of_bytes ((variableName_bare plain).symm.trans its)
      have none : ¬ Assigns other.bytes other := fun assigned =>
        ((assigns_iff plain other).mp assigned).2 plain
      simp [replaceFirst, (overrides_bare plain other).mpr prefix_rfl, none]
    next =>
      have assigned : Assigns entry.bytes other := (assigns_iff bare other).mpr ⟨its, plain⟩
      have apart : overrides other entry = false := by
        rw [Bool.eq_false_iff, Ne, overrides_assigned plain, its, assigns_iff bare]
        exact fun both => both.2 bare
      cases last : (back.filter (Assigns entry.bytes ·)).getLast? with
      | none => simp [replaceFirst, apart, assigned]
      | some previous =>
        have found : Assigns entry.bytes previous := by
          simpa using (mem_filter.mp (mem_of_getLast? last)).2
        have matched : overrides other previous = true := by
          rw [overrides_assigned plain, its]
          exact found
        simp [replaceFirst, apart, matched, assigned]

theorem filter_assigns (plain : equalsSign ∉ name) (entries : List CString) :
    entries.filter (Assigns name ·) =
      (entries.filter (variableName · = name)).filter (Assigns name ·) := by
  rw [List.filter_filter]
  congr 1
  funext entry
  rw [Bool.eq_iff_iff]
  simpa using fun assigned => ((assigns_iff plain entry).mp assigned).1

theorem assignments_plain (own : DisplacesOwn entries) (plain : equalsSign ∉ name)
    (never : ∀ entry ∈ entries, entry.bytes ≠ name) :
    (envAppend [] entries).filter (Assigns name ·) =
      (entries.filter (Assigns name ·)).getLast?.toList := by
  have all : ∀ entry ∈ entries.filter (variableName · = name),
      variableName entry = name ∧ ¬ Bare entry := by
    intro entry mem
    obtain ⟨present, its⟩ := mem_filter.mp mem
    have same : variableName entry = name := by simpa using its
    exact ⟨same, fun bare => never entry present ((variableName_bare bare).symm.trans same)⟩
  have every : (entries.filter (variableName · = name)).filter (Assigns name ·) =
      entries.filter (variableName · = name) := by
    rw [filter_eq_self]
    intro entry mem
    simpa using (assigns_iff plain entry).mpr (all entry mem)
  rw [filter_assigns plain, envAppend_filter own, envAppend_assignments all, filter_assigns plain entries,
    every]
  cases last : (entries.filter (variableName · = name)).getLast? with
  | none => rfl
  | some entry =>
    have assigned := (assigns_iff plain entry).mpr (all entry (mem_of_getLast? last))
    simp [assigned]

theorem assignments_bare (bare : Bare entry) (own : DisplacesOwn (front ++ entry :: back))
    (first : entry ∉ front) :
    (envAppend [] (front ++ entry :: back)).filter (Assigns entry.bytes ·) =
      (back.filter (Assigns entry.bytes ·)).getLast?.toList := by
  have its : variableName entry = entry.bytes := variableName_bare bare
  have before : ∀ other ∈ front.filter (variableName · = entry.bytes),
      variableName other = entry.bytes ∧ ¬ Bare other := by
    intro other mem
    obtain ⟨present, same⟩ := mem_filter.mp mem
    have same : variableName other = entry.bytes := by simpa using same
    refine ⟨same, fun plain => first ?_⟩
    rw [← CString.eq_of_bytes ((variableName_bare plain).symm.trans same)]
    exact present
  have after : ∀ other ∈ back.filter (variableName · = entry.bytes),
      variableName other = entry.bytes := by
    intro other mem
    simpa using (mem_filter.mp mem).2
  have merged := envAppend_bare bare before after
  have whole : (front ++ entry :: back).filter (variableName · = entry.bytes) =
      front.filter (variableName · = entry.bytes) ++ entry ::
        back.filter (variableName · = entry.bytes) := by
    simp [its]
  have none : ¬ Assigns entry.bytes entry := fun assigned =>
    ((assigns_iff bare entry).mp assigned).2 bare
  rw [filter_assigns bare, envAppend_filter own, whole, merged, ← filter_assigns bare]
  cases last : (back.filter (Assigns entry.bytes ·)).getLast? with
  | none => simp [none]
  | some previous =>
    have found : Assigns entry.bytes previous := by
      simpa using (mem_filter.mp (mem_of_getLast? last)).2
    simp [none, found]

theorem keepsLast_of_filter {result : List CString}
    (kept : result.filter (Assigns name ·) = (entries.filter (Assigns name ·)).getLast?.toList)
    {last : CString} (final : (entries.filter (Assigns name ·)).getLast? = some last) :
    result.filter (Assigns name ·) = [last] ∧
      strvEnvGet result name = some (.ofBuffer (last.bytes.drop (name.length + 1))) := by
  rw [final] at kept
  exact ⟨kept, by rw [strvEnvGet_filter, kept]; rfl⟩

theorem dropWhile_behind (back : List CString) (first : entry ∉ front) :
    ((front ++ entry :: back).dropWhile (· ≠ entry)).tail = back := by
  have others : ∀ other ∈ front, decide (other ≠ entry) = true := by
    intro other mem
    simpa using fun same : other = entry => first (same ▸ mem)
  rw [dropWhile_append_of_pos others]
  simp

/-- Merging does what is asked of it exactly if no bare name does harm. -/
theorem strvEnvMerge_keepsLast_iff (lists : List (List CString)) :
    KeepsLast lists.flatten (strvEnvMerge lists) ∧ DisplacesOwn lists.flatten ↔
      BareHarmless lists.flatten := by
  have merged : strvEnvMerge lists = envAppend [] lists.flatten := by
    unfold strvEnvMerge envAppend
    rw [foldl_flatten]
  rw [merged]
  generalize lists.flatten = entries
  have firsts : DisplacesOwn entries ↔ ∀ entry ∈ entries, Bare entry ->
      ∃ first, entries.find? (entry.bytes.isPrefixOf ·.bytes) = some first ∧
        variableName first = entry.bytes := by
    rw [displacesOwn_iff]
    refine forall_congr' fun entry => forall_congr' fun mem => forall_congr' fun bare => ?_
    rw [first_iff bare, map_eq_some_iff]
  constructor
  next =>
    rintro ⟨keeps, own⟩ entry mem bare
    refine ⟨firsts.mp own entry mem bare, ?_⟩
    rintro ⟨assignment, present, assigned⟩
    obtain ⟨front, back, rfl, first⟩ := eq_append_cons_of_mem mem
    have nonempty : (front ++ entry :: back).filter (Assigns entry.bytes ·) ≠ [] :=
      ne_nil_of_mem (mem_filter.mpr ⟨present, by simpa using assigned⟩)
    have kept := (keeps entry.bytes bare _ (getLast?_eq_some_getLast nonempty)).1
    rw [assignments_bare bare own first] at kept
    have last : List.getLast _ nonempty ∈ (back.filter (Assigns entry.bytes ·)).getLast?.toList := by
      rw [kept]
      exact mem_singleton_self _
    have found := mem_filter.mp (mem_of_getLast? (mem_toList.mp last))
    rw [dropWhile_behind back first]
    exact ⟨_, found.1, by simpa using found.2⟩
  next =>
    intro harmless
    have own := firsts.mpr fun entry mem bare => (harmless entry mem bare).1
    refine ⟨fun name plain last final => keepsLast_of_filter ?_ final, own⟩
    by_cases occurs : ∃ entry ∈ entries, entry.bytes = name
    next =>
      obtain ⟨entry, mem, rfl⟩ := occurs
      have again := (harmless entry mem plain).2
      obtain ⟨front, back, rfl, first⟩ := eq_append_cons_of_mem mem
      rw [dropWhile_behind back first] at again
      have assigned := mem_filter.mp (mem_of_getLast? final)
      obtain ⟨assignment, present, assigns⟩ := again ⟨last, assigned.1, by simpa using assigned.2⟩
      have nonempty : back.filter (Assigns entry.bytes ·) ≠ [] :=
        ne_nil_of_mem (mem_filter.mpr ⟨present, by simpa using assigns⟩)
      have none : ¬ Assigns entry.bytes entry := fun its => ((assigns_iff plain entry).mp its).2 plain
      rw [assignments_bare plain own first, filter_append,
        filter_cons_of_neg (by simpa using none), getLast?_append,
        getLast?_eq_some_getLast nonempty, some_or]
    next =>
      exact assignments_plain own plain fun entry mem same => occurs ⟨entry, mem, same⟩

/-- A name without a value takes the place of a variable of which the name only begins with it. -/
theorem strvEnvMerge_displaces :
    ¬ (KeepsLast [.ofString "FOOBAR=1", .ofString "FOO"]
        (strvEnvMerge [[.ofString "FOOBAR=1"], [.ofString "FOO"]]) ∧
      DisplacesOwn [.ofString "FOOBAR=1", .ofString "FOO"]) := by
  rintro ⟨keeps, own⟩
  have kept := keeps (CString.ofString "FOOBAR").bytes (by decide) (.ofString "FOOBAR=1") (by decide)
  exact absurd kept.1 (by decide)

end Systemd.CommandLine
