import Systemd.Units.ControlGroup

set_option autoImplicit false

namespace Systemd

open List

theorem fromPathInstance_terminated (first path suffix : CString) :
    0 ∉ unitNameBuildEscape first.bytes
      (some (if relativePath path.bytes = [] then ['-'.toUInt8] else relativePath path.bytes))
      suffix.bytes := by
  have at' : (0 : UInt8) ≠ '@'.toUInt8 := by decide
  simp [unitNameBuildEscape, doEscape_terminated, suffix.terminated, at']

-- The root directory is handed over as the string that unit_name_from_path() puts in without
-- escaping it.
def unitNameFromPathInstance (first path suffix : CString) : CString where
  bytes := unitNameBuildEscape first.bytes
    (some (if relativePath path.bytes = [] then ['-'.toUInt8] else relativePath path.bytes))
    suffix.bytes
  terminated := fromPathInstance_terminated first path suffix

def unitNamePathUnescape (name : CString) : CString :=
  .ofBuffer (addLeadingSlash (unitNameUnescape name).bytes)

theorem squeezed_eq_nil_iff (path : List UInt8) :
    squeezed path = [] ↔ ∀ byte ∈ path, byte = '/'.toUInt8 := by
  induction path with
  | nil => simp [squeezed, removeRepeatedSlashes, removeTrailingSlashes]
  | cons byte rest ih =>
    by_cases separator : byte = '/'.toUInt8
    · subst separator
      cases rest with
      | nil => simp [squeezed_slash]
      | cons next rest =>
        by_cases again : next = '/'.toUInt8
        · subst again
          rw [squeezed_slash_slash, ih]
          simp
        · rw [squeezed_slash_other again]
          simp [again]
    · rw [squeezed_cons_other separator]
      simp [separator]

theorem relativePath_eq_nil_iff (path : List UInt8) :
    relativePath path = [] ↔ ∀ byte ∈ path, byte = '/'.toUInt8 := by
  rw [← squeezed_eq_nil_iff, relativePath_eq]
  split_ifs with leading
  · cases shape : squeezed path with
    | nil => simp
    | cons byte rest =>
      rw [shape, head?_cons, Option.some.injEq] at leading
      subst leading
      simpa using (squeezed_tail shape).1
  · rfl

theorem unitNameToInstance_append {front part letters : List UInt8} {name : CString}
    (bytes : name.bytes = front ++ '@'.toUInt8 :: (part ++ '.'.toUInt8 :: letters))
    (plain : '@'.toUInt8 ∉ front) (noDot : '.'.toUInt8 ∉ letters) :
    ∃ i, unitNameToInstance name = some (some i) ∧ i.bytes = part := by
  have first : strchr name.bytes '@'.toUInt8 = some front.length := by
    rw [bytes]
    exact strchr_first plain
  have last : strrchr name.bytes '.'.toUInt8 = some (front.length + 1 + part.length) := by
    have split : name.bytes = (front ++ '@'.toUInt8 :: part) ++ '.'.toUInt8 :: letters := by
      simp [bytes]
    rw [split, strrchr_last noDot]
    simp only [length_append, length_cons]
    congr 1
    omega
  have cut : (name.bytes.drop (front.length + 1)).take
      (front.length + 1 + part.length - front.length - 1) = part := by
    rw [bytes, append_cons, drop_left' (by simp)]
    exact take_left' (by omega)
  refine ⟨.ofBuffer part, ?_, CString.ofBuffer_bytes fun mem => ?_⟩
  · rw [unitNameToInstance, first]
    simp only [last, cut]
    rw [if_pos (by omega)]
  · exact name.terminated (by simp [bytes, mem])

theorem fromPathInstance_instance (first path suffix : CString) (form : IsUnitSuffix suffix.bytes) :
    ∃ i, unitNameToInstance (unitNameFromPathInstance first path suffix) = some (some i) ∧
      i.bytes = doEscape
        (if relativePath path.bytes = [] then ['-'.toUInt8] else relativePath path.bytes) := by
  obtain ⟨letters, same, noDot, -⟩ := form
  have plain : '@'.toUInt8 ∉ doEscape first.bytes := by
    intro mem
    have valid := doEscape_valid _ _ mem
    revert valid
    decide
  have bytes : (unitNameFromPathInstance first path suffix).bytes =
      doEscape first.bytes ++ '@'.toUInt8 :: (doEscape
        (if relativePath path.bytes = [] then ['-'.toUInt8] else relativePath path.bytes) ++
          '.'.toUInt8 :: letters) := by
    simp [unitNameFromPathInstance, unitNameBuildEscape, same]
  exact unitNameToInstance_append bytes plain noDot

theorem pathUnescape_doEscape (part : CString) (i : CString) (escaped : i.bytes = doEscape part.bytes) :
    (unitNamePathUnescape i).bytes = addLeadingSlash part.bytes := by
  have slash : (0 : UInt8) ≠ '/'.toUInt8 := by decide
  have kept : 0 ∉ addLeadingSlash part.bytes := by
    unfold addLeadingSlash
    split_ifs
    · exact part.terminated
    · simp [part.terminated, slash]
  rw [unitNamePathUnescape, unitNameUnescape, escaped, unescapeLoop_doEscape, CString.ofBuffer_self,
    CString.ofBuffer_bytes kept]

theorem path_instance_decodes_iff (first path suffix : CString) (form : IsUnitSuffix suffix.bytes) :
    (∃ i, unitNameToInstance (unitNameFromPathInstance first path suffix) = some (some i) ∧
      (unitNamePathUnescape i).bytes = normalizedPath path.bytes) ↔
    ∃ byte ∈ path.bytes, byte ≠ '/'.toUInt8 := by
  obtain ⟨i, cut, escaped⟩ := fromPathInstance_instance first path suffix form
  have some_iff : (∃ byte ∈ path.bytes, byte ≠ '/'.toUInt8) ↔ relativePath path.bytes ≠ [] := by
    rw [ne_eq, relativePath_eq_nil_iff]
    push Not
    rfl
  rw [some_iff]
  constructor
  · rintro ⟨j, cut', decoded⟩ root
    obtain rfl : j = i := by simpa [cut] using cut'.symm
    rw [if_pos root] at escaped
    rw [pathUnescape_doEscape ⟨['-'.toUInt8], by decide⟩ j escaped, normalizedPath_eq, root] at decoded
    revert decoded
    decide
  · intro other
    rw [if_neg other] at escaped
    refine ⟨i, cut, ?_⟩
    rw [pathUnescape_doEscape ⟨_, relativePath_terminated path⟩ i escaped, normalizedPath_eq,
      addLeadingSlash, if_neg (relativePath_head path.bytes)]

theorem path_instance_decodes_fsck :
    ∃ i, unitNameToInstance (unitNameFromPathInstance (.ofString "fsck") (.ofString "//dev/a-b//")
        (.ofString ".service")) = some (some i) ∧
      (unitNamePathUnescape i).bytes = (CString.ofString "/dev/a-b").bytes := by
  have form : IsUnitSuffix (CString.ofString ".service").bytes :=
    ⟨"service".toList.map Char.toUInt8, by decide, by decide, by decide⟩
  obtain ⟨i, cut, decoded⟩ := (path_instance_decodes_iff (.ofString "fsck") (.ofString "//dev/a-b//")
    (.ofString ".service") form).mpr ⟨'d'.toUInt8, by decide, by decide⟩
  exact ⟨i, cut, decoded.trans (by decide)⟩

theorem root_instance_decodes_wrong :
    unitNameToInstance (unitNameFromPathInstance (.ofString "fsck") (.ofString "/")
        (.ofString ".service")) = some (some (.ofString "\\x2d")) ∧
      unitNamePathUnescape (.ofString "\\x2d") = .ofString "/-" ∧
      normalizedPath (CString.ofString "/").bytes = (CString.ofString "/").bytes := by
  refine ⟨by decide, ?_, by decide⟩
  apply CString.eq_of_bytes
  have dash : (CString.ofString "\\x2d").bytes = doEscape ['-'.toUInt8] := by decide
  rw [pathUnescape_doEscape ⟨['-'.toUInt8], by decide⟩ _ dash]
  decide

def unitPrefixIsValid (first : CString) : Bool :=
  first.bytes ≠ [] && first.bytes.all fun byte => byte ∈ validChars

def unitInstanceIsValid (part : CString) : Bool :=
  part.bytes ≠ [] && part.bytes.all fun byte => byte ∈ '@'.toUInt8 :: validChars

-- Here and below none stands for a failing assertion.
def unitNameChangeSuffix (name suffix : CString) : Option CString :=
  if unitNameIsValidNoType name true then
    (strrchr name.bytes '.'.toUInt8).map fun e => .ofBuffer (name.bytes.take e ++ suffix.bytes)
  else
    none

def unitNameBuild (first : CString) (part : Option CString) (suffix : CString) : Option CString :=
  if unitPrefixIsValid first && part.all unitInstanceIsValid then
    match part with
    | none => some (.ofBuffer (first.bytes ++ suffix.bytes))
    | some part => some (.ofBuffer (first.bytes ++ '@'.toUInt8 :: part.bytes ++ suffix.bytes))
  else
    none

structure NameAgrees (name : CString) (t : UnitType) (front : List UInt8) (part : Option CString) :
    Prop where
  type : unitNameToType name = some t
  instancePart : unitNameToInstance name = some part
  before : unitNameToPrefix name.bytes = some front
  template : (unitNameTemplate name).isSome = true
  changeSuffix : ∀ suffix, (unitNameChangeSuffix name suffix).isSome = true
  isTemplate : unitNameIsTemplate name = true ↔ part = some (.ofBuffer [])
  isValid : part = some (.ofBuffer []) ↔ unitNameIsValid name false = false
  build : unitNameIsTemplate name = false -> unitNameBuild (.ofBuffer front) part t.suffix = some name

structure NameParts (name : CString) (t : UnitType) (front letters : List UInt8) : Prop where
  type : unitNameToType name = some t
  suffix : t.suffix.bytes = '.'.toUInt8 :: letters
  noDot : '.'.toUInt8 ∉ letters
  noAt : '@'.toUInt8 ∉ letters
  bytes : name.bytes = front ++ '.'.toUInt8 :: letters
  last : strrchr name.bytes '.'.toUInt8 = some front.length
  valid : ∀ byte ∈ front, byte ∈ '@'.toUInt8 :: validChars
  short : name.bytes.length < unitNameMax
  nonempty : front ≠ []
  head : front.head? ≠ some '@'.toUInt8

theorem nameParts {name : CString} (valid : unitNameIsValid name true = true) :
    ∃ t front letters, NameParts name t front letters := by
  rw [unitNameIsValid] at valid
  cases type : unitNameToType name with
  | none => simp [type] at valid
  | some t =>
    obtain ⟨letters, suffix, -, noDot, noAt, -⟩ := suffix_shape t
    have found : UnitType.all.find? (fun t => endswith name.bytes t.suffix.bytes) = some t := type
    have ends := find?_some found
    obtain ⟨front, bytes⟩ := isSuffixOf_iff_suffix.mp ends
    rw [suffix] at bytes noAt
    have last : strrchr name.bytes '.'.toUInt8 = some front.length := by
      rw [← bytes]
      exact strrchr_last noDot
    have taken : name.bytes.take front.length = front := by rw [← bytes, take_left]
    simp only [type, unitNameIsValidNoType, last, taken] at valid
    split_ifs at valid with long empty allowed
    refine ⟨t, front, letters, type, suffix, noDot,
      fun mem => noAt (mem_cons_of_mem _ mem), bytes.symm, last, ?_, Nat.not_le.mp long, ?_, ?_⟩
    · intro byte mem
      exact of_decide_eq_true (all_eq_true.mp allowed byte mem)
    · rintro rfl
      exact empty rfl
    · intro head
      obtain ⟨rest, rfl⟩ := head?_eq_some_iff.mp head
      have position : strchr ([] ++ '@'.toUInt8 :: rest) '@'.toUInt8 = some 0 :=
        strchr_first (by simp)
      rw [nil_append] at position
      simp [position] at valid

namespace NameParts

variable {name : CString} {t : UnitType} {front letters before after : List UInt8}

section

variable (parts : NameParts name t front letters)
include parts

theorem taken : name.bytes.take front.length = front := by
  rw [parts.bytes, take_left]

theorem isValidNoType (templateOk : Bool) :
    unitNameIsValidNoType name templateOk =
      match strchr front '@'.toUInt8 with
      | some position => position ≠ 0 && (templateOk || position + 1 ≠ front.length)
      | none => true := by
  have long : ¬ name.bytes.length ≥ unitNameMax := Nat.not_le.mpr parts.short
  have full : front.length ≠ 0 := fun zero => parts.nonempty (length_eq_zero_iff.mp zero)
  have allowed : front.all (fun byte => byte ∈ '@'.toUInt8 :: validChars) = true :=
    all_eq_true.mpr fun byte mem => decide_eq_true (parts.valid byte mem)
  cases found : strchr front '@'.toUInt8 with
  | none =>
    simp only [unitNameIsValidNoType, parts.last, parts.taken, long, full, allowed, if_true, if_false, found]
  | some position =>
    simp only [unitNameIsValidNoType, parts.last, parts.taken, long, full, allowed, if_true, if_false, found]

theorem valid_plain (plain : '@'.toUInt8 ∉ front) (templateOk : Bool) :
    unitNameIsValidNoType name templateOk = true := by
  rw [parts.isValidNoType, strchr_none plain]

end

theorem valid_instanced (parts : NameParts name t (before ++ '@'.toUInt8 :: after) letters)
    (first : '@'.toUInt8 ∉ before) (templateOk : Bool) :
    unitNameIsValidNoType name templateOk = (templateOk || after ≠ []) := by
  have away : before.length ≠ 0 := by
    intro zero
    have none := length_eq_zero_iff.mp zero
    exact parts.head (by simp [none])
  have place : before.length + 1 ≠ (before ++ '@'.toUInt8 :: after).length ↔ after ≠ [] := by
    rw [length_append, length_cons, ne_eq, ne_eq, ← length_eq_zero_iff]
    omega
  rw [parts.isValidNoType, strchr_first first]
  simp only [away, place, decide_not, decide_false, Bool.not_false, Bool.true_and, ne_eq]

section

variable (parts : NameParts name t front letters)
include parts

theorem isValid (templateOk : Bool) :
    unitNameIsValid name templateOk = unitNameIsValidNoType name templateOk := by
  rw [unitNameIsValid, parts.type]

theorem changeSuffix (valid : unitNameIsValidNoType name true = true) (suffix : CString) :
    (unitNameChangeSuffix name suffix).isSome = true := by
  simp [unitNameChangeSuffix, valid, parts.last]

theorem terminated : 0 ∉ front :=
  fun mem => name.terminated (by simp [parts.bytes, mem])

theorem agrees_plain (plain : '@'.toUInt8 ∉ front) : NameAgrees name t front none := by
  have dot : '@'.toUInt8 ≠ '.'.toUInt8 := by decide
  have absent : strchr name.bytes '@'.toUInt8 = none := by
    refine strchr_none ?_
    rw [parts.bytes]
    simp [plain, parts.noAt, dot]
  have isFirst : unitPrefixIsValid (.ofBuffer front) = true := by
    rw [unitPrefixIsValid, CString.ofBuffer_bytes parts.terminated]
    simp only [parts.nonempty, ne_eq, not_false_eq_true, decide_true, Bool.true_and, all_eq_true,
      decide_eq_true_eq]
    intro byte mem
    rcases mem_cons.mp (parts.valid byte mem) with rfl | valid
    · exact absurd mem plain
    · exact valid
  constructor
  · exact parts.type
  · rw [unitNameToInstance, absent]
  · rw [unitNameToPrefix, absent]
    simp [unitNameToPrefixAndInstance, parts.last, strndup, parts.taken]
  · rw [unitNameTemplate, absent]
    rfl
  · exact parts.changeSuffix (parts.valid_plain plain true)
  · simp [unitNameIsTemplate, absent]
  · simp [parts.isValid, parts.valid_plain plain]
  · intro _
    have whole : CString.ofBuffer (front ++ t.suffix.bytes) = name := by
      rw [parts.suffix, ← parts.bytes, CString.ofBuffer_self]
    simp [unitNameBuild, isFirst, CString.ofBuffer_bytes parts.terminated, whole]

end

theorem agrees_iff (parts : NameParts name t (before ++ '@'.toUInt8 :: after) letters)
    (first : '@'.toUInt8 ∉ before) :
    NameAgrees name t before (some (.ofBuffer after)) ↔ after.head? ≠ some '.'.toUInt8 := by
  have whole : name.bytes = before ++ '@'.toUInt8 :: (after ++ t.suffix.bytes) := by
    rw [parts.bytes, parts.suffix, append_assoc, cons_append]
  obtain ⟨cut, templated⟩ := instanced_name whole first
  have place : strchr name.bytes '@'.toUInt8 = some before.length := by
    rw [whole]
    exact strchr_first first
  have behind : name.bytes.drop (before.length + 1) = after ++ t.suffix.bytes := by
    rw [whole, append_cons, drop_left' (by simp)]
  have keptAfter : 0 ∉ after := fun mem => parts.terminated (by simp [mem])
  have keptBefore : 0 ∉ before := fun mem => parts.terminated (by simp [mem])
  have empty : some (CString.ofBuffer after) = some (.ofBuffer []) ↔ after = [] := by
    constructor
    · intro same
      have bytes := congrArg CString.bytes (Option.some.inj same)
      rwa [CString.ofBuffer_bytes keptAfter] at bytes
    · rintro rfl
      rfl
  have isTemplate : unitNameIsTemplate name = true ↔ after = [] ∨ after.head? = some '.'.toUInt8 := by
    rw [unitNameIsTemplate, place]
    simp only [behind, decide_eq_true_eq]
    cases after with
    | nil => simp [parts.suffix]
    | cons byte rest => simp
  constructor
  · intro agrees begins
    have template := isTemplate.mpr (.inr begins)
    rw [empty.mp (agrees.isTemplate.mp template)] at begins
    cases begins
  · intro plain
    constructor
    · exact parts.type
    · exact cut
    · rw [unitNameToPrefix, place]
      simp only [strndup, whole, take_left]
    · rw [templated]
      rfl
    · exact parts.changeSuffix (by rw [parts.valid_instanced first]; rfl)
    · rw [isTemplate, empty]
      exact ⟨fun some => some.resolve_right plain, .inl⟩
    · rw [empty, parts.isValid, parts.valid_instanced first]
      simp
    · intro plainName
      have full : after ≠ [] := by
        rintro rfl
        simp [isTemplate.mpr (.inl rfl)] at plainName
      have isFirst : unitPrefixIsValid (.ofBuffer before) = true := by
        rw [unitPrefixIsValid, CString.ofBuffer_bytes keptBefore]
        have nonempty : before ≠ [] := by
          rintro rfl
          exact parts.head rfl
        simp only [nonempty, ne_eq, not_false_eq_true, decide_true, Bool.true_and, all_eq_true,
          decide_eq_true_eq]
        intro byte mem
        rcases mem_cons.mp (parts.valid byte (by simp [mem])) with rfl | valid
        · exact absurd mem first
        · exact valid
      have isPart : unitInstanceIsValid (.ofBuffer after) = true := by
        rw [unitInstanceIsValid, CString.ofBuffer_bytes keptAfter]
        simp only [full, ne_eq, not_false_eq_true, decide_true, Bool.true_and, all_eq_true,
          decide_eq_true_eq]
        exact fun byte mem => parts.valid byte (by simp [mem])
      have built : CString.ofBuffer (before ++ '@'.toUInt8 :: after ++ t.suffix.bytes) = name := by
        rw [append_assoc, cons_append, ← whole, CString.ofBuffer_self]
      simp [unitNameBuild, isFirst, isPart, CString.ofBuffer_bytes keptBefore,
        CString.ofBuffer_bytes keptAfter]
      simpa using built

end NameParts

theorem name_agrees_iff (name : CString) (valid : unitNameIsValid name true = true) :
    (∃ t front part, NameAgrees name t front part) ↔
      ∀ before rest, name.bytes = before ++ '@'.toUInt8 :: '.'.toUInt8 :: rest ->
        '@'.toUInt8 ∉ before -> '.'.toUInt8 ∉ rest := by
  obtain ⟨t, front, letters, parts⟩ := nameParts valid
  have dot : '@'.toUInt8 ≠ '.'.toUInt8 := by decide
  by_cases mem : '@'.toUInt8 ∈ front
  · obtain ⟨before, after, rfl, first⟩ := eq_append_cons_of_mem mem
    have whole : name.bytes = before ++ '@'.toUInt8 :: (after ++ t.suffix.bytes) := by
      rw [parts.bytes, parts.suffix, append_assoc, cons_append]
    have place : strchr name.bytes '@'.toUInt8 = some before.length := by
      rw [whole]
      exact strchr_first first
    have unique : (∃ t front part, NameAgrees name t front part) ↔
        NameAgrees name t before (some (.ofBuffer after)) := by
      constructor
      · rintro ⟨t', front', part', agrees⟩
        obtain rfl : t' = t := Option.some.inj (agrees.type.symm.trans parts.type)
        obtain rfl : part' = some (.ofBuffer after) :=
          Option.some.inj (agrees.instancePart.symm.trans (instanced_name whole first).1)
        obtain rfl : front' = before := by
          have cut := agrees.before
          rw [unitNameToPrefix, place] at cut
          simpa only [strndup, whole, take_left, Option.some.injEq] using cut.symm
        exact agrees
      · exact fun agrees => ⟨t, before, _, agrees⟩
    rw [unique, parts.agrees_iff first]
    constructor
    · intro plain before' rest bytes first' dotted
      obtain ⟨_, behind⟩ := append_inj (whole.symm.trans bytes) (by
        rw [bytes, strchr_first first'] at place
        exact (Option.some.inj place).symm)
      have behind : after ++ t.suffix.bytes = '.'.toUInt8 :: rest := (List.cons.inj behind).2
      cases after with
      | nil =>
        rw [nil_append, parts.suffix] at behind
        exact parts.noDot ((List.cons.inj behind).2 ▸ dotted)
      | cons byte after => exact plain (by simpa using (List.cons.inj behind).1)
    · intro last begins
      obtain ⟨rest, rfl⟩ := head?_eq_some_iff.mp begins
      refine last before (rest ++ t.suffix.bytes) (by rw [whole, cons_append]) first ?_
      rw [parts.suffix]
      simp
  · have plain := parts.agrees_plain mem
    refine iff_of_true ⟨t, front, none, plain⟩ ?_
    intro before rest bytes _
    have absent : '@'.toUInt8 ∉ name.bytes := by
      rw [parts.bytes]
      simp [mem, parts.noAt, dot]
    exact absurd (by simp [bytes]) absent

theorem name_agrees_getty :
    ∃ t front part, NameAgrees (.ofString "getty@tty1.service") t front part := by
  refine (name_agrees_iff (.ofString "getty@tty1.service") (by decide)).mpr ?_
  intro before rest bytes _
  have adjacent : ['@'.toUInt8, '.'.toUInt8] <:+: (CString.ofString "getty@tty1.service").bytes :=
    ⟨before, rest, by simp [bytes]⟩
  exact absurd adjacent (by decide)

theorem dotted_instance_disagrees :
    unitNameIsValid (.ofString "a@.b.service") true = true ∧
      unitNameIsTemplate (.ofString "a@.b.service") = true ∧
      unitNameToInstance (.ofString "a@.b.service") = some (some (.ofString ".b")) ∧
      unitNameIsValid (.ofString "a@.b.service") false = true := by
  decide

end Systemd
