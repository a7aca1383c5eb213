import Systemd.Basic.PathNames
import Systemd.Units.Registry

set_option autoImplicit false

namespace Systemd

open List Option

-- none stands for the failing assertion that the name has a dot.
def unitNameTemplate (name : CString) : Option CString :=
  match strchr name.bytes '@'.toUInt8 with
  | none => some name
  | some position =>
    (strrchr name.bytes '.'.toUInt8).map fun e =>
      .ofBuffer (name.bytes.take (position + 1) ++ name.bytes.drop e)

def slashString : CString := .ofString "/"

def defaultCgroupPath (hierarchy id : CString) (instancePart : Option CString) : Option CString :=
  match instancePart with
  | some part =>
    (unitNameTemplate id).map fun t =>
      (((hierarchy.append slashString).append t).append slashString).append part
  | none => some ((hierarchy.append slashString).append id)

def unitCgroupPath (hierarchy name : CString) : Option CString := do
  let part ← unitNameToInstance name
  defaultCgroupPath hierarchy name part

def controlGroup (hierarchy name : CString) : Option (List (List UInt8)) :=
  (unitCgroupPath hierarchy name).map fun path => resolve path.bytes

def StrictlyBelow (top group : List (List UInt8)) : Prop :=
  top <+: group ∧ group ≠ top

def OwnGroups (hierarchy first second : CString) : Prop :=
  ∃ one two, controlGroup hierarchy first = some one ∧ controlGroup hierarchy second = some two ∧
    one ≠ two ∧ StrictlyBelow (resolve hierarchy.bytes) one ∧ StrictlyBelow (resolve hierarchy.bytes) two

def SparedGroups (hierarchy first second : CString) : Prop :=
  ∃ one two, controlGroup hierarchy first = some one ∧ controlGroup hierarchy second = some two ∧
    ¬one <+: two ∧ ¬two <+: one

def InstanceIs (name : CString) (part : List UInt8) : Prop :=
  unitNameToInstance name = some (some (.ofBuffer part))

theorem suffix_shape (kind : UnitType) : ∃ tail, kind.suffix.bytes = '.'.toUInt8 :: tail ∧ tail ≠ [] ∧
    '.'.toUInt8 ∉ tail ∧ '@'.toUInt8 ∉ kind.suffix.bytes ∧ '/'.toUInt8 ∉ kind.suffix.bytes := by
  cases kind <;> exact ⟨_, rfl, by decide, by decide, by decide, by decide⟩

theorem slash_not_valid : '/'.toUInt8 ∉ '@'.toUInt8 :: validChars := by
  decide

variable {name : CString} {kind : UnitType} {before after : List UInt8}

theorem valid_front (valid : unitNameIsValid name false = true) :
    ∃ (kind : UnitType) (front : List UInt8), name.bytes = front ++ kind.suffix.bytes ∧ front ≠ [] ∧
      '/'.toUInt8 ∉ front ∧
      ∀ before after, front = before ++ '@'.toUInt8 :: after -> '@'.toUInt8 ∉ before -> after ≠ [] := by
  rw [unitNameIsValid] at valid
  cases typed : unitNameToType name with
  | none =>
    rw [typed] at valid
    cases valid
  | some kind =>
    rw [typed] at valid
    have found : UnitType.all.find? (fun t => endswith name.bytes t.suffix.bytes) = some kind := typed
    have ends := find?_some found
    obtain ⟨front, whole⟩ := isSuffixOf_iff_suffix.mp ends
    obtain ⟨tail, shape, -, noDot, -, -⟩ := suffix_shape kind
    have e : strrchr name.bytes '.'.toUInt8 = some front.length := by
      rw [← whole, shape]
      exact strrchr_last noDot
    have kept : name.bytes.take front.length = front := by rw [← whole, take_left]
    simp only [unitNameIsValidNoType, e, kept] at valid
    split_ifs at valid with long empty chars
    refine ⟨kind, front, whole.symm, fun none => empty (congrArg List.length none), ?_, ?_⟩
    · intro mem
      exact slash_not_valid (of_decide_eq_true (all_eq_true.mp chars _ mem))
    · rintro before after rfl first rfl
      rw [strchr_first first] at valid
      simp at valid

theorem name_cases (valid : unitNameIsValid name false = true) :
    '/'.toUInt8 ∉ name.bytes ∧
      ((∃ (kind : UnitType) (front : List UInt8), name.bytes = front ++ kind.suffix.bytes ∧ front ≠ [] ∧
          '@'.toUInt8 ∉ name.bytes) ∨
        ∃ (kind : UnitType) (before after : List UInt8),
          name.bytes = before ++ '@'.toUInt8 :: (after ++ kind.suffix.bytes) ∧ '@'.toUInt8 ∉ before ∧ after ≠ []) := by
  obtain ⟨kind, front, whole, full, noSlash, parts⟩ := valid_front valid
  obtain ⟨tail, -, -, -, noAt, plainSuffix⟩ := suffix_shape kind
  refine ⟨by simp [whole, noSlash, plainSuffix], ?_⟩
  by_cases mem : '@'.toUInt8 ∈ front
  · obtain ⟨before, after, rfl, first⟩ := eq_append_cons_of_mem mem
    exact .inr ⟨kind, before, after, by simp [whole], first, parts before after rfl first⟩
  · exact .inl ⟨kind, front, whole, full, by simp [whole, mem, noAt]⟩

theorem instanced_name (whole : name.bytes = before ++ '@'.toUInt8 :: (after ++ kind.suffix.bytes))
    (first : '@'.toUInt8 ∉ before) :
    unitNameToInstance name = some (some (.ofBuffer after)) ∧
      unitNameTemplate name = some (.ofBuffer (before ++ '@'.toUInt8 :: kind.suffix.bytes)) := by
  obtain ⟨tail, shape, -, noDot, -, -⟩ := suffix_shape kind
  have at' : strchr name.bytes '@'.toUInt8 = some before.length := by rw [whole, strchr_first first]
  have split : name.bytes = (before ++ '@'.toUInt8 :: after) ++ '.'.toUInt8 :: tail := by
    rw [whole, shape, append_assoc, cons_append]
  have e : strrchr name.bytes '.'.toUInt8 = some (before.length + 1 + after.length) := by
    rw [split, strrchr_last noDot]
    congr 1
    simp
    omega
  have front : name.bytes.take (before.length + 1) = before ++ ['@'.toUInt8] := by
    rw [whole]
    simp [take_append]
  have back : name.bytes.drop (before.length + 1) = after ++ kind.suffix.bytes := by
    rw [whole]
    simp [drop_append]
  constructor
  · simp only [unitNameToInstance, at', e, back]
    rw [if_pos (by omega)]
    have size : before.length + 1 + after.length - before.length - 1 = after.length := by omega
    rw [size, take_left]
  · simp only [unitNameTemplate, at', e, front, map_some]
    have last : name.bytes.drop (before.length + 1 + after.length) = kind.suffix.bytes := by
      rw [← drop_drop, back, drop_left]
    rw [last, append_assoc]
    rfl

theorem instanced_bytes (whole : name.bytes = before ++ '@'.toUInt8 :: (after ++ kind.suffix.bytes)) :
    (CString.ofBuffer after).bytes = after ∧ (CString.ofBuffer (before ++ '@'.toUInt8 :: kind.suffix.bytes)).bytes =
      before ++ '@'.toUInt8 :: kind.suffix.bytes := by
  have ended : 0 ∉ name.bytes := name.terminated
  rw [whole] at ended
  constructor
  · apply CString.ofBuffer_bytes
    grind
  · apply CString.ofBuffer_bytes
    grind

theorem strrchr_get {bytes : List UInt8} {byte : UInt8} {i : Nat} (found : strrchr bytes byte = some i) :
    bytes[i]? = some byte := by
  obtain ⟨behind, last, rfl⟩ := map_eq_some_iff.mp found
  rw [List.idxOf?, findIdx?_eq_some_iff_getElem] at last
  obtain ⟨inside, here, -⟩ := last
  rw [length_reverse] at inside
  rw [getElem_reverse] at here
  rw [getElem?_eq_getElem (by omega)]
  simpa using here

theorem instance_begins {n part : CString} (plain : unitNameIsTemplate n = false)
    (piece : unitNameToInstance n = some (some part)) :
    ∃ byte rest, part.bytes = byte :: rest ∧ byte ≠ '.'.toUInt8 := by
  rw [unitNameToInstance] at piece
  rw [unitNameIsTemplate] at plain
  cases first : strchr n.bytes '@'.toUInt8 with
  | none => simp [first] at piece
  | some p =>
    cases last : strrchr n.bytes '.'.toUInt8 with
    | none => simp [first, last] at piece
    | some e =>
      simp only [first, last] at piece plain
      split_ifs at piece with order
      simp only [some.injEq] at piece
      have dot := strrchr_get last
      rw [decide_eq_false_iff_not, head?_drop] at plain
      have apart : e ≠ p + 1 := by
        rintro rfl
        exact plain dot
      have inside : e < n.bytes.length := (List.getElem?_eq_some_iff.mp dot).1
      have kept : 0 ∉ (n.bytes.drop (p + 1)).take (e - p - 1) := fun mem =>
        n.terminated (mem_of_mem_drop (mem_of_mem_take mem))
      have bytes := congrArg CString.bytes piece
      rw [CString.ofBuffer_bytes kept, drop_eq_getElem_cons (by omega),
        show e - p - 1 = (e - p - 2) + 1 by omega, take_succ_cons] at bytes
      refine ⟨_, _, bytes.symm, fun same => plain ?_⟩
      rw [getElem?_eq_getElem (by omega), same]

inductive GroupPlace (top : List (List UInt8)) (name : CString) : List (List UInt8) -> Prop
  | plain (part : unitNameToInstance name = some none) (template : unitNameTemplate name = some name)
      (noInstance : '@'.toUInt8 ∉ name.bytes) : GroupPlace top name (top ++ [name.bytes])
  | instanced {part template : CString} (found : unitNameToInstance name = some (some part))
      (templated : unitNameTemplate name = some template) (mem : '@'.toUInt8 ∈ template.bytes)
      (notDot : part.bytes ≠ dot) (notDotDot : part.bytes ≠ dotDot) :
      GroupPlace top name (top ++ [template.bytes, part.bytes])
  | dotted {template : CString} (found : InstanceIs name dot) (templated : unitNameTemplate name = some template)
      (mem : '@'.toUInt8 ∈ template.bytes) : GroupPlace top name (top ++ [template.bytes])
  | upward (found : InstanceIs name dotDot) : GroupPlace top name top

theorem not_dots {name front : List UInt8} (whole : name = front ++ kind.suffix.bytes)
    (full : front ≠ []) : name ≠ dot ∧ name ≠ dotDot := by
  have long : 3 ≤ kind.suffix.bytes.length := by cases kind <;> decide
  have size := congrArg List.length whole
  have some := length_pos_of_ne_nil full
  rw [length_append] at size
  constructor
  all_goals
    rintro rfl
    simp [dot, dotDot] at size
    omega

variable (hierarchy : CString)

theorem resolve_below {name : List UInt8} (named : name ≠ []) (plain : '/'.toUInt8 ∉ name) :
    resolve (hierarchy.bytes ++ '/'.toUInt8 :: name) = resolveStep (resolve hierarchy.bytes) name := by
  rw [resolve, components_append, components_single named plain, foldl_append]
  rfl

theorem append_slash (front back : CString) :
    ((front.append slashString).append back).bytes = front.bytes ++ '/'.toUInt8 :: back.bytes := by
  have single : slashString.bytes = ['/'.toUInt8] := by decide
  simp [CString.append, single]

theorem controlGroup_place (valid : unitNameIsValid name false = true) :
    ∃ group, controlGroup hierarchy name = some group ∧ GroupPlace (resolve hierarchy.bytes) name group := by
  obtain ⟨noSlash, ⟨kind, front, whole, full, noInstance⟩ | ⟨kind, before, after, split, first, filled⟩⟩ :=
    name_cases valid
  · have named : name.bytes ≠ [] := by simp [whole, full]
    have part : unitNameToInstance name = some none := by rw [unitNameToInstance, strchr_none noInstance]
    have template : unitNameTemplate name = some name := by rw [unitNameTemplate, strchr_none noInstance]
    obtain ⟨notDot, notDotDot⟩ := not_dots whole full
    refine ⟨_, ?_, .plain part template noInstance⟩
    simp only [controlGroup, unitCgroupPath, part, bind_eq_bind, bind_some, defaultCgroupPath,
      map_some, append_slash, resolve_below hierarchy named noSlash]
    rw [resolveStep, if_neg notDot, if_neg notDotDot]
  · rw [split] at noSlash
    obtain ⟨part, templated⟩ := instanced_name split first
    obtain ⟨afterBytes, templateBytes⟩ := instanced_bytes split
    generalize CString.ofBuffer (before ++ '@'.toUInt8 :: kind.suffix.bytes) = template at *
    have plainTemplate : '/'.toUInt8 ∉ template.bytes := by
      rw [templateBytes]
      grind
    have templateNamed : template.bytes ≠ [] := by simp [templateBytes]
    have plainAfter : '/'.toUInt8 ∉ after := fun mem => noSlash (by simp [mem])
    have wholeTemplate : template.bytes = (before ++ ['@'.toUInt8]) ++ kind.suffix.bytes := by simp [templateBytes]
    obtain ⟨notDot, notDotDot⟩ := not_dots wholeTemplate (by simp)
    have group : controlGroup hierarchy name =
        some (resolveStep (resolve hierarchy.bytes ++ [template.bytes]) after) := by
      simp only [controlGroup, unitCgroupPath, part, templated, bind_eq_bind, bind_some,
        defaultCgroupPath, map_some, append_slash]
      rw [afterBytes, ← append_slash, resolve_below _ filled plainAfter, append_slash,
        resolve_below hierarchy templateNamed plainTemplate]
      congr 2
      rw [resolveStep, if_neg notDot, if_neg notDotDot]
    have instanced : '@'.toUInt8 ∈ template.bytes := by simp [templateBytes]
    refine ⟨_, group, ?_⟩
    rw [resolveStep]
    split_ifs with isDot isDotDot
    · exact .dotted (by rw [InstanceIs, part, isDot]) templated instanced
    · rw [dropLast_concat]
      exact .upward (by rw [InstanceIs, part, isDotDot])
    · rw [append_assoc, ← afterBytes]
      exact .instanced part templated instanced (by rwa [afterBytes]) (by rwa [afterBytes])

theorem eq_of_template {first second : CString} (validFirst : unitNameIsValid first false = true)
    (validSecond : unitNameIsValid second false = true)
    (templates : unitNameTemplate first = unitNameTemplate second)
    (parts : unitNameToInstance first = unitNameToInstance second) : first = second := by
  obtain ⟨-, ⟨-, -, -, -, noInstance⟩ | ⟨kind, before, after, split, start, -⟩⟩ := name_cases validFirst
  · obtain ⟨-, ⟨-, -, -, -, noneEither⟩ | ⟨kind, before, after, split, start, -⟩⟩ := name_cases validSecond
    · simpa [unitNameTemplate, strchr_none noInstance, strchr_none noneEither] using templates
    · rw [(instanced_name split start).1, unitNameToInstance, strchr_none noInstance] at parts
      cases parts
  · obtain ⟨-, ⟨-, -, -, -, noneEither⟩ | ⟨kind', before', after', split', start', -⟩⟩ := name_cases validSecond
    · rw [(instanced_name split start).1, unitNameToInstance, strchr_none noneEither] at parts
      cases parts
    · rw [(instanced_name split start).1, (instanced_name split' start').1, some.injEq, some.injEq]
        at parts
      rw [(instanced_name split start).2, (instanced_name split' start').2, some.injEq] at templates
      obtain ⟨part, template⟩ := instanced_bytes split
      obtain ⟨part', template'⟩ := instanced_bytes split'
      have afters : after = after' := part.symm.trans ((congrArg CString.bytes parts).trans part')
      have whole := template.symm.trans ((congrArg CString.bytes templates).trans template')
      obtain ⟨-, -, -, -, noAt, -⟩ := suffix_shape kind
      obtain ⟨befores, -, suffixes⟩ := (append_cons_inj_of_notMem start noAt).mp whole
      apply CString.eq_of_bytes
      rw [split, split', befores, afters, suffixes]

section

variable {top one two : List (List UInt8)} {first second : CString}

theorem ofBuffer_dot : (CString.ofBuffer dot).bytes = dot := by decide

theorem ofBuffer_dotDot : (CString.ofBuffer dotDot).bytes = dotDot := by decide

theorem GroupPlace.below (place : GroupPlace top first one) :
    StrictlyBelow top one ↔ ¬InstanceIs first dotDot := by
  cases place with
  | plain part => simp [StrictlyBelow, InstanceIs, part]
  | instanced found _ _ _ notDotDot =>
    have other : ¬InstanceIs first dotDot := by
      rw [InstanceIs, found]
      rintro ⟨⟩
      exact notDotDot ofBuffer_dotDot
    simp [StrictlyBelow, other]
  | dotted found =>
    have other : ¬InstanceIs first dotDot := by
      rw [InstanceIs, show unitNameToInstance first = _ from found]
      decide
    simp [StrictlyBelow, other]
  | upward found => simp [StrictlyBelow, found]

theorem GroupPlace.within (placeFirst : GroupPlace top first one) (placeSecond : GroupPlace top second two)
    (stays : ¬InstanceIs first dotDot) (staysToo : ¬InstanceIs second dotDot)
    (determined : unitNameTemplate first = unitNameTemplate second ->
      unitNameToInstance first = unitNameToInstance second -> first = second) (distinct : first ≠ second) :
    one <+: two ↔ unitNameTemplate first = unitNameTemplate second ∧ InstanceIs first dot := by
  cases placeFirst with
  | plain part template noInstance =>
    have other : ¬InstanceIs first dot := by simp [InstanceIs, part]
    cases placeSecond with
    | plain part' template' =>
      have ne : first.bytes ≠ second.bytes := fun same => distinct (CString.eq_of_bytes same)
      simp [prefix_append_right_inj, ne, other]
    | instanced _ _ mem =>
      have ne : first.bytes ≠ _ := fun same => noInstance (same ▸ mem)
      simp [prefix_append_right_inj, ne, other]
    | dotted _ _ mem =>
      have ne : first.bytes ≠ _ := fun same => noInstance (same ▸ mem)
      simp [prefix_append_right_inj, ne, other]
    | upward found => exact absurd found staysToo
  | @instanced part template found templated mem notDot =>
    have other : ¬InstanceIs first dot := by
      rw [InstanceIs, found]
      rintro ⟨⟩
      exact notDot ofBuffer_dot
    cases placeSecond with
    | plain => simp [prefix_append_right_inj, other]
    | @instanced part' template' found' templated' =>
      have ne : ¬(template.bytes = template'.bytes ∧ part.bytes = part'.bytes) := by
        rintro ⟨templates, parts⟩
        apply distinct
        apply determined
        · rw [templated, templated', CString.eq_of_bytes templates]
        · rw [found, found', CString.eq_of_bytes parts]
      simpa [prefix_append_right_inj, other] using ne
    | dotted => simp [prefix_append_right_inj, other]
    | upward found => exact absurd found staysToo
  | @dotted template found templated mem =>
    have same (other : CString) : template.bytes = other.bytes ↔ template = other :=
      ⟨CString.eq_of_bytes, congrArg CString.bytes⟩
    cases placeSecond with
    | plain _ template' noInstance =>
      have ne : template ≠ second := fun equal => noInstance (equal ▸ mem)
      simp [prefix_append_right_inj, templated, template', same, ne]
    | instanced _ templated' => simp [prefix_append_right_inj, templated, templated', same, found]
    | dotted _ templated' => simp [prefix_append_right_inj, templated, templated', same, found]
    | upward found => exact absurd found staysToo
  | upward found => exact absurd found stays

end

theorem not_instanceIs (plain : unitNameIsTemplate name = false) :
    ¬InstanceIs name dot ∧ ¬InstanceIs name dotDot := by
  constructor
  all_goals
    intro found
    obtain ⟨byte, rest, begins, ne⟩ := instance_begins plain found
    first
    | rw [ofBuffer_dot] at begins
    | rw [ofBuffer_dotDot] at begins
    exact ne (List.cons.inj begins).1.symm

/-- The groups of two units are their own unless an instance part is "..", and then neither is killed with the
other unless one of two instances of a template is ".". Neither is an instance that unit_add_name takes: a name
whose instance part begins with a dot is a template for it. -/
theorem separate_groups {first second : CString} (validFirst : unitNameIsValid first false = true)
    (validSecond : unitNameIsValid second false = true) (distinct : first ≠ second) :
    (OwnGroups hierarchy first second ↔ ¬InstanceIs first dotDot ∧ ¬InstanceIs second dotDot) ∧
      (OwnGroups hierarchy first second ∧ SparedGroups hierarchy first second ↔
        ¬InstanceIs first dotDot ∧ ¬InstanceIs second dotDot ∧
          ¬(unitNameTemplate first = unitNameTemplate second ∧ (InstanceIs first dot ∨ InstanceIs second dot))) ∧
      (unitNameIsTemplate first = false -> unitNameIsTemplate second = false ->
        OwnGroups hierarchy first second ∧ SparedGroups hierarchy first second) := by
  obtain ⟨one, groupFirst, placeFirst⟩ := controlGroup_place hierarchy validFirst
  obtain ⟨two, groupSecond, placeSecond⟩ := controlGroup_place hierarchy validSecond
  have spared : SparedGroups hierarchy first second ↔ ¬one <+: two ∧ ¬two <+: one := by
    simp [SparedGroups, groupFirst, groupSecond]
  have within (stays : ¬InstanceIs first dotDot) (staysToo : ¬InstanceIs second dotDot) :=
    placeFirst.within placeSecond stays staysToo (eq_of_template validFirst validSecond) distinct
  have without (stays : ¬InstanceIs first dotDot) (staysToo : ¬InstanceIs second dotDot) :=
    placeSecond.within placeFirst staysToo stays (eq_of_template validSecond validFirst) distinct.symm
  have own : OwnGroups hierarchy first second ↔ ¬InstanceIs first dotDot ∧ ¬InstanceIs second dotDot := by
    rw [← placeFirst.below, ← placeSecond.below]
    simp only [OwnGroups, groupFirst, groupSecond, some.injEq]
    constructor
    · rintro ⟨_, _, rfl, rfl, -, below⟩
      exact below
    · rintro ⟨belowFirst, belowSecond⟩
      refine ⟨one, two, rfl, rfl, ?_, belowFirst, belowSecond⟩
      rintro rfl
      have stays := placeFirst.below.mp belowFirst
      have staysToo := placeSecond.below.mp belowSecond
      obtain ⟨templates, isDot⟩ := (within stays staysToo).mp prefix_rfl
      obtain ⟨-, isDotToo⟩ := (without stays staysToo).mp prefix_rfl
      exact distinct (eq_of_template validFirst validSecond templates (isDot.trans isDotToo.symm))
  have both : OwnGroups hierarchy first second ∧ SparedGroups hierarchy first second ↔
      ¬InstanceIs first dotDot ∧ ¬InstanceIs second dotDot ∧
        ¬(unitNameTemplate first = unitNameTemplate second ∧ (InstanceIs first dot ∨ InstanceIs second dot)) := by
    rw [own, spared, and_assoc]
    apply and_congr_right
    intro stays
    apply and_congr_right
    intro staysToo
    rw [within stays staysToo, without stays staysToo]
    constructor
    · rintro ⟨notFirst, notSecond⟩ ⟨templates, isDot | isDot⟩
      · exact notFirst ⟨templates, isDot⟩
      · exact notSecond ⟨templates.symm, isDot⟩
    · intro not
      exact ⟨fun both => not ⟨both.1, .inl both.2⟩, fun both => not ⟨both.1.symm, .inr both.2⟩⟩
  refine ⟨own, both, fun plainFirst plainSecond => both.mpr ?_⟩
  obtain ⟨notDot, notDotDot⟩ := not_instanceIs plainFirst
  obtain ⟨notDotToo, notDotDotToo⟩ := not_instanceIs plainSecond
  exact ⟨notDotDot, notDotDotToo, fun dots => dots.2.elim notDot notDotToo⟩

theorem separate_groups_getty :
    OwnGroups (.ofString "/system") (.ofString "getty@tty1.service") (.ofString "getty@tty2.service") ∧
      SparedGroups (.ofString "/system") (.ofString "getty@tty1.service") (.ofString "getty@tty2.service") :=
  (separate_groups _ (by decide) (by decide) (by decide)).2.2 (by decide) (by decide)

theorem upward_group :
    unitNameIsValid (.ofString "foo@...service") false = true ∧ unitNameIsValid (.ofString "bar.service") false = true ∧
      controlGroup (.ofString "/system") (.ofString "foo@...service") = some (resolve (CString.ofString "/system").bytes) ∧
        ¬OwnGroups (.ofString "/system") (.ofString "foo@...service") (.ofString "bar.service") := by
  have group : controlGroup (.ofString "/system") (.ofString "foo@...service") =
      some (resolve (CString.ofString "/system").bytes) := by decide
  refine ⟨by decide, by decide, group, ?_⟩
  rintro ⟨one, two, found, -, -, ⟨-, apart⟩, -⟩
  rw [group, some.injEq] at found
  exact apart found.symm

end Systemd
