import Systemd.Basic.Words
import Systemd.Services.Reload

set_option autoImplicit false

namespace Systemd.Serialization

open List

section

variable {S : Type} (deserializeItem : S -> CString -> CString -> Except Int S)

def passItem (state : S) (item : Item) : Except Int S :=
  deserializeItem state item.key.text item.value.text

theorem deserialize_fields (lines : List (UnitField × CString)) (readable : ∀ field value, (field,
      value) ∈ lines -> newline ∉ value.bytes ∧ Readable field.key value) (state : S)
    (fields : List (UnitField × CString)) (rest : List UInt8) :
    deserializeFrom deserializeItem
        { state, fields,
          rest := lines.flatMap (fun line => assignmentLine line.1.key line.2) ++ rest } =
      deserializeFrom deserializeItem { state, fields := fields ++ lines, rest } := by
  induction lines generalizing fields with
  | nil => simp
  | cons line lines ih =>
    obtain ⟨oneLine, own⟩ := readable line.1 line.2 (by simp)
    rw [flatMap_cons, append_assoc,
      deserialize_field deserializeItem line.1 oneLine own state fields, ih]
    · simp
    · intro field value mem
      exact readable field value (mem_cons_of_mem _ mem)

theorem deserialize_meta (u : UnitMeta) (state : S) (tail : List UInt8) :
    deserializeFrom deserializeItem
        { state, fields := [],
          rest := (metaLines u).flatMap (fun line => assignmentLine line.1.key line.2) ++
            newline :: tail } =
      .ok { state, fields := metaLines u, rest := tail } := by
  rw [deserialize_fields deserializeItem (metaLines u) (metaLines_readable u), nil_append,
    deserialize_end]

theorem deserialize_readable (items : List Item)
    (readable : ∀ item ∈ items, Readable item.key.text item.value.text) (u : UnitMeta) (state : S)
    (tail : List UInt8) :
    unitDeserialize deserializeItem state (unitSerialize items u ++ tail) =
      (items.foldlM (passItem deserializeItem) state).map fun state =>
        { state, fields := metaLines u, rest := tail } := by
  simp only [unitDeserialize, unitSerialize, append_assoc, singleton_append]
  induction items generalizing state with
  | nil =>
    rw [flatMap_nil, nil_append, deserialize_meta]
    rfl
  | cons item items ih =>
    have own := readable item (by simp)
    rw [flatMap_cons, append_assoc, deserialize_item, shown_eq own, if_pos own.1,
      foldlM_cons, passItem]
    cases deserializeItem state item.key.text item.value.text with
    | error code => rfl
    | ok state => exact ih (fun other mem => readable other (mem_cons_of_mem _ mem)) state

end

-- A type of unit that keeps what it is given.
def record (calls : List (CString × CString)) (key value : CString) :
    Except Int (List (CString × CString)) :=
  .ok (calls ++ [(key, value)])

theorem record_items (items : List Item) (calls : List (CString × CString)) :
    items.foldlM (passItem record) calls =
      .ok (calls ++ items.map fun item => (item.key.text, item.value.text)) := by
  induction items generalizing calls with
  | nil => simp [pure, Except.pure]
  | cons item items ih =>
    rw [foldlM_cons, passItem, record]
    simp [bind, Except.bind, ih]

theorem record_prefix (fuel : Nat) (reading final : Reading (List (CString × CString)))
    (read : deserializeLoop record fuel reading = .ok final) : reading.state <+: final.state := by
  induction fuel generalizing reading with
  | zero =>
    cases read
    exact prefix_rfl
  | succ fuel ih =>
    rw [deserializeLoop] at read
    split at read
    · cases read
      exact prefix_rfl
    · next buffer rest found =>
        simp only at read
        split at read
        · cases read
          exact prefix_rfl
        · rw [handLine] at read
          simp only at read
          split at read
          · simp only [Except.bind] at read
            have kept := ih _ read
            exact kept
          · simp only [record, Except.map, Except.bind] at read
            exact (prefix_append _ _).trans (ih _ read)

theorem readable_of_recorded (items : List Item) (u : UnitMeta) (tail : List UInt8)
    (calls : List (CString × CString))
    (read : deserializeFrom record
        { state := calls, fields := [],
          rest := items.flatMap unitSerializeItem ++
            ((metaLines u).flatMap (fun line => assignmentLine line.1.key line.2) ++
              newline :: tail) } =
      .ok
        { state := calls ++ items.map fun item => (item.key.text, item.value.text)
          fields := metaLines u
          rest := tail }) :
    ∀ item ∈ items, Readable item.key.text item.value.text := by
  induction items generalizing calls with
  | nil => simp
  | cons item items ih =>
    rw [flatMap_cons, append_assoc, deserialize_item, record] at read
    simp only [Except.bind] at read
    have kept := record_prefix _ _ _ read
    have same : shown (lineMax - 2 - item.key.text.bytes.length) item.value.text =
        item.value.text := by
      rw [prefix_append_right_inj, map_cons, cons_prefix_cons] at kept
      exact congrArg Prod.snd kept.1
    by_cases fits : item.key.text.bytes.length + item.value.text.bytes.length + 2 < lineMax
    · have own := readable_of_shown fits same
      rw [if_pos fits, same] at read
      have rest := ih (calls ++ [(item.key.text, item.value.text)]) (by simpa using read)
      intro other mem
      rcases mem_cons.mp mem with rfl | later
      · exact own
      · exact rest other later
    · -- All of the value was read, and its newline is taken for the end marker.
      exfalso
      have whole := congrArg (fun value => value.bytes.length) same
      simp only [shown_bytes] at whole
      have cut : ((item.value.text.bytes.take (lineMax - 2 - item.key.text.bytes.length)).rdropWhile
          isWhitespace).length ≤ lineMax - 2 - item.key.text.bytes.length :=
        ((List.rdropWhile_prefix isWhitespace _).length_le).trans (length_take_le _ _)
      rw [if_neg fits, drop_of_length_le (by omega), nil_append, deserialize_end] at read
      rw [Except.ok.injEq] at read
      have short := congrArg (fun reading => reading.rest.length) read
      simp only [length_append, length_cons] at short
      omega

/-- Whatever the type of the unit does with an item: it gets exactly the items that were written,
in this order, and reading ends right behind the end marker. -/
def PassedOn (items : List Item) (u : UnitMeta) (tail : List UInt8) : Prop :=
  ∀ (S : Type) (deserializeItem : S -> CString -> CString -> Except Int S) (initial : S),
    unitDeserialize deserializeItem initial (unitSerialize items u ++ tail) =
      (items.foldlM (passItem deserializeItem) initial).map fun state =>
        { state, fields := metaLines u, rest := tail }

theorem items_passed_on_iff (items : List Item) (u : UnitMeta) (tail : List UInt8) :
    PassedOn items u tail ↔ ∀ item ∈ items, Readable item.key.text item.value.text := by
  constructor
  · intro passed
    have recorded := passed _ record []
    rw [record_items] at recorded
    simp only [unitDeserialize, unitSerialize, append_assoc, singleton_append] at recorded
    exact readable_of_recorded items u tail [] recorded
  · intro readable S deserializeItem initial
    exact deserialize_readable deserializeItem items readable u initial tail

def statusPrefix : List UInt8 :=
  "STATUS=".toList.map Char.toUInt8

-- manager_process_notify_fd reads at most 4095 bytes of a message, and service_notify_message
-- takes over what follows STATUS=.
def statusText (datagram : List UInt8) : Option (List UInt8) :=
  let tags := strvSplit (.ofBuffer (datagram.take 4095)) ("\n\r".toList.map Char.toUInt8)
  match tags.find? fun tag => statusPrefix.isPrefixOf tag with
  | some tag => if tag.drop 7 = [] then none else some (tag.drop 7)
  | none => none

-- "status-text=" and 2035 bytes fill the buffer.
def longStatus : Value where
  text := .ofBuffer (List.replicate 2035 'a'.toUInt8 ++ "main-pid=77".toList.map Char.toUInt8)
  oneLine := by decide +kernel

def shortValue (text : String) (oneLine : newline ∉ (CString.ofString text).bytes) : Value :=
  ⟨.ofString text, oneLine⟩

def runningService : List Item :=
  [⟨.state, shortValue "running" (by decide)⟩,
    ⟨.failure, shortValue "no" (by decide)⟩,
    ⟨.mainPid, shortValue "612" (by decide)⟩,
    ⟨.mainPidKnown, shortValue "yes" (by decide)⟩,
    ⟨.statusText, longStatus⟩]

def noTimestamp : DualTimestamp := ⟨0, 0⟩

def noMeta : UnitMeta where
  job := none
  inactiveExitTimestamp := noTimestamp
  activeEnterTimestamp := noTimestamp
  activeExitTimestamp := noTimestamp
  inactiveEnterTimestamp := noTimestamp
  conditionTimestamp := noTimestamp
  conditionResult := false

theorem runningService_recorded :
    (unitDeserialize record [] (unitSerialize runningService noMeta)).toOption.map (·.state) =
      some
        [(.ofString "state", .ofString "running"), (.ofString "failure", .ofString "no"),
          (.ofString "main-pid", .ofString "612"), (.ofString "main-pid-known", .ofString "yes"),
          (.ofString "status-text", .ofBuffer (List.replicate 2035 'a'.toUInt8)),
          (.ofString "main-pid", .ofString "77")] := by
  decide +kernel

theorem status_text_sets_main_pid :
    statusText (statusPrefix ++ longStatus.text.bytes) = some longStatus.text.bytes ∧
      (statusPrefix ++ longStatus.text.bytes).length ≤ 4095 ∧
      (unitDeserialize record [] (unitSerialize runningService noMeta)).toOption.map
          (fun reading => reading.state.getLast?) =
        some (some (ItemKey.mainPid.text, .ofString "77")) ∧
      ¬ PassedOn runningService noMeta [] := by
  refine ⟨by decide +kernel, by decide +kernel, ?_, ?_⟩
  · have recorded := congrArg (Option.map List.getLast?) runningService_recorded
    rw [Option.map_map] at recorded
    exact recorded
  · intro passed
    have kept := passed _ record []
    rw [record_items, append_nil] at kept
    have recorded := runningService_recorded
    rw [kept] at recorded
    simp only [Except.map, Except.toOption, Option.map_some, Option.some.injEq] at recorded
    have lengths := congrArg List.length recorded
    rw [nil_append, length_map] at lengths
    exact absurd lengths (by decide)

end Systemd.Serialization

namespace Systemd.Serialization

open Services (parseBoolean)

def jobTypeFromString (text : CString) : Option JobType :=
  [.start, .verifyActive, .stop, .reload, .reloadOrStart, .restart, .tryRestart].find? fun type =>
    .ofString (jobTypeToString type) = text

def UnitMeta.readField (u : UnitMeta) (field : UnitField) (value : CString) : UnitMeta :=
  match field with
  | .job =>
    match jobTypeFromString value with
    | some type => { u with job := some type }
    | none => u
  | .inactiveExitTimestamp =>
    { u with inactiveExitTimestamp := dualTimestampDeserialize value u.inactiveExitTimestamp }
  | .activeEnterTimestamp =>
    { u with activeEnterTimestamp := dualTimestampDeserialize value u.activeEnterTimestamp }
  | .activeExitTimestamp =>
    { u with activeExitTimestamp := dualTimestampDeserialize value u.activeExitTimestamp }
  | .inactiveEnterTimestamp =>
    { u with inactiveEnterTimestamp := dualTimestampDeserialize value u.inactiveEnterTimestamp }
  | .conditionTimestamp =>
    { u with conditionTimestamp := dualTimestampDeserialize value u.conditionTimestamp }
  | .conditionResult =>
    match parseBoolean value with
    | some b => { u with conditionResult := b }
    | none => u

def UnitMeta.readFields (u : UnitMeta) (lines : List (UnitField × CString)) : UnitMeta :=
  lines.foldl (fun u line => u.readField line.1 line.2) u

variable (u : UnitMeta)

theorem readFields_append (front back : List (UnitField × CString)) :
    u.readFields (front ++ back) = (u.readFields front).readFields back :=
  List.foldl_append

def UnitMeta.stamp (u : UnitMeta) : UnitField -> Option DualTimestamp
  | .inactiveExitTimestamp => some u.inactiveExitTimestamp
  | .activeEnterTimestamp => some u.activeEnterTimestamp
  | .activeExitTimestamp => some u.activeExitTimestamp
  | .inactiveEnterTimestamp => some u.inactiveEnterTimestamp
  | .conditionTimestamp => some u.conditionTimestamp
  | .job | .conditionResult => none

theorem readField_stamp (field other : UnitField) (value : CString) :
    (u.readField field value).stamp other =
      if field = other then (u.stamp other).map (dualTimestampDeserialize value) else u.stamp other := by
  cases field <;> cases other <;> simp [UnitMeta.readField, UnitMeta.stamp] <;> split <;> rfl

theorem readFields_other {other : UnitField} {lines : List (UnitField × CString)}
    (apart : ∀ line ∈ lines, line.1 ≠ other) : (u.readFields lines).stamp other = u.stamp other := by
  induction lines generalizing u with
  | nil => rfl
  | cons line lines ih =>
    have rest := ih (u.readField line.1 line.2) fun next mem => apart next (.tail _ mem)
    rw [UnitMeta.readFields, List.foldl_cons]
    rw [UnitMeta.readFields] at rest
    rw [rest, readField_stamp, if_neg (apart line (.head _))]

def fieldLines (u : UnitMeta) (field : UnitField) : List (UnitField × CString) :=
  match field with
  | .job =>
    match u.job with
    | some type => [(.job, .ofString (jobTypeToString type))]
    | none => []
  | .conditionResult =>
    if u.conditionTimestamp.isSet then [(.conditionResult, .ofString (yesNo u.conditionResult))] else []
  | stamped => (u.stamp stamped).elim [] (dualTimestampSerialize stamped)

theorem metaLines_eq : metaLines u = UnitField.all.flatMap (fieldLines u) := by
  cases installed : u.job <;> simp [metaLines, UnitField.all, fieldLines, UnitMeta.stamp, installed]

variable {field : UnitField} {t : DualTimestamp}

theorem fieldLines_field {u : UnitMeta} {line : UnitField × CString}
    (mem : line ∈ fieldLines u field) : line.1 = field := by
  have stamped : ∀ t, line ∈ dualTimestampSerialize field t -> line.1 = field := by
    intro t inside
    rw [dualTimestampSerialize] at inside
    split at inside
    next => rw [List.mem_singleton.mp inside]
    next => cases inside
  cases field with
  | job =>
    simp only [fieldLines] at mem
    split at mem
    next => rw [List.mem_singleton.mp mem]
    next => cases mem
  | conditionResult =>
    simp only [fieldLines] at mem
    split at mem
    next => rw [List.mem_singleton.mp mem]
    next => cases mem
  | _ => exact stamped _ mem

def DualTimestamp.passed (t : DualTimestamp) : UInt64 :=
  if t.isSet then t.monotonic else 0

theorem readFields_own (v : UnitMeta) (own : u.stamp field = some t)
    (unset : v.stamp field = some noTimestamp) :
    ((v.readFields (fieldLines u field)).stamp field).map (·.monotonic) = some t.passed := by
  have lines : fieldLines u field = dualTimestampSerialize field t := by
    cases field with
    | job | conditionResult => cases own
    | _ =>
      cases own
      rfl
  rw [lines, dualTimestampSerialize, DualTimestamp.passed]
  split
  next =>
    rw [UnitMeta.readFields, List.foldl_cons, List.foldl_nil, readField_stamp, if_pos rfl, unset,
      Option.map_some, dualTimestampDeserialize_print, Option.map_some]
  next => rw [UnitMeta.readFields, List.foldl_nil, unset, Option.map_some, noTimestamp]

theorem metaLines_stamp (own : u.stamp field = some t) :
    ((noMeta.readFields (metaLines u)).stamp field).map (·.monotonic) = some t.passed := by
  have listed : field ∈ UnitField.all := by cases field <;> decide
  have distinct : UnitField.all.Nodup := by decide
  obtain ⟨front, back, split⟩ := List.append_of_mem listed
  rw [split, List.nodup_append, List.nodup_cons] at distinct
  obtain ⟨-, ⟨behind, -⟩, before⟩ := distinct
  have apart : ∀ fields : List UnitField, field ∉ fields ->
      ∀ line ∈ fields.flatMap (fieldLines u), line.1 ≠ field := by
    intro fields absent line mem same
    obtain ⟨other, inside, here⟩ := List.mem_flatMap.mp mem
    exact absent (same ▸ fieldLines_field here ▸ inside)
  have unset : noMeta.stamp field = some noTimestamp := by
    cases field <;> first | rfl | cases own
  rw [metaLines_eq, split, List.flatMap_append, List.flatMap_cons, readFields_append,
    readFields_append, readFields_other _ (apart back behind)]
  refine readFields_own u _ own ?_
  rw [readFields_other _ (apart front fun mem => before field mem field (.head _) rfl), unset]

end Systemd.Serialization
