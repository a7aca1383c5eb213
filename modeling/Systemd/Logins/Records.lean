import Systemd.Logins.Objects

set_option autoImplicit false

namespace Systemd.Logins

open List Option Function

open Serialization (decimal decimal_digit printInt)

def found (keys : List (List UInt8)) (bytes : List UInt8) : List (List UInt8 × Option (List UInt8)) :=
  (fileLines bytes).flatMap (envLine keys)

variable {contents word : List UInt8} {byte : UInt8} {print : Identifier -> Option (List UInt8)}
  {sessions : List Identifier} {words : List (List UInt8)} {value : Option (List UInt8)}

theorem parseEnvFile_eq {keys : List (List UInt8)} (each : ∀ key ∈ keys, EnvKey key)
    (terminated : 0 ∉ contents) :
    parseEnvFile keys (.ofBuffer contents) =
      (found keys contents).foldl (fun values assignment =>
        update values assignment.1 assignment.2) fun _ => none := by
  rw [parseEnvFile, envAssignments_eq (plainKeys_of_envKeys each), CString.ofBuffer_bytes terminated, found]

theorem isNewline_newline : isNewline newline = true := by decide

theorem not_mem_quotes : ∀ {byte : UInt8}, nameByte byte = true -> byte ∉ quotes := by
  intro byte
  revert byte
  apply forall_byte
  decide +kernel

theorem not_mem_whitespace : ∀ {byte : UInt8}, nameByte byte = true -> byte ∉ whitespace := by
  intro byte
  revert byte
  apply forall_byte
  decide +kernel

theorem not_isNewline (named : nameByte byte = true) : isNewline byte = false := by
  by_contra ends
  have blank := isWhitespace_of_isNewline (by simpa using ends)
  exact not_mem_whitespace named (by simpa [isWhitespace] using blank)

theorem nameByte_decimal {digits number : Nat} (mem : byte ∈ decimal digits number) :
    nameByte byte = true := by
  obtain ⟨digit, bound, rfl⟩ := decimal_digit mem
  have all : ∀ digit < 10, nameByte (UInt8.ofNat (48 + digit)) = true := by decide
  exact all digit bound

def IsName (word : List UInt8) : Prop :=
  word ≠ [] ∧ ∀ byte ∈ word, nameByte byte = true

theorem Identifier.isName (id : Identifier) : IsName id.bytes := ⟨id.nonempty, id.valid⟩

theorem decimal_isName (number : Nat) : IsName (decimal 20 number) :=
  ⟨by simp [decimal], fun _ => nameByte_decimal⟩

theorem IsName.isWord (isName : IsName word) : IsWord whitespace word :=
  ⟨isName.1, fun byte mem => not_mem_whitespace (isName.2 byte mem)⟩

theorem IsName.isWord_space (isName : IsName word) : IsWord [space] word := by
  refine ⟨isName.1, fun byte mem single => ?_⟩
  have blank : space ∈ whitespace := by decide
  exact not_mem_whitespace (isName.2 byte mem) (mem_singleton.mp single ▸ blank)

theorem unquote_of_head {value : List UInt8} (plain : ∀ byte ∈ value.head?, byte ∉ quotes) :
    unquote value = value := by
  rw [unquote, if_neg]
  rintro ⟨-, ⟨byte, first, quoted⟩, -⟩
  exact plain byte first quoted

section

variable {keys : List (List UInt8)}

@[simp] theorem found_nil : found keys [] = [] := rfl

theorem found_line {line : List UInt8} (plain : ∀ byte ∈ line, isNewline byte = false) (rest : List UInt8) :
    found keys (line ++ newline :: rest) = envLine keys line ++ found keys rest := by
  rw [found, fileLines_line plain isNewline_newline]
  rfl

theorem found_header (rest : List UInt8) : found keys (header ++ rest) = found keys rest := by
  let comment := ascii "# This is private data. Do not parse."
  have split : header ++ rest = comment ++ newline :: rest := by
    have same : header = comment ++ [newline] := by decide
    rw [same, append_assoc, singleton_append]
  have plain : ∀ byte ∈ comment, isNewline byte = false := by decide
  rw [split, found_line plain]
  rfl

variable (each : ∀ key ∈ keys, EnvKey key)

include each in
theorem found_assignment {key : String} (isKey : EnvKey (ascii key)) {value : List UInt8}
    (single : ∀ byte ∈ value, isNewline byte = false) (rest : List UInt8) :
    found keys (assignment key value ++ rest) =
      (if ascii key ∈ keys then [(ascii key, nonEmpty (unquote value))] else []) ++ found keys rest := by
  have split : assignment key value ++ rest = (ascii key ++ equalsSign :: value) ++ newline :: rest := by
    simp [assignment]
  have plain : ∀ byte ∈ ascii key ++ equalsSign :: value, isNewline byte = false := by
    intro byte mem
    rcases mem_append.mp mem with inside | inside
    · exact isKey.plain byte inside
    · rcases mem_cons.mp inside with rfl | inside
      · exact equalsSign_not_newline
      · exact single byte inside
  rw [split, found_line plain, envLine_assignment each isKey]

include each in
theorem found_optionalAssignment {key : String} (isKey : EnvKey (ascii key)) {value : Option (List UInt8)}
    (single : ∀ text ∈ value, ∀ byte ∈ text, isNewline byte = false) (rest : List UInt8) :
    found keys (optionalAssignment key value ++ rest) =
      (if ascii key ∈ keys then value.toList.map fun text => (ascii key, nonEmpty (unquote text)) else []) ++
        found keys rest := by
  cases value with
  | none => simp [optionalAssignment]
  | some text =>
    rw [optionalAssignment, elim_some, found_assignment each isKey (single text rfl)]
    rfl

end

theorem printList_some {word : Identifier -> List UInt8}
    (prints : ∀ id ∈ sessions, print id = some (word id)) (nonempty : sessions ≠ []) :
    printList print sessions = joinWords space (sessions.map word) ++ [newline] := by
  induction sessions with
  | nil => exact absurd rfl nonempty
  | cons id rest ih =>
    have here := prints id (by simp)
    cases rest with
    | nil => simp [printList, here, joinWords]
    | cons next rest =>
      have later := ih (fun other mem => prints other (mem_cons_of_mem _ mem)) (by simp)
      rw [List.map_cons] at later
      rw [printList, here, later]
      simp [joinWords]

theorem listAssignment_some {word : Identifier -> List UInt8}
    (prints : ∀ id ∈ sessions, print id = some (word id)) (nonempty : sessions ≠ []) (key : String) :
    listAssignment key print sessions = assignment key (joinWords space (sessions.map word)) := by
  rw [listAssignment, printList_some prints nonempty, assignment, append_assoc, cons_append]

theorem mem_joinWords {separator : UInt8} (mem : byte ∈ joinWords separator words) :
    byte = separator ∨ ∃ word ∈ words, byte ∈ word := by
  induction words with
  | nil => simp [joinWords] at mem
  | cons word rest ih =>
    cases rest with
    | nil => exact .inr ⟨word, by simp, by simpa [joinWords] using mem⟩
    | cons other rest =>
      rw [joinWords] at mem
      rcases mem_append.mp mem with inside | inside
      · exact .inr ⟨word, by simp, inside⟩
      · rcases mem_cons.mp inside with rfl | inside
        · exact .inl rfl
        · rcases ih inside with here | ⟨found, among, inside⟩
          · exact .inl here
          · exact .inr ⟨found, mem_cons_of_mem _ among, inside⟩

section

variable {words : List (List UInt8)} (each : ∀ word ∈ words, IsName word)

include each in
theorem joinWords_single : ∀ byte ∈ joinWords space words, isNewline byte = false := by
  intro byte mem
  rcases mem_joinWords mem with rfl | ⟨word, among, inside⟩
  · decide
  · exact not_isNewline ((each word among).2 byte inside)

include each in
theorem joinWords_read (nonempty : words ≠ []) :
    nonEmpty (unquote (joinWords space words)) = some (joinWords space words) := by
  obtain ⟨word, rest, rfl⟩ := exists_cons_of_ne_nil nonempty
  obtain ⟨tail, joined⟩ := joinWords_cons space word rest
  obtain ⟨full, named⟩ := each word (by simp)
  obtain ⟨byte, word, rfl⟩ := exists_cons_of_ne_nil full
  have plain : ∀ other ∈ (joinWords space ((byte :: word) :: rest)).head?, other ∉ quotes := by
    rw [joined]
    intro other first
    obtain rfl : byte = other := by simpa using first
    exact not_mem_quotes (named byte (by simp))
  rw [unquote_of_head plain, nonEmpty, if_neg]
  simp [joined]

end

theorem name_read (isName : IsName word) : nonEmpty (unquote word) = some word := by
  have single : ∀ other ∈ [word], IsName other := by
    intro other mem
    exact mem_singleton.mp mem ▸ isName
  exact joinWords_read single (by simp)

def OneLine (text : List UInt8) : Prop :=
  0 ∉ text ∧ ∀ byte ∈ text, isNewline byte = false

theorem IsName.oneLine (isName : IsName word) : OneLine word := by
  refine ⟨fun mem => ?_, fun byte mem => not_isNewline (isName.2 byte mem)⟩
  have named := isName.2 0 mem
  revert named
  decide

theorem LineText.oneLine (text : LineText) : OneLine text.bytes := ⟨text.terminated, text.single⟩

theorem printFlag_isName (flag : Bool) : IsName (printFlag flag) := by
  cases flag
  · exact ⟨by decide, by decide⟩
  · exact ⟨by decide, by decide⟩

theorem joinWords_oneLine (each : ∀ word ∈ words, IsName word) : OneLine (joinWords space words) := by
  refine ⟨fun mem => ?_, joinWords_single each⟩
  rcases mem_joinWords mem with same | ⟨word, among, inside⟩
  · exact absurd same (by decide)
  · exact (each word among).oneLine.1 inside

abbrev Fields := List (String × Option (List UInt8))

def fieldsText (fields : Fields) : List UInt8 :=
  fields.flatMap fun field => optionalAssignment field.1 field.2

def RecordKeys (keys : List String) : Prop :=
  (∀ key ∈ keys, EnvKey (ascii key) ∧ 0 ∉ ascii key) ∧ (keys.map ascii).Nodup

instance (keys : List String) : Decidable (RecordKeys keys) := by
  unfold RecordKeys
  infer_instance

def fieldValue (value : Option (List UInt8)) : Option (List UInt8) :=
  value.bind fun text => nonEmpty (unquote text)

section

variable {fields : Fields}

theorem fieldsText_terminated (recordKeys : RecordKeys (fields.map Prod.fst))
    (values : ∀ field ∈ fields, ∀ text ∈ field.2, OneLine text) : 0 ∉ header ++ fieldsText fields := by
  have separator : (0 : UInt8) ≠ equalsSign := by decide
  have ending : (0 : UInt8) ≠ newline := by decide
  have comment : 0 ∉ header := by decide
  rw [mem_append, not_or, fieldsText, mem_flatMap]
  refine ⟨comment, ?_⟩
  rintro ⟨⟨key, value⟩, mem, inside⟩
  have own := (recordKeys.1 key (mem_map_of_mem mem)).2
  cases value with
  | none => simp [optionalAssignment] at inside
  | some text =>
    have visible := (values _ mem text rfl).1
    simp [optionalAssignment, assignment, own, visible, separator, ending] at inside

variable {keys : List (List UInt8)}

theorem found_fieldsText (each : ∀ key ∈ keys, EnvKey key)
    (recordKeys : ∀ field ∈ fields, EnvKey (ascii field.1))
    (values : ∀ field ∈ fields, ∀ text ∈ field.2, OneLine text) (rest : List UInt8) :
    found keys (fieldsText fields ++ rest) =
      (fields.flatMap fun field => if ascii field.1 ∈ keys then
        field.2.toList.map fun text => (ascii field.1, nonEmpty (unquote text)) else []) ++
        found keys rest := by
  induction fields with
  | nil => rfl
  | cons field fields ih =>
    rw [forall_mem_cons] at recordKeys values
    rw [fieldsText, flatMap_cons, append_assoc, ← fieldsText,
      found_optionalAssignment each recordKeys.1 fun text given => (values.1 text given).2,
      ih recordKeys.2 values.2, flatMap_cons, append_assoc]

theorem foldl_update_other {key : List UInt8} {assignments : List (List UInt8 × Option (List UInt8))}
    (others : ∀ assignment ∈ assignments, assignment.1 ≠ key) (values : List UInt8 -> Option (List UInt8)) :
    assignments.foldl (fun values assignment => update values assignment.1 assignment.2) values key =
      values key := by
  induction assignments generalizing values with
  | nil => rfl
  | cons assignment assignments ih =>
    rw [forall_mem_cons] at others
    rw [foldl_cons, ih others.2, update_of_ne others.1.symm]

theorem parseEnvFile_fields (each : ∀ key ∈ keys, EnvKey key)
    (recordKeys : RecordKeys (fields.map Prod.fst))
    (values : ∀ field ∈ fields, ∀ text ∈ field.2, OneLine text) {key : String}
    {value : Option (List UInt8)} (mem : (key, value) ∈ fields) (wanted : ascii key ∈ keys) :
    parseEnvFile keys (.ofBuffer (header ++ fieldsText fields)) (ascii key) = fieldValue value := by
  rw [parseEnvFile_eq each (fieldsText_terminated recordKeys values), found_header]
  have isKey : ∀ field ∈ fields, EnvKey (ascii field.1) :=
    fun field inside => (recordKeys.1 field.1 (mem_map_of_mem inside)).1
  have whole := found_fieldsText each isKey values []
  rw [append_nil, found_nil, append_nil] at whole
  rw [whole]
  -- The one field of this name splits the record in two parts that do not mention it.
  obtain ⟨front, back, rfl⟩ := append_of_mem mem
  have nodup := recordKeys.2
  rw [List.map_map, List.map_append, List.map_cons, List.nodup_middle, List.nodup_cons,
    ← List.map_append] at nodup
  have distinct : ∀ field ∈ front ++ back, ascii field.1 ≠ ascii key :=
    fun field inside same => nodup.1 (mem_map.mpr ⟨field, inside, same⟩)
  have other : ∀ part : Fields, part ⊆ front ++ back -> ∀ assignment ∈ part.flatMap (fun field =>
      if ascii field.1 ∈ keys then field.2.toList.map fun text => (ascii field.1, nonEmpty (unquote text))
      else []), assignment.1 ≠ ascii key := by
    intro part within assignment inside
    obtain ⟨field, among, inside⟩ := mem_flatMap.mp inside
    split_ifs at inside
    · obtain ⟨text, -, rfl⟩ := mem_map.mp inside
      exact distinct field (within among)
    · simp at inside
  rw [flatMap_append, flatMap_cons, foldl_append, foldl_append,
    foldl_update_other (other back (subset_append_right _ _)), if_pos wanted]
  cases value with
  | none =>
    rw [toList_none, map_nil, foldl_nil,
      foldl_update_other (other front (subset_append_left _ _))]
    rfl
  | some text =>
    rw [toList_some, map_singleton, foldl_cons, foldl_nil, update_self]
    rfl

end

theorem fieldValue_name (named : ∀ text ∈ value, IsName text) : fieldValue value = value := by
  cases value with
  | none => rfl
  | some text => exact name_read (named text rfl)

def listValue (words : List (List UInt8)) : Option (List UInt8) :=
  if words = [] then none else some (joinWords space words)

theorem listAssignment_eq (key : String) (word : Identifier -> List UInt8) (nonempty : sessions ≠ []) :
    listAssignment key (fun id => some (word id)) sessions =
      optionalAssignment key (listValue (sessions.map word)) := by
  rw [listAssignment_some (fun _ _ => rfl) nonempty key, listValue, if_neg (by simpa using nonempty)]
  rfl

theorem listValue_oneLine (each : ∀ word ∈ words, IsName word) :
    ∀ text ∈ listValue words, OneLine text := by
  intro text given
  rw [listValue] at given
  split_ifs at given
  · cases given
  · obtain rfl : joinWords space words = text := by simpa using given
    exact joinWords_oneLine each

theorem fieldValue_list (each : ∀ word ∈ words, IsName word) :
    fieldValue (listValue words) = listValue words := by
  rw [listValue]
  split_ifs with empty
  · rfl
  · exact joinWords_read each empty

def enoent : Int := 2

def eio : Int := 5

def readVariable (key : String) (contents : List UInt8) : Option (List UInt8) :=
  parseEnvFile [ascii key] (.ofBuffer contents) (ascii key)

theorem splitWords_whitespace (each : ∀ word ∈ words, IsName word) :
    splitWords whitespace ((joinWords space words).length + 1) (joinWords space words) = words :=
  splitWords_joinWords (by decide) words (fun word mem => (each word mem).isWord) _
    (length_lt_joinWords space fun word mem => (each word mem).1)

theorem readVariable_fields {fields : Fields} (recordKeys : RecordKeys (fields.map Prod.fst))
    (values : ∀ field ∈ fields, ∀ text ∈ field.2, OneLine text) {key : String}
    (mem : (key, value) ∈ fields) :
    readVariable key (header ++ fieldsText fields) = fieldValue value := by
  have isKey := (recordKeys.1 key (mem_map_of_mem mem)).1
  exact parseEnvFile_fields (by simpa using isKey) recordKeys values mem (by simp)

theorem readVariable_open {fields : Fields} (recordKeys : RecordKeys (fields.map Prod.fst))
    (values : ∀ field ∈ fields, ∀ text ∈ field.2, OneLine text)
    (closed : contents ++ [newline] = header ++ fieldsText fields) {key : String}
    (mem : (key, value) ∈ fields) : readVariable key contents = fieldValue value := by
  have isKey : ∀ other ∈ [ascii key], EnvKey other := by
    simpa using (recordKeys.1 key (mem_map_of_mem mem)).1
  have terminated := fieldsText_terminated recordKeys values
  have same : found [ascii key] (contents ++ [newline]) = found [ascii key] contents := by
    rw [found, fileLines, splitOnP_append_cons _ _ isNewline_newline, flatMap_append]
    exact append_nil _
  rw [← closed] at terminated
  have whole : 0 ∉ contents := fun mem => terminated (mem_append_left _ mem)
  rw [← readVariable_fields recordKeys values mem, ← closed, readVariable, readVariable,
    parseEnvFile_eq isKey whole, parseEnvFile_eq isKey terminated, same]

end Systemd.Logins
