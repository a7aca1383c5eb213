import Mathlib.Data.List.Find
import Mathlib.Logic.Function.Basic
import Systemd.Basic.Lines

set_option autoImplicit false

namespace Systemd

open List Function

def newlines : List UInt8 := "\n\r".toList.map Char.toUInt8

def isNewline (byte : UInt8) : Bool := newlines.contains byte

def comments : List UInt8 := "#;\n".toList.map Char.toUInt8

def quotes : List UInt8 := "\"'".toList.map Char.toUInt8

def unquote (value : List UInt8) : List UInt8 :=
  if 2 ≤ value.length ∧ (∃ byte ∈ value.head?, byte ∈ quotes) ∧ value.getLast? = value.head? then
    value.tail.dropLast
  else
    value

-- An empty value is NULL.
def nonEmpty (value : List UInt8) : Option (List UInt8) :=
  if value = [] then none else some value

def assigns (p key : List UInt8) : Bool := (key ++ [equalsSign]).isPrefixOf p

def envLoop (keys : List (List UInt8)) : Nat -> List UInt8 ->
    List (List UInt8 × Option (List UInt8))
  | 0, _ => []
  | fuel + 1, p =>
    match (p.dropWhile isNewline).dropWhile isWhitespace with
    | [] => []
    | byte :: p =>
      let line := byte :: p
      match if byte ∈ comments then none else keys.find? (assigns line) with
      | none => envLoop keys fuel (line.dropWhile fun byte => !isNewline byte)
      | some key =>
        let rest := line.drop (key.length + 1)
        (key, nonEmpty (unquote (rest.takeWhile fun byte => !isNewline byte))) ::
          envLoop keys fuel (rest.dropWhile fun byte => !isNewline byte)

def envAssignments (keys : List (List UInt8)) (contents : CString) :
    List (List UInt8 × Option (List UInt8)) :=
  envLoop keys (contents.bytes.length + 1) contents.bytes

-- The values are NULL when the file is read.
def parseEnvFile (keys : List (List UInt8)) (contents : CString) : List UInt8 -> Option (List UInt8) :=
  (envAssignments keys contents).foldl (fun values assignment =>
    update values assignment.1 assignment.2) fun _ => none

def envLine (keys : List (List UInt8)) (line : List UInt8) : List (List UInt8 × Option (List UInt8)) :=
  match line.dropWhile isWhitespace with
  | [] => []
  | byte :: p =>
    match if byte ∈ comments then none else keys.find? (assigns (byte :: p)) with
    | none => []
    | some key => [(key, nonEmpty (unquote ((byte :: p).drop (key.length + 1))))]

def fileLines (bytes : List UInt8) : List (List UInt8) := bytes.splitOnP isNewline

section

variable {keys : List (List UInt8)}

variable {byte : UInt8} {line rest key : List UInt8}

theorem isWhitespace_of_isNewline (here : isNewline byte = true) : isWhitespace byte = true := by
  have all : ∀ byte ∈ newlines, isWhitespace byte = true := by decide
  exact all byte (by simpa [isNewline] using here)

variable (bytes : List UInt8)

theorem skip_eq :
    (bytes.dropWhile isNewline).dropWhile isWhitespace = bytes.dropWhile isWhitespace := by
  induction bytes with
  | nil => rfl
  | cons byte rest ih =>
    by_cases here : isNewline byte = true
    · simp [here, isWhitespace_of_isNewline here, ih]
    · simp [here]

def PlainKeys (keys : List (List UInt8)) : Prop :=
  ∀ key ∈ keys, ∀ byte ∈ key, isNewline byte = false

theorem equalsSign_not_newline : isNewline equalsSign = false := by decide

theorem takeWhile_line (plain : ∀ byte ∈ line, isNewline byte = false)
    (ends : ∀ byte ∈ rest.head?, isNewline byte = true) :
    (line ++ rest).takeWhile (fun byte => !isNewline byte) = line ∧
      (line ++ rest).dropWhile (fun byte => !isNewline byte) = rest := by
  have inside : ∀ byte ∈ line, (!isNewline byte) = true := by
    intro byte mem
    simp [plain byte mem]
  rw [takeWhile_append_of_pos inside, dropWhile_append_of_pos inside]
  cases rest with
  | nil => simp
  | cons byte rest =>
    have here : isNewline byte = true := ends byte rfl
    simp [here]

theorem length_le_of_assigns (found : assigns line key = true) : key.length + 1 ≤ line.length := by
  rw [assigns, isPrefixOf_iff_prefix] at found
  simpa using found.length_le

theorem assigns_append (ends : ∀ byte ∈ rest.head?, isNewline byte = true)
    (plain : ∀ byte ∈ key, isNewline byte = false) : assigns (line ++ rest) key = assigns line key := by
  rw [Bool.eq_iff_iff, assigns, assigns, isPrefixOf_iff_prefix, isPrefixOf_iff_prefix]
  constructor
  · intro found
    rcases prefix_or_prefix_of_prefix found (prefix_append line rest) with within | beyond
    · exact within
    · -- The key reaches over the end of the line, so it holds the newline there.
      obtain ⟨tail, split⟩ := beyond
      cases tail with
      | nil =>
        rw [append_nil] at split
        exact split ▸ prefix_rfl
      | cons byte tail =>
        rw [← split, prefix_append_right_inj] at found
        have first : byte ∈ rest.head? := by
          obtain ⟨after, whole⟩ := found
          rw [← whole]
          rfl
        have inside : byte ∈ key ++ [equalsSign] := by
          rw [← split]
          simp
        have outside : isNewline byte = false := by
          rcases mem_append.mp inside with own | last
          · exact plain byte own
          · rw [mem_singleton.mp last]
            exact equalsSign_not_newline
        rw [ends byte first] at outside
        contradiction
  · intro found
    exact found.trans (prefix_append line rest)

theorem fileLines_cons_newline (ends : isNewline byte = true) (rest : List UInt8) :
    fileLines (byte :: rest) = [] :: fileLines rest := by
  rw [fileLines, splitOnP_cons_eq_if_modifyHead, if_pos ends]
  rfl

theorem fileLines_line (plain : ∀ byte ∈ line, isNewline byte = false) (ends : isNewline byte = true)
    (rest : List UInt8) : fileLines (line ++ byte :: rest) = line :: fileLines rest :=
  splitOnP_append_cons_of_forall_mem plain byte ends rest

theorem fileLines_single (plain : ∀ byte ∈ line, isNewline byte = false) : fileLines line = [line] :=
  splitOnP_eq_singleton plain

theorem envLine_nil : envLine keys [] = [] := rfl

theorem envLine_cons (blank : isWhitespace byte = true) (line : List UInt8) :
    envLine keys (byte :: line) = envLine keys line := by
  rw [envLine, envLine, dropWhile_cons_of_pos blank]

theorem flatMap_fileLines_skip :
    (fileLines bytes).flatMap (envLine keys) =
      (fileLines (bytes.dropWhile isWhitespace)).flatMap (envLine keys) := by
  induction bytes with
  | nil => rfl
  | cons byte rest ih =>
    by_cases blank : isWhitespace byte = true
    · rw [dropWhile_cons_of_pos blank, ← ih]
      by_cases ends : isNewline byte = true
      · rw [fileLines_cons_newline ends, flatMap_cons, envLine_nil, nil_append]
      · rw [fileLines, splitOnP_cons_eq_if_modifyHead, if_neg ends, ← fileLines]
        cases lines : fileLines rest with
        | nil => exact absurd lines (splitOnP_ne_nil _ _)
        | cons line others =>
          rw [modifyHead_cons, flatMap_cons, flatMap_cons, envLine_cons blank]
    · rw [dropWhile_cons_of_neg blank]

theorem line_split :
    ∃ line rest, bytes = line ++ rest ∧ (∀ byte ∈ line, isNewline byte = false) ∧
      (∀ byte ∈ rest.head?, isNewline byte = true) := by
  refine ⟨bytes.takeWhile fun byte => !isNewline byte, bytes.dropWhile fun byte => !isNewline byte,
    takeWhile_append_dropWhile.symm, ?_, ?_⟩
  · intro byte mem
    simpa using mem_takeWhile_imp mem
  · intro byte first
    have stops := head?_dropWhile_not (fun byte => !isNewline byte) bytes
    rw [Option.mem_def.mp first] at stops
    simpa using stops

theorem flatMap_fileLines_line (plain : ∀ byte ∈ line, isNewline byte = false)
    (ends : ∀ byte ∈ rest.head?, isNewline byte = true) :
    (fileLines (line ++ rest)).flatMap (envLine keys) =
      envLine keys line ++ (fileLines rest).flatMap (envLine keys) := by
  cases rest with
  | nil =>
    rw [append_nil, fileLines_single plain]
    rfl
  | cons byte rest =>
    have here : isNewline byte = true := ends byte rfl
    rw [fileLines_line plain here, fileLines_cons_newline here, flatMap_cons,
      flatMap_cons, envLine_nil, nil_append]

theorem find_append (plainKeys : PlainKeys keys) (ends : ∀ byte ∈ rest.head?, isNewline byte = true) :
    keys.find? (assigns (line ++ rest)) = keys.find? (assigns line) := by
  apply find?_congr
  intro key mem
  exact assigns_append ends (plainKeys key mem)

theorem envLoop_eq (plainKeys : PlainKeys keys) (fuel : Nat) (bytes : List UInt8)
    (enough : bytes.length < fuel) :
    envLoop keys fuel bytes = (fileLines bytes).flatMap (envLine keys) := by
  induction fuel generalizing bytes with
  | zero => simp at enough
  | succ fuel ih =>
    rw [flatMap_fileLines_skip, envLoop, skip_eq]
    have shorter := (dropWhile_suffix isWhitespace (l := bytes)).length_le
    have stops := head?_dropWhile_not isWhitespace bytes
    generalize bytes.dropWhile isWhitespace = current at shorter stops ⊢
    cases current with
    | nil => rfl
    | cons byte p =>
      have visible : isWhitespace byte = false := by simpa using stops
      have solid : isNewline byte = false := by
        by_contra ends
        rw [isWhitespace_of_isNewline (by simpa using ends)] at visible
        contradiction
      obtain ⟨line, rest, rfl, plain, ends⟩ := line_split p
      have plainLine : ∀ other ∈ byte :: line, isNewline other = false :=
        forall_mem_cons.mpr ⟨solid, plain⟩
      simp only [length_cons, length_append] at shorter
      have later := ih rest (by omega)
      rw [← cons_append, flatMap_fileLines_line plainLine ends, ← later]
      simp only [envLine, dropWhile_cons_of_neg (show ¬isWhitespace byte = true by simp [visible]),
        cons_append]
      rw [← cons_append, find_append plainKeys ends]
      cases found : if byte ∈ comments then none else keys.find? (assigns (byte :: line)) with
      | none =>
        simp only [(takeWhile_line plainLine ends).2]
        rfl
      | some key =>
        have matched : assigns (byte :: line) key = true := by
          by_cases comment : byte ∈ comments
          · rw [if_pos comment] at found
            contradiction
          · rw [if_neg comment] at found
            exact find?_some found
        have room := length_le_of_assigns matched
        have value : ∀ other ∈ (byte :: line).drop (key.length + 1), isNewline other = false :=
          fun other mem => plainLine other (mem_of_mem_drop mem)
        simp only [drop_append_of_le_length room, (takeWhile_line value ends).1,
          (takeWhile_line value ends).2]
        rfl

end

variable {keys : List (List UInt8)} {key value line : List UInt8}

theorem envAssignments_eq (plainKeys : PlainKeys keys) (contents : CString) :
    envAssignments keys contents = (fileLines contents.bytes).flatMap (envLine keys) :=
  envLoop_eq plainKeys _ contents.bytes (by omega)

def EnvKey (key : List UInt8) : Prop :=
  Plain key ∧ ∀ byte ∈ key.head?, byte ∉ comments

instance (key : List UInt8) : Decidable (EnvKey key) := by
  unfold EnvKey Plain
  infer_instance

theorem EnvKey.plain (isKey : EnvKey key) : ∀ byte ∈ key, isNewline byte = false := by
  intro byte mem
  by_contra ends
  have blank := isWhitespace_of_isNewline (by simpa using ends)
  rw [(isKey.1.2 byte mem).2] at blank
  contradiction

theorem plainKeys_of_envKeys (each : ∀ key ∈ keys, EnvKey key) : PlainKeys keys :=
  fun key mem => (each key mem).plain

theorem takeWhile_key (isKey : EnvKey key) (value : List UInt8) :
    (key ++ equalsSign :: value).takeWhile (· != equalsSign) = key := by
  have inside : ∀ byte ∈ key, (byte != equalsSign) = true :=
    fun byte mem => by simpa using (isKey.1.2 byte mem).1
  rw [takeWhile_append_of_pos inside]
  simp

theorem assigns_assignment {other : List UInt8} (isKey : EnvKey key) (isOther : EnvKey other)
    (value : List UInt8) : assigns (key ++ equalsSign :: value) other = decide (other = key) := by
  rw [Bool.eq_iff_iff, assigns, isPrefixOf_iff_prefix, decide_eq_true_iff]
  constructor
  · rintro ⟨tail, whole⟩
    rw [append_assoc, singleton_append] at whole
    have names := congrArg (List.takeWhile (· != equalsSign)) whole
    rwa [takeWhile_key isOther, takeWhile_key isKey] at names
  · rintro rfl
    exact ⟨value, by simp⟩

section

variable {keys : List (List UInt8)} (each : ∀ key ∈ keys, EnvKey key)

include each in
theorem envLine_assignment (isKey : EnvKey key) (value : List UInt8) :
    envLine keys (key ++ equalsSign :: value) =
      if key ∈ keys then [(key, nonEmpty (unquote value))] else [] := by
  have found : keys.find? (assigns (key ++ equalsSign :: value)) = if key ∈ keys then some key else none := by
    rw [find?_congr fun other mem => assigns_assignment isKey (each other mem) value]
    split_ifs with mem
    · rw [find?_eq_some_iff_append]
      obtain ⟨front, back, rfl, fresh⟩ := eq_append_cons_of_mem mem
      refine ⟨by simp, front, back, rfl, ?_⟩
      intro other inside
      have distinct : other ≠ key := fun same => fresh (same ▸ inside)
      simpa using distinct
    · rw [find?_eq_none]
      intro other inside
      have distinct : other ≠ key := fun same => mem (same ▸ inside)
      simpa using distinct
  obtain ⟨⟨full, inside⟩, visible⟩ := isKey
  cases key with
  | nil => exact absurd rfl full
  | cons byte key =>
    have shown : ¬isWhitespace byte = true := by simp [(inside byte (by simp)).2]
    have text : byte ∉ comments := visible byte rfl
    rw [cons_append] at found ⊢
    rw [envLine, dropWhile_cons_of_neg shown]
    simp only [if_neg text, found]
    split_ifs with mem
    · have value : (byte :: (key ++ equalsSign :: value)).drop ((byte :: key).length + 1) = value := by
        rw [← cons_append, drop_append]
        simp
      simp only [value]
    · rfl

end

theorem unquote_subset (value : List UInt8) : unquote value ⊆ value := by
  rw [unquote]
  split_ifs
  · intro byte mem
    exact mem_of_mem_tail ((dropLast_sublist _).subset mem)
  · exact List.Subset.refl value

theorem nonEmpty_eq_some {text : List UInt8} :
    nonEmpty value = some text ↔ value = text ∧ text ≠ [] := by
  rw [nonEmpty]
  split_ifs with empty
  · simp only [false_iff, not_and, not_not]
    rintro rfl
    exact empty
  · simp only [Option.some.injEq]
    constructor
    · rintro rfl
      exact ⟨rfl, empty⟩
    · exact And.left

theorem mem_fileLines {bytes : List UInt8} (mem : line ∈ fileLines bytes) :
    (∀ byte ∈ line, isNewline byte = false) ∧ line ⊆ bytes := by
  induction bytes generalizing line with
  | nil =>
    obtain rfl : line = [] := by simpa [fileLines] using mem
    simp
  | cons byte rest ih =>
    by_cases ends : isNewline byte = true
    · rw [fileLines_cons_newline ends, mem_cons] at mem
      rcases mem with rfl | later
      · simp
      · exact ⟨(ih later).1, subset_cons_of_subset _ (ih later).2⟩
    · rw [fileLines, splitOnP_cons_eq_if_modifyHead, if_neg ends, ← fileLines] at mem
      cases lines : fileLines rest with
      | nil => exact absurd lines (splitOnP_ne_nil _ _)
      | cons first others =>
        rw [lines] at ih
        rw [lines, modifyHead_cons, mem_cons] at mem
        rcases mem with rfl | later
        · obtain ⟨plain, within⟩ := ih mem_cons_self
          refine ⟨forall_mem_cons.mpr ⟨by simpa using ends, plain⟩, ?_⟩
          exact cons_subset_cons byte within
        · obtain ⟨plain, within⟩ := ih (mem_cons_of_mem _ later)
          exact ⟨plain, subset_cons_of_subset _ within⟩

theorem mem_envLine (mem : (key, some value) ∈ envLine keys line) : value ≠ [] ∧ value ⊆ line := by
  rw [envLine] at mem
  have within := (dropWhile_suffix isWhitespace (l := line)).subset
  generalize line.dropWhile isWhitespace = current at mem within
  cases current with
  | nil => cases mem
  | cons byte p =>
    cases found : if byte ∈ comments then none else keys.find? (assigns (byte :: p)) with
    | none => simp [found] at mem
    | some name =>
      simp only [found, mem_singleton, Prod.mk.injEq] at mem
      obtain ⟨same, full⟩ := nonEmpty_eq_some.mp mem.2.symm
      refine ⟨full, ?_⟩
      intro byte inside
      rw [← same] at inside
      exact within (mem_of_mem_drop (unquote_subset _ inside))

theorem foldl_update_some {assignments : List (List UInt8 × Option (List UInt8))}
    {values : List UInt8 -> Option (List UInt8)} (missing : values key = none) (given : assignments.foldl
      (fun values assignment => update values assignment.1 assignment.2) values key = some
      value) : (key, some value) ∈ assignments := by
  induction assignments using List.reverseRecOn with
  | nil =>
    rw [foldl_nil, missing] at given
    cases given
  | append_singleton assignments assignment ih =>
    rw [foldl_append, foldl_cons, foldl_nil] at given
    by_cases own : key = assignment.1
    · rw [own, update_self] at given
      rw [own, ← given]
      simp
    · rw [update_of_ne own] at given
      exact mem_append_left _ (ih given)

theorem parseEnvFile_value (plainKeys : PlainKeys keys) {contents : CString}
    (given : parseEnvFile keys contents key = some value) :
    value ≠ [] ∧ 0 ∉ value ∧ ∀ byte ∈ value, isNewline byte = false := by
  have mem := foldl_update_some rfl given
  rw [envAssignments_eq plainKeys, mem_flatMap] at mem
  obtain ⟨line, among, inside⟩ := mem
  obtain ⟨full, within⟩ := mem_envLine inside
  obtain ⟨plain, part⟩ := mem_fileLines among
  exact ⟨full, fun zero => contents.terminated (part (within zero)), fun byte here => plain byte (within here)⟩

/-- The scanner sees the lines one by one, and the last one for a key counts. -/
theorem parseEnvFile_last (plainKeys : PlainKeys keys) (contents : CString) (key : List UInt8) :
    parseEnvFile keys contents key =
      (((fileLines contents.bytes).flatMap (envLine keys)).findRev? (·.1 = key)).bind Prod.snd := by
  rw [parseEnvFile, envAssignments_eq plainKeys]
  induction (fileLines contents.bytes).flatMap (envLine keys) using List.reverseRecOn with
  | nil => rfl
  | append_singleton front last ih =>
    by_cases same : last.1 = key
    · simp [same]
    · simpa [same, update_of_ne (Ne.symm same)] using ih

theorem twice_last : parseEnvFile [[65]] (.ofString "A=1\nA=\"2\"") [65] = some [50] := by
  rw [parseEnvFile_last (by unfold PlainKeys; decide)]
  rfl

end Systemd
