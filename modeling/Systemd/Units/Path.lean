import Mathlib.Data.List.DropRight
import Systemd.Units.Name

set_option autoImplicit false

namespace Systemd

open List Option

def strchr (bytes : List UInt8) (byte : UInt8) : Option Nat :=
  bytes.idxOf? byte

def strrchr (bytes : List UInt8) (byte : UInt8) : Option Nat :=
  (bytes.reverse.idxOf? byte).map (fun behind => bytes.length - 1 - behind)

variable {byte : UInt8} {bytes back front : List UInt8}

theorem strchr_none (absent : byte ∉ bytes) : strchr bytes byte = none := by
  simpa [strchr, List.idxOf?, findIdx?_eq_none_iff] using
    fun other mem (same : other = byte) => absent (same ▸ mem)

theorem strchr_first (absent : byte ∉ front) :
    strchr (front ++ byte :: back) byte = some front.length := by
  have missing := strchr_none absent
  simp only [strchr, List.idxOf?] at missing ⊢
  rw [findIdx?_append, missing]
  simp [findIdx?_cons]

theorem strchr_split {i : Nat} (found : strchr bytes byte = some i) :
    byte ∉ bytes.take i ∧ bytes.take (i + 1) = bytes.take i ++ [byte] := by
  rw [strchr, List.idxOf?, findIdx?_eq_some_iff_getElem] at found
  obtain ⟨inside, here, before⟩ := found
  constructor
  · intro mem
    obtain ⟨j, short, same⟩ := mem_take_iff_getElem.mp mem
    have earlier := before j (by omega)
    simp [same] at earlier
  · have same : bytes[i] = byte := by simpa using here
    rw [take_succ_eq_append_getElem inside, same]

theorem strrchr_last (absent : byte ∉ back) :
    strrchr (front ++ byte :: back) byte = some front.length := by
  have turned : (front ++ byte :: back).reverse = back.reverse ++ byte :: front.reverse := by simp
  have position : (front ++ byte :: back).reverse.idxOf? byte = some back.reverse.length := by
    rw [turned]
    exact strchr_first (by simpa using absent)
  simp only [strrchr, position, map_some, length_append, length_cons, length_reverse]
  congr 1
  omega

def strndup (bytes : List UInt8) (count : Nat) : List UInt8 :=
  bytes.take count

-- The state of the loop is the flag slash and the part of the array written
-- so far; it never runs ahead of the byte being read.
def killSlashesLoop : List UInt8 -> Bool -> List UInt8 -> List UInt8 × Bool
  | [], slash, written => (written, slash)
  | byte :: rest, slash, written =>
    if byte = '/'.toUInt8 then
      killSlashesLoop rest true written
    else if slash then
      killSlashesLoop rest false (written ++ ['/'.toUInt8] ++ [byte])
    else
      killSlashesLoop rest false (written ++ [byte])

def pathKillSlashes (path : List UInt8) : List UInt8 :=
  let finished := killSlashesLoop path false []
  if finished.1 = [] ∧ finished.2 = true then
    ['/'.toUInt8]
  else
    finished.1

def unitNameBuildEscape (first : List UInt8) (instancePart : Option (List UInt8))
    (suffix : List UInt8) : List UInt8 :=
  match instancePart with
  | some part => doEscape first ++ ['@'.toUInt8] ++ doEscape part ++ suffix
  | none => doEscape first ++ suffix

-- The part of the path behind its leading slash.
def relativePath (path : List UInt8) : List UInt8 :=
  let killed := pathKillSlashes path
  if killed.head? = some '/'.toUInt8 then killed.drop 1 else killed

def nameFromPath (path suffix : List UInt8) : List UInt8 :=
  if relativePath path = [] then
    ['-'.toUInt8] ++ suffix
  else
    unitNameBuildEscape (relativePath path) none suffix

theorem nameFromPath_terminated (path suffix : CString) : 0 ∉ nameFromPath path.bytes suffix.bytes := by
  have dash : (0 : UInt8) ≠ '-'.toUInt8 := by decide
  unfold nameFromPath
  split_ifs
  · simp [suffix.terminated, dash]
  · simp [unitNameBuildEscape, doEscape_terminated, suffix.terminated]

def unitNameFromPath (path suffix : CString) : CString where
  bytes := nameFromPath path.bytes suffix.bytes
  terminated := nameFromPath_terminated path suffix

-- none stands for the failing assertion that the name has a dot.
def unitNameToPrefixAndInstance (name : List UInt8) : Option (List UInt8) :=
  (strrchr name '.'.toUInt8).map (strndup name)

def unitNameToPrefix (name : List UInt8) : Option (List UInt8) :=
  match strchr name '@'.toUInt8 with
  | some position => some (strndup name position)
  | none => unitNameToPrefixAndInstance name

def addLeadingSlash (bytes : List UInt8) : List UInt8 :=
  if bytes.head? = some '/'.toUInt8 then bytes else '/'.toUInt8 :: bytes

def unitNameToPath (name : CString) : Option CString :=
  (unitNameToPrefix name.bytes).map fun front =>
    CString.ofBuffer (addLeadingSlash (unitNameUnescape (CString.ofBuffer front)).bytes)

-- The normal form of a path, in the words of its description.
def removeRepeatedSlashes : List UInt8 -> List UInt8
  | [] => []
  | byte :: rest =>
    if byte = '/'.toUInt8 ∧ rest.head? = some '/'.toUInt8 then
      removeRepeatedSlashes rest
    else
      byte :: removeRepeatedSlashes rest

def removeTrailingSlashes (bytes : List UInt8) : List UInt8 :=
  bytes.rdropWhile (· == '/'.toUInt8)

def squeezed (path : List UInt8) : List UInt8 :=
  removeTrailingSlashes (removeRepeatedSlashes path)

def normalizedPath (path : List UInt8) : List UInt8 :=
  addLeadingSlash (squeezed path)

theorem removeTrailingSlashes_cons (other : byte ≠ '/'.toUInt8) (rest : List UInt8) :
    removeTrailingSlashes (byte :: rest) = byte :: removeTrailingSlashes rest := by
  induction rest using List.reverseRecOn with
  | nil => simp [removeTrailingSlashes, List.rdropWhile, other]
  | append_singleton front last ih =>
    simp only [removeTrailingSlashes] at ih ⊢
    rw [← cons_append, rdropWhile_concat, rdropWhile_concat]
    split_ifs
    · exact ih
    · rfl

theorem squeezed_cons_other (other : byte ≠ '/'.toUInt8) (rest : List UInt8) :
    squeezed (byte :: rest) = byte :: squeezed rest := by
  simp [squeezed, removeRepeatedSlashes, other, removeTrailingSlashes_cons]

theorem squeezed_slash_slash (rest : List UInt8) :
    squeezed ('/'.toUInt8 :: '/'.toUInt8 :: rest) = squeezed ('/'.toUInt8 :: rest) := by
  simp [squeezed, removeRepeatedSlashes]

theorem squeezed_slash : squeezed ['/'.toUInt8] = [] := by
  decide

theorem squeezed_slash_other (other : byte ≠ '/'.toUInt8) (rest : List UInt8) :
    squeezed ('/'.toUInt8 :: byte :: rest) = '/'.toUInt8 :: byte :: squeezed rest := by
  have lead : removeRepeatedSlashes ('/'.toUInt8 :: byte :: rest) =
      '/'.toUInt8 :: byte :: removeRepeatedSlashes rest := by
    simp [removeRepeatedSlashes, other]
  have kept := removeTrailingSlashes_cons other (removeRepeatedSlashes rest)
  simp only [squeezed, lead, removeTrailingSlashes, List.rdropWhile, reverse_cons] at kept ⊢
  rw [dropWhile_append]
  have nonempty : (List.dropWhile (· == '/'.toUInt8)
      ((removeRepeatedSlashes rest).reverse ++ [byte])).isEmpty = false := by
    rw [isEmpty_eq_false_iff]
    intro empty
    rw [empty] at kept
    simp at kept
  rw [nonempty, if_neg (by decide), reverse_append, kept]
  rfl

variable (path : List UInt8)

theorem killSlashesLoop_written (slash : Bool) (written : List UInt8) :
    (killSlashesLoop path slash written).1 =
      written ++ squeezed (if slash then '/'.toUInt8 :: path else path) := by
  induction path generalizing slash written with
  | nil =>
    cases slash
    · simp [killSlashesLoop, squeezed, removeRepeatedSlashes, removeTrailingSlashes]
    · simp [killSlashesLoop, squeezed_slash]
  | cons byte rest ih =>
    rw [killSlashesLoop]
    by_cases separator : byte = '/'.toUInt8
    · subst separator
      rw [if_pos rfl, ih]
      cases slash
      · simp
      · simp [squeezed_slash_slash]
    · rw [if_neg separator]
      cases slash
      · simp [ih, squeezed_cons_other separator]
      · simp [ih, squeezed_slash_other separator]

theorem squeezed_tail {path rest : List UInt8} (leading : squeezed path = '/'.toUInt8 :: rest) :
    rest ≠ [] ∧ rest.head? ≠ some '/'.toUInt8 := by
  induction path with
  | nil => simp [squeezed, removeRepeatedSlashes, removeTrailingSlashes] at leading
  | cons byte path ih =>
    by_cases separator : byte = '/'.toUInt8
    · subst separator
      cases path with
      | nil => simp [squeezed_slash] at leading
      | cons next path =>
        by_cases again : next = '/'.toUInt8
        · subst again
          rw [squeezed_slash_slash] at leading
          exact ih leading
        · rw [squeezed_slash_other again] at leading
          simp only [List.cons.injEq, true_and] at leading
          subst leading
          simp [again]
    · rw [squeezed_cons_other separator] at leading
      exact absurd (List.cons.inj leading).1 separator

theorem relativePath_eq :
    relativePath path =
      if (squeezed path).head? = some '/'.toUInt8 then (squeezed path).drop 1
      else squeezed path := by
  have written : (killSlashesLoop path false []).1 = squeezed path := by
    simpa using killSlashesLoop_written path false []
  simp only [relativePath, pathKillSlashes, written]
  by_cases root : squeezed path = [] ∧ (killSlashesLoop path false []).2 = true
  · simp [root.1, root.2]
  · simp [root]

theorem relativePath_head : (relativePath path).head? ≠ some '/'.toUInt8 := by
  rw [relativePath_eq]
  split_ifs with leading
  · cases shape : squeezed path with
    | nil => simp
    | cons byte rest =>
      rw [shape] at leading
      simp only [head?_cons, some.injEq] at leading
      subst leading
      simpa using (squeezed_tail shape).2
  · exact leading

theorem normalizedPath_eq : normalizedPath path = '/'.toUInt8 :: relativePath path := by
  rw [normalizedPath, addLeadingSlash, relativePath_eq]
  split_ifs with leading
  · cases shape : squeezed path with
    | nil => simp [shape] at leading
    | cons byte rest =>
      rw [shape] at leading
      simp only [head?_cons, some.injEq] at leading
      simp [leading]
  · rfl

def IsUnitSuffix (suffix : List UInt8) : Prop :=
  ∃ letters, suffix = '.'.toUInt8 :: letters ∧ '.'.toUInt8 ∉ letters ∧ '@'.toUInt8 ∉ letters

theorem unitNameToPrefix_append {suffix : List UInt8} (valid : ∀ byte ∈ front, byte ∈ validChars)
    (form : IsUnitSuffix suffix) : unitNameToPrefix (front ++ suffix) = some front := by
  obtain ⟨letters, rfl, noDot, noAt⟩ := form
  have frontFree : '@'.toUInt8 ∉ front := by
    intro mem
    have impossible := valid _ mem
    revert impossible
    decide
  have dot : '@'.toUInt8 ≠ '.'.toUInt8 := by decide
  have absent : '@'.toUInt8 ∉ front ++ '.'.toUInt8 :: letters := by
    simp [frontFree, noAt, dot]
  simp [unitNameToPrefix, strchr_none absent, unitNameToPrefixAndInstance, strrchr_last noDot,
    strndup]

def pathPrefix (path : List UInt8) : List UInt8 :=
  if relativePath path = [] then ['-'.toUInt8] else doEscape (relativePath path)

theorem nameFromPath_eq (suffix : List UInt8) :
    nameFromPath path suffix = pathPrefix path ++ suffix := by
  unfold nameFromPath pathPrefix
  split_ifs <;> rfl

theorem pathPrefix_valid (byte : UInt8) (mem : byte ∈ pathPrefix path) : byte ∈ validChars := by
  unfold pathPrefix at mem
  split_ifs at mem
  · rw [mem_singleton] at mem
    subst mem
    decide
  · exact doEscape_valid _ _ mem

theorem addLeadingSlash_unescape_pathPrefix :
    addLeadingSlash (unescapeLoop (pathPrefix path)) = normalizedPath path := by
  rw [normalizedPath_eq, pathPrefix]
  split_ifs with root
  · rw [root]
    simp [unescapeLoop, addLeadingSlash]
  · rw [unescapeLoop_doEscape, addLeadingSlash, if_neg (relativePath_head path)]

theorem removeRepeatedSlashes_sublist : (removeRepeatedSlashes path).Sublist path := by
  induction path with
  | nil => exact List.Sublist.refl _
  | cons byte rest ih =>
    rw [removeRepeatedSlashes]
    split_ifs
    · exact ih.cons byte
    · exact ih.cons_cons byte

theorem relativePath_terminated (path : CString) : 0 ∉ relativePath path.bytes := by
  intro mem
  have inside : (0 : UInt8) ∈ squeezed path.bytes := by
    rw [relativePath_eq] at mem
    split_ifs at mem
    · exact mem_of_mem_drop mem
    · exact mem
  have kept : (0 : UInt8) ∈ removeRepeatedSlashes path.bytes :=
    (List.rdropWhile_prefix _ _).subset inside
  exact path.terminated ((removeRepeatedSlashes_sublist path.bytes).subset kept)

theorem unescape_pathPrefix_terminated (path : CString) : 0 ∉ unescapeLoop (pathPrefix path.bytes) := by
  unfold pathPrefix
  split_ifs
  · simp only [unescapeLoop, if_true]
    decide
  · rw [unescapeLoop_doEscape]
    exact relativePath_terminated path

theorem unitNameToPath_unitNameFromPath (path suffix : CString) (form : IsUnitSuffix suffix.bytes) :
    (unitNameToPath (unitNameFromPath path suffix)).map CString.bytes =
      some (normalizedPath path.bytes) := by
  have front : unitNameToPrefix (unitNameFromPath path suffix).bytes =
      some (pathPrefix path.bytes) := by
    simp only [unitNameFromPath, nameFromPath_eq]
    exact unitNameToPrefix_append (pathPrefix_valid path.bytes) form
  have prefixTerminated : 0 ∉ pathPrefix path.bytes := by
    intro mem
    have valid := pathPrefix_valid path.bytes 0 mem
    revert valid
    decide
  have normalTerminated : 0 ∉ normalizedPath path.bytes := by
    rw [normalizedPath_eq, mem_cons, not_or]
    exact ⟨by decide, relativePath_terminated path⟩
  simp only [unitNameToPath, front, map_some, unitNameUnescape,
    CString.ofBuffer_bytes prefixTerminated,
    CString.ofBuffer_bytes (unescape_pathPrefix_terminated path),
    addLeadingSlash_unescape_pathPrefix, CString.ofBuffer_bytes normalTerminated]

theorem unitNameFromPath_eq_iff (first second suffix : CString) (form : IsUnitSuffix suffix.bytes) :
    unitNameFromPath first suffix = unitNameFromPath second suffix ↔
      normalizedPath first.bytes = normalizedPath second.bytes := by
  constructor
  · intro same
    have decoded := unitNameToPath_unitNameFromPath first suffix form
    rw [same, unitNameToPath_unitNameFromPath second suffix form] at decoded
    exact (some.inj decoded).symm
  · intro same
    have relative : relativePath first.bytes = relativePath second.bytes := by
      rw [normalizedPath_eq, normalizedPath_eq] at same
      exact (List.cons.inj same).2
    apply CString.eq_of_bytes
    simp only [unitNameFromPath, nameFromPath, relative]

theorem paths_survive_naming (suffix : CString) (form : IsUnitSuffix suffix.bytes) :
    (∀ path : CString, (unitNameToPath (unitNameFromPath path suffix)).map CString.bytes =
      some (normalizedPath path.bytes)) ∧
    (∀ first second : CString,
      unitNameFromPath first suffix = unitNameFromPath second suffix ↔
        normalizedPath first.bytes = normalizedPath second.bytes) :=
  ⟨fun path => unitNameToPath_unitNameFromPath path suffix form,
    fun first second => unitNameFromPath_eq_iff first second suffix form⟩

theorem mount_paths_survive_naming :
    IsUnitSuffix (CString.ofString ".mount").bytes ∧
    (unitNameToPath (unitNameFromPath (CString.ofString "//a-b/.c//") (CString.ofString ".mount"))).map
      CString.bytes = some (CString.ofString "/a-b/.c").bytes := by
  have form : IsUnitSuffix (CString.ofString ".mount").bytes :=
    ⟨"mount".toList.map Char.toUInt8, by decide, by decide, by decide⟩
  refine ⟨form, ?_⟩
  rw [(paths_survive_naming (CString.ofString ".mount") form).1]
  decide

end Systemd
