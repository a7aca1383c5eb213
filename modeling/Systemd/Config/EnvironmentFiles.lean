import Systemd.Config.Lines

set_option autoImplicit false

namespace Systemd.Config

open List

def normalizeEnvAssignment (s : List UInt8) : List UInt8 :=
  if equalsSign ∈ s then
    s.takeWhile (· != equalsSign) ++ equalsSign :: unquote (strip ((s.dropWhile (· != equalsSign)).drop 1))
  else strip s

def loadEnvLine (l : List UInt8) : Option (List UInt8) :=
  match strip (CString.ofBuffer l).bytes with
  | [] => none
  | byte :: p => if byte ∈ comments then none else some (normalizeEnvAssignment (byte :: p))

def loadEnvLoop : Nat -> List UInt8 -> List (List UInt8)
  | 0, _ => []
  | fuel + 1, stream =>
    match fgets lineMax stream with
    | none => []
    | some (l, rest) => (loadEnvLine l).toList ++ loadEnvLoop fuel rest

def loadEnvFile (contents : List UInt8) : List (List UInt8) :=
  loadEnvLoop (contents.length + 1) contents

def writeEnvFile (l : List (List UInt8)) : List UInt8 :=
  l.flatMap fun i => i ++ [newline]

/-- An assignment that fits into a line. -/
structure EnvEntry where
  name : List UInt8
  value : List UInt8
  plain : Plain name
  uncommented : ∀ byte ∈ name.head?, byte ∉ comments
  single : 0 ∉ name ++ value ∧ newline ∉ value
  short : name.length + value.length + 2 < lineMax

namespace EnvEntry

def text (e : EnvEntry) : List UInt8 := e.name ++ equalsSign :: e.value

def read (e : EnvEntry) : List UInt8 := e.name ++ equalsSign :: unquote (strip e.value)

theorem strip_rdropWhile (value : List UInt8) : strip (value.rdropWhile isWhitespace) = strip value := by
  induction value using List.reverseRecOn with
  | nil => rfl
  | append_singleton front last ih =>
    by_cases blank : isWhitespace last = true
    · rw [rdropWhile_concat_pos _ _ _ blank, ih, strip, strip, dropWhile_append]
      split
      next nothing => simp [List.isEmpty_iff.mp nothing, blank]
      next => rw [rdropWhile_concat_pos _ _ _ blank]
    · rw [rdropWhile_concat_neg _ _ _ blank]

theorem loadEnvLine_text (e : EnvEntry) : loadEnvLine (e.text ++ [newline]) = some e.read := by
  have whole : (CString.ofBuffer (e.text ++ [newline])).bytes = e.name ++ equalsSign :: (e.value ++ [newline]) := by
    rw [CString.ofBuffer_bytes]
    · simp [text]
    · have terminated := e.single.1
      simp only [mem_append, not_or] at terminated
      simp [text, terminated, show (0 : UInt8) ≠ equalsSign by decide, show (0 : UInt8) ≠ newline by decide]
  have stripped := strip_assignment e.plain (e.value ++ [newline])
  rw [rdropWhile_concat_pos _ _ _ (by decide)] at stripped
  have named : ∀ byte ∈ e.name, (byte != equalsSign) = true :=
    fun byte mem => by simpa using (e.plain.2 byte mem).1
  have normal : normalizeEnvAssignment (e.name ++ equalsSign :: e.value.rdropWhile isWhitespace) = e.read := by
    rw [normalizeEnvAssignment, if_pos (by simp), takeWhile_append_of_pos named,
      dropWhile_append_of_pos named]
    simp [read, strip_rdropWhile]
  unfold loadEnvLine
  rw [whole, stripped]
  cases name : e.name with
  | nil => exact absurd name e.plain.1
  | cons byte rest =>
    rw [name] at normal
    simp only [cons_append, e.uncommented byte (by simp [name]), if_false]
    exact congrArg some normal

/-- A file of assignments is read back but for the blanks and the quotes around a value. -/
theorem loadEnvFile_writeEnvFile (entries : List EnvEntry) :
    loadEnvFile (writeEnvFile (entries.map text)) = entries.map read ∧
      (loadEnvFile (writeEnvFile (entries.map text)) = entries.map text ↔
        ∀ e ∈ entries, unquote (strip e.value) = e.value) := by
  have loads : ∀ fuel, (writeEnvFile (entries.map text)).length < fuel ->
      loadEnvLoop fuel (writeEnvFile (entries.map text)) = entries.map read := by
    induction entries with
    | nil =>
      intro fuel enough
      cases fuel <;> rfl
    | cons e rest ih =>
      intro fuel enough
      have line : writeEnvFile ((e :: rest).map text) = e.text ++ newline :: writeEnvFile (rest.map text) := by
        simp [writeEnvFile]
      have single : newline ∉ e.text := by
        have name : newline ∉ e.name := fun mem => by
          simpa using (e.plain.2 newline mem).2.symm.trans (show isWhitespace newline = true by decide)
        simp [text, name, e.single.2, show newline ≠ equalsSign by decide]
      have fits : e.text.length < lineMax - 1 := by
        have short := e.short
        simp only [text, length_append, length_cons]
        omega
      rw [line] at enough ⊢
      obtain ⟨fuel, rfl⟩ := Nat.exists_eq_succ_of_ne_zero (Nat.ne_of_gt (Nat.zero_lt_of_lt enough))
      have later := ih fuel (by simp at enough; omega)
      simp only [loadEnvLoop, fgets_line lineMax e.text _ single, if_pos fits, loadEnvLine_text, later]
      rfl
  have loaded : loadEnvFile (writeEnvFile (entries.map text)) = entries.map read := loads _ (Nat.lt_succ_self _)
  refine ⟨loaded, ?_⟩
  rw [loaded, map_inj_left]
  exact forall₂_congr fun e _ => by simp [read, text]

def lang : EnvEntry where
  name := (CString.ofString "LANG").bytes
  value := (CString.ofString "C").bytes
  plain := ⟨by decide, by decide⟩
  uncommented := by decide
  single := by decide
  short := by decide

def quoted : EnvEntry where
  name := (CString.ofString "HOME").bytes
  value := (CString.ofString " \"/root\" ").bytes
  plain := ⟨by decide, by decide⟩
  uncommented := by decide
  single := by decide
  short := by decide

theorem loadEnvFile_quoted :
    loadEnvFile (writeEnvFile [lang.text, quoted.text]) = [lang.text, (CString.ofString "HOME=/root").bytes] ∧
      loadEnvFile (writeEnvFile [lang.text]) = [lang.text] := by
  have quotes : quoted.read = (CString.ofString "HOME=/root").bytes := by decide
  have plain : lang.read = lang.text := by decide
  refine ⟨(loadEnvFile_writeEnvFile [lang, quoted]).1.trans ?_, ?_⟩
  · rw [← quotes, ← plain]
    rfl
  · refine (loadEnvFile_writeEnvFile [lang]).2.mpr fun e mem => ?_
    obtain rfl := mem_singleton.mp mem
    decide

end EnvEntry

end Systemd.Config
