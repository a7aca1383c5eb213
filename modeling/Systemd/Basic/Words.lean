import Mathlib.Data.List.Basic
import Systemd.Basic.CString

set_option autoImplicit false

namespace Systemd

open List

-- split() skips the separators in front of a word only.
def splitWords (separator : List UInt8) : Nat -> List UInt8 -> List (List UInt8)
  | 0, _ => []
  | fuel + 1, current =>
    if current = [] then
      []
    else
      let word := current.dropWhile separator.contains
      word.takeWhile (fun byte => !separator.contains byte) ::
        splitWords separator fuel (word.dropWhile fun byte => !separator.contains byte)

def strvSplit (text : CString) (separator : List UInt8) : List (List UInt8) :=
  splitWords separator (text.bytes.length + 1) text.bytes

def joinWords (byte : UInt8) : List (List UInt8) -> List UInt8
  | [] => []
  | [word] => word
  | word :: other :: rest => word ++ byte :: joinWords byte (other :: rest)

section

variable {separator : List UInt8}

def IsWord (separator word : List UInt8) : Prop :=
  word ≠ [] ∧ ∀ byte ∈ word, byte ∉ separator

variable {word rest : List UInt8} {byte : UInt8}

section

variable (isWord : IsWord separator word)
include isWord

theorem IsWord.takeWhile (stops : ∀ byte ∈ rest.head?, byte ∈ separator) :
    (word ++ rest).takeWhile (fun byte => !separator.contains byte) = word := by
  have inside : ∀ byte ∈ word, (!separator.contains byte) = true := by
    intro byte mem
    simpa using isWord.2 byte mem
  rw [takeWhile_append_of_pos inside]
  cases rest with
  | nil => simp
  | cons byte rest =>
    have here : byte ∈ separator := stops byte rfl
    simp [here]

theorem IsWord.dropWhile (stops : ∀ byte ∈ rest.head?, byte ∈ separator) :
    (word ++ rest).dropWhile (fun byte => !separator.contains byte) = rest := by
  have whole := takeWhile_append_dropWhile (p := fun byte => !separator.contains byte)
    (l := word ++ rest)
  rw [isWord.takeWhile stops] at whole
  exact append_cancel_left whole

theorem IsWord.skip (rest : List UInt8) :
    (word ++ rest).dropWhile separator.contains = word ++ rest := by
  cases word with
  | nil => exact absurd rfl isWord.1
  | cons byte word =>
    have outside : byte ∉ separator := isWord.2 byte (by simp)
    simp [outside]

theorem splitWords_word (stops : ∀ byte ∈ rest.head?, byte ∈ separator) (fuel : Nat) :
    splitWords separator (fuel + 1) (word ++ rest) = word :: splitWords separator fuel rest := by
  have full : word ++ rest ≠ [] := by simp [isWord.1]
  rw [splitWords, if_neg full]
  simp only [isWord.skip, isWord.takeWhile stops, isWord.dropWhile stops]

end

theorem splitWords_separator (mem : byte ∈ separator) (isWord : IsWord separator word)
    (rest : List UInt8) (fuel : Nat) :
    splitWords separator fuel (byte :: (word ++ rest)) = splitWords separator fuel (word ++ rest) := by
  cases fuel with
  | zero => rfl
  | succ fuel =>
    have full : word ++ rest ≠ [] := by simp [isWord.1]
    have skips : (byte :: (word ++ rest)).dropWhile separator.contains =
        (word ++ rest).dropWhile separator.contains := by
      simp [mem]
    rw [splitWords, splitWords, if_neg full, if_neg (by simp)]
    simp only [skips]

theorem joinWords_cons (byte : UInt8) (word : List UInt8) (rest : List (List UInt8)) :
    ∃ tail, joinWords byte (word :: rest) = word ++ tail := by
  cases rest with
  | nil => exact ⟨[], by simp [joinWords]⟩
  | cons other rest => exact ⟨byte :: joinWords byte (other :: rest), rfl⟩

theorem splitWords_joinWords (mem : byte ∈ separator) (words : List (List UInt8))
    (each : ∀ word ∈ words, IsWord separator word) (fuel : Nat) (enough : words.length < fuel) :
    splitWords separator fuel (joinWords byte words) = words := by
  induction words generalizing fuel with
  | nil =>
    cases fuel with
    | zero => rfl
    | succ fuel => rfl
  | cons word rest ih =>
    cases fuel with
    | zero => simp at enough
    | succ fuel =>
      have isWord := each word (by simp)
      have others : ∀ other ∈ rest, IsWord separator other :=
        fun other inside => each other (by simp [inside])
      have later := ih others fuel (by simpa using enough)
      cases rest with
      | nil =>
        have alone : splitWords separator (fuel + 1) (word ++ []) = word :: splitWords separator fuel [] :=
          splitWords_word isWord (by simp) fuel
        rw [append_nil] at alone
        rw [joinWords, alone]
        exact congrArg (word :: ·) later
      | cons other rest =>
        rw [joinWords, splitWords_word isWord (by simpa using mem)]
        obtain ⟨tail, joined⟩ := joinWords_cons byte other rest
        rw [joined] at later ⊢
        rw [splitWords_separator mem (others other (by simp)), later]

theorem mem_splitWords (visible : byte ∉ separator) (fuel : Nat) (text : List UInt8)
    (enough : text.length < fuel) (mem : byte ∈ text) :
    ∃ word ∈ splitWords separator fuel text, byte ∈ word := by
  induction fuel generalizing text with
  | zero => simp at enough
  | succ fuel ih =>
    rw [splitWords, if_neg (ne_nil_of_mem mem)]
    have shorter := (dropWhile_suffix separator.contains (l := text)).length_le
    have later : byte ∈ text.dropWhile separator.contains := by
      rw [← takeWhile_append_dropWhile (p := separator.contains) (l := text)] at mem
      refine (mem_append.mp mem).resolve_left fun skipped => ?_
      have inside := mem_takeWhile_imp skipped
      exact visible (by simpa using inside)
    have stops := head?_dropWhile_not separator.contains text
    generalize text.dropWhile separator.contains = current at shorter later stops ⊢
    rw [← takeWhile_append_dropWhile (p := fun byte => !separator.contains byte) (l := current)] at later
    rcases mem_append.mp later with here | beyond
    · exact ⟨_, mem_cons_self, here⟩
    · -- The word that is cut off has at least one byte.
      have rest : (current.dropWhile fun byte => !separator.contains byte).length < fuel := by
        cases current with
        | nil => simp at beyond
        | cons first current =>
          have outside : separator.contains first = false := by simpa using stops
          have solid : (!separator.contains first) = true := by
            rw [outside]
            rfl
          rw [dropWhile_cons, if_pos solid]
          have least := (dropWhile_suffix (fun byte => !separator.contains byte) (l := current)).length_le
          simp only [length_cons] at shorter
          omega
      obtain ⟨word, among, inside⟩ := ih _ rest beyond
      exact ⟨word, mem_cons_of_mem _ among, inside⟩

theorem length_lt_joinWords (byte : UInt8) {words : List (List UInt8)}
    (each : ∀ word ∈ words, word ≠ []) : words.length < (joinWords byte words).length + 1 := by
  induction words with
  | nil => simp [joinWords]
  | cons word rest ih =>
    have here := length_pos_of_ne_nil (each word (by simp))
    have later := ih fun other inside => each other (by simp [inside])
    cases rest with
    | nil => simpa [joinWords] using here
    | cons other rest =>
      simp only [joinWords, length_append, length_cons] at later ⊢
      omega

end

end Systemd
