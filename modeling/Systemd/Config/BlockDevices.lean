import Systemd.Basic.PathNames
import Systemd.Basic.Quoted
import Systemd.Config.Spans

set_option autoImplicit false

namespace Systemd.BlockDevices

open List

open Serialization (wholeNumber printNat decimal decimal_digit decimal_terminated)

def space : UInt8 := 32

structure CGroupAttribute where
  controller : CString
  name : CString
  value : CString
  mapCallback : Bool
  deriving DecidableEq

-- The controllers that the parsers here name are never that of the hierarchy of systemd itself.
def unitAddCgroupAttribute (a : CGroupAttribute) (attributes : List CGroupAttribute) : List CGroupAttribute :=
  a :: attributes

def safeAtolu (text : CString) : Option Nat :=
  match wholeNumber text with
  | some (negative, magnitude) =>
    if magnitude < 2 ^ 64 then
      some (if negative then (2 ^ 64 - magnitude) % 2 ^ 64 else magnitude)
    else
      none
  | none => none

def weightNumber (weight : CString) : Option Nat :=
  match safeAtolu weight with
  | some ul => if ul < 10 ∨ ul > 1000 then none else some ul
  | none => none

def bandwidthNumber (text : CString) : Option Nat :=
  match Spans.parseBytes text with
  | .ok bytes => if bytes ≤ 0 then none else some bytes.toInt.toNat
  | .error _ => none

def deviceSetting (number : CString -> Option Nat) : List CString -> Option (CString × Nat)
  | [device, text] => if pathIsAbsolute device.bytes then (number text).map (device, ·) else none
  | _ => none

def blkio : CString := .ofString "blkio"

-- "%s %lu", and "%s %llu"
def valueText (device : CString) (number : Nat) : CString :=
  .ofBuffer (device.bytes ++ space :: decimal 20 number)

def configParseUnitBlkioWeight (rvalue : CString) (attributes : List CGroupAttribute) : List CGroupAttribute :=
  match strvSplitQuoted rvalue with
  | [weight] =>
    match weightNumber weight with
    | some ul => unitAddCgroupAttribute ⟨blkio, .ofString "blkio.weight", printNat ul, false⟩ attributes
    | none => attributes
  | l =>
    match deviceSetting weightNumber l with
    | some (device, ul) =>
      unitAddCgroupAttribute ⟨blkio, .ofString "blkio.weight_device", valueText device ul, true⟩ attributes
    | none => attributes

def bandwidthName (lvalue : CString) : CString :=
  if lvalue = .ofString "BlockIOReadBandwidth" then .ofString "blkio.read_bps_device"
  else .ofString "blkio.write_bps_device"

def configParseUnitBlkioBandwidth (lvalue rvalue : CString) (attributes : List CGroupAttribute) :
    List CGroupAttribute :=
  match deviceSetting bandwidthNumber (strvSplitQuoted rvalue) with
  | some (device, bytes) =>
    unitAddCgroupAttribute ⟨blkio, bandwidthName lvalue, valueText device bytes, true⟩ attributes
  | none => attributes

/-- The major and minor number of the block device that a path leads to, or the errno, and where the
file of an attribute is. -/
structure System where
  blockDevice : CString -> Except Nat (Nat × Nat)
  getPath : CString -> CString -> CString -> Except Nat CString

-- none stands for the failing assertion that there are two words.
def blkioMap (sys : System) (value : CString) : Option (Except Nat CString) :=
  match strvSplitQuoted value with
  | [path, number] =>
    some ((sys.blockDevice path).map fun d =>
      .ofBuffer (decimal 20 d.1 ++ 58 :: decimal 20 d.2 ++ space :: number.bytes))
  | _ => none

def cgroupAttributeApply (sys : System) (a : CGroupAttribute) (bondings : List (CString × CString)) :
    Option (Except Nat (Option (CString × CString))) :=
  match bondings.find? (·.1 = a.controller) with
  | none => some (.ok none)
  | some b =>
    (if a.mapCallback then blkioMap sys a.value else some (.ok a.value)).map fun mapped => do
      let v ← mapped
      let path ← sys.getPath a.controller b.2 a.name
      pure (some (path, v))

inductive Setting where
  | weight
  | bandwidth (lvalue : CString)

namespace Setting

def number : Setting -> CString -> Option Nat
  | weight => weightNumber
  | bandwidth _ => bandwidthNumber

def name : Setting -> CString
  | weight => .ofString "blkio.weight_device"
  | bandwidth lvalue => bandwidthName lvalue

def parse : Setting -> CString -> List CGroupAttribute -> List CGroupAttribute
  | weight => configParseUnitBlkioWeight
  | bandwidth lvalue => configParseUnitBlkioBandwidth lvalue

end Setting

/-- What is stored for the setting comes apart into the two words it was made of, and can be applied. -/
structure Survives (setting : Setting) (rvalue device : CString) (number : Nat)
    (attributes : List CGroupAttribute) : Prop where
  stored : setting.parse rvalue attributes =
    ⟨blkio, setting.name, valueText device number, true⟩ :: attributes
  split : strvSplitQuoted (valueText device number) = [device, printNat number]
  applied : ∀ sys bondings,
    cgroupAttributeApply sys ⟨blkio, setting.name, valueText device number, true⟩ bondings ≠ none

/-- No byte of the text ends a word, and each backslash stands in front of a byte with which it is no escape. -/
inductive Verbatim : List UInt8 -> Prop where
  | nil : Verbatim []
  | plain {c : UInt8} {rest : List UInt8} : c ≠ backslashByte -> c ∉ whitespace -> Verbatim rest ->
      Verbatim (c :: rest)
  | kept {d : UInt8} {f : List UInt8} : (unescapeSwitch (d :: f)).1 = [backslashByte, d] -> Verbatim f ->
      Verbatim (backslashByte :: d :: f)

theorem setting_stored {setting : Setting} {rvalue device : CString} {number : Nat}
    (accepted : deviceSetting setting.number (strvSplitQuoted rvalue) = some (device, number))
    (attributes : List CGroupAttribute) : setting.parse rvalue attributes =
      ⟨blkio, setting.name, valueText device number, true⟩ :: attributes := by
  cases setting with
  | weight =>
    rw [Setting.parse, configParseUnitBlkioWeight]
    cases words : strvSplitQuoted rvalue with
    | nil => simp [words, deviceSetting] at accepted
    | cons first rest =>
      rw [words] at accepted
      cases rest with
      | nil => cases accepted
      | cons second rest =>
        have found : deviceSetting weightNumber (first :: second :: rest) = some (device, number) := accepted
        simp only [found, unitAddCgroupAttribute, Setting.name]
  | bandwidth lvalue =>
    have found : deviceSetting bandwidthNumber (strvSplitQuoted rvalue) = some (device, number) := accepted
    simp only [Setting.parse, configParseUnitBlkioBandwidth, found, unitAddCgroupAttribute, Setting.name]

theorem unescapeSwitch_shape (d : UInt8) (f : List UInt8) :
    unescapeSwitch (d :: f) = ([backslashByte, d], some 0) ∨
      ∃ byte moved, unescapeSwitch (d :: f) = ([byte], some moved) ∧ moved ≤ f.length := by
  rw [unescapeSwitch]
  split
  next => exact .inr ⟨_, 0, rfl, Nat.zero_le _⟩
  next =>
    split_ifs with isS isX isOct
    · exact .inr ⟨_, 0, rfl, Nat.zero_le _⟩
    · cases found : hexEscape f with
      | none => exact .inl (by rw [isX])
      | some byte =>
        obtain ⟨a, b, rest, rfl, -⟩ := hexEscape_some found
        exact .inr ⟨byte, 2, rfl, by simp⟩
    · cases found : octEscape (d :: f) with
      | none => exact .inl rfl
      | some byte =>
        obtain ⟨a, b, rest, rfl, -⟩ := octEscape_some found
        exact .inr ⟨byte, 2, rfl, by simp⟩
    · exact .inl rfl

def unescapeWhole (s : List UInt8) : List UInt8 := cunescapeLength s s.length

def escapedStep (f : List UInt8) : List UInt8 × Option Nat -> List UInt8
  | (written, none) => written
  | (written, some moved) => written ++ unescapeWhole (f.drop moved)

theorem unescapeWhole_escape (d : UInt8) (f : List UInt8) :
    (unescapeSwitch (d :: f)).1 = [backslashByte, d] ∧
        unescapeWhole (backslashByte :: d :: f) = backslashByte :: d :: unescapeWhole f ∨
      (unescapeSwitch (d :: f)).1 ≠ [backslashByte, d] ∧
        ∃ byte moved, unescapeWhole (backslashByte :: d :: f) = byte :: unescapeWhole (f.drop moved) := by
  have step : unescapeWhole (backslashByte :: d :: f) = escapedStep f (unescapeSwitch (d :: f)) := by
    rw [unescapeWhole, length_cons, cunescapeLength_escape]
    rcases unescapeSwitch (d :: f) with ⟨written, _ | moved⟩
    · rfl
    · simp only [drop_succ_cons, escapedStep, unescapeWhole, length_drop, length_cons, Nat.add_sub_add_right]
  rcases unescapeSwitch_shape d f with kept | ⟨byte, moved, decoded, -⟩
  · exact .inl ⟨by rw [kept], by rw [step, kept]; rfl⟩
  · exact .inr ⟨by rw [decoded]; simp, byte, moved, by rw [step, decoded]; rfl⟩

theorem unescapeWhole_length (s : List UInt8) : (unescapeWhole s).length ≤ s.length := by
  induction counted : s.length using Nat.strong_induction_on generalizing s with
  | _ size ih =>
    subst counted
    cases s with
    | nil => exact Nat.le_refl 0
    | cons c rest =>
      by_cases escape : c = backslashByte
      · subst escape
        cases rest with
        | nil => exact Nat.le_refl 1
        | cons d f =>
          have shorter : ∀ moved, (unescapeWhole (f.drop moved)).length ≤ (f.drop moved).length :=
            fun moved => ih _ (by simp only [length_drop, length_cons]; omega) _ rfl
          rcases unescapeWhole_escape d f with ⟨-, same⟩ | ⟨-, byte, moved, same⟩
          · have rest := shorter 0
            rw [drop_zero] at rest
            simpa [same] using rest
          · have rest := shorter moved
            rw [length_drop] at rest
            simp only [same, length_cons]
            omega
      · have later := ih rest.length (by simp) rest rfl
        have same : unescapeWhole (c :: rest) = c :: unescapeWhole rest := cunescapeLength_plain escape _ _
        simpa [same] using later

theorem verbatim_iff (d num : List UInt8) :
    Verbatim d ↔ wordLength whitespace.contains false (d ++ space :: num) = d.length ∧ unescapeWhole d = d := by
  have other : space ≠ backslashByte := by decide
  induction counted : d.length using Nat.strong_induction_on generalizing d with
  | _ size ih =>
    subst counted
    cases d with
    | nil =>
      have blank : space ∈ whitespace := by decide
      simp [Verbatim.nil, wordLength, other, blank, unescapeWhole, cunescapeLength_zero]
    | cons c rest =>
      by_cases escape : c = backslashByte
      · subst escape
        cases rest with
        | nil =>
          have never : ¬Verbatim [backslashByte] := by
            rintro (_ | ⟨wrong, -, -⟩)
            exact wrong rfl
          simp [never, wordLength]
        | cons e f =>
          have later : Verbatim f ↔ wordLength whitespace.contains false (f ++ space :: num) = f.length ∧
              unescapeWhole f = f := ih f.length (by simp only [length_cons]; omega) f rfl
          have length : wordLength whitespace.contains false (backslashByte :: e :: f ++ space :: num) =
              wordLength whitespace.contains false (f ++ space :: num) + 2 := by simp [wordLength]
          have unfolded : Verbatim (backslashByte :: e :: f) ↔
              (unescapeSwitch (e :: f)).1 = [backslashByte, e] ∧ Verbatim f := by
            constructor
            · rintro (_ | ⟨wrong, -, -⟩ | ⟨kept, later⟩)
              · exact absurd rfl wrong
              · exact ⟨kept, later⟩
            · exact fun both => .kept both.1 both.2
          rw [unfolded, later, length]
          simp only [length_cons]
          rcases unescapeWhole_escape e f with ⟨kept, same⟩ | ⟨decoded, byte, moved, same⟩
          · simp [kept, same]
          · -- What is decoded gets shorter.
            have short := unescapeWhole_length (f.drop moved)
            have ne : byte :: unescapeWhole (f.drop moved) ≠ backslashByte :: e :: f := by
              intro equal
              have lengths := congrArg List.length equal
              simp only [length_cons, length_drop] at lengths short
              omega
            simp [decoded, same, ne]
      · have later : Verbatim rest ↔ wordLength whitespace.contains false (rest ++ space :: num) = rest.length ∧
            unescapeWhole rest = rest := ih rest.length (by simp) rest rfl
        have same : unescapeWhole (c :: rest) = c :: unescapeWhole rest := cunescapeLength_plain escape _ _
        have unfolded : Verbatim (c :: rest) ↔ c ∉ whitespace ∧ Verbatim rest := by
          constructor
          · rintro (_ | ⟨-, visible, later⟩ | _)
            · exact ⟨visible, later⟩
            · exact absurd rfl escape
          · exact fun both => .plain escape both.1 both.2
        rw [unfolded, later, same, cons_append, wordLength, if_neg escape]
        by_cases blank : c ∈ whitespace <;> simp [blank]

theorem decimal_plain (n : Nat) : ∀ byte ∈ decimal 20 n,
    byte ≠ backslashByte ∧ byte ∉ whitespace ∧ byte ≠ singleQuote ∧ byte ≠ doubleQuote := by
  intro byte mem
  obtain ⟨digit, bound, rfl⟩ := decimal_digit mem
  interval_cases digit <;> decide

theorem verbatim_number {num : List UInt8} (each : ∀ byte ∈ num, byte ≠ backslashByte ∧ byte ∉ whitespace) :
    Verbatim num := by
  induction num with
  | nil => exact .nil
  | cons c rest ih =>
    obtain ⟨⟨other, visible⟩, others⟩ := forall_mem_cons.mp each
    exact .plain other visible (ih others)

theorem nextWord_bare {c : UInt8} (visible : c ∉ whitespace) (single : c ≠ singleQuote) (double : c ≠ doubleQuote)
    (rest : List UInt8) : nextWord (c :: rest) = bareWord (c :: rest) := by
  rw [nextWord, dropWhile_cons_of_neg (by simpa using visible), takeWord, if_neg single, if_neg double]

theorem split_number (n : Nat) : (wordsQuoted (space :: decimal 20 n)).map (·.1.unescaped) = [printNat n] := by
  have plain := decimal_plain n
  have verbatim := verbatim_number fun byte mem => ⟨(plain byte mem).1, (plain byte mem).2.1⟩
  have same := ((verbatim_iff _ []).mp verbatim).2
  have whole := wordLength_plain (fun byte mem => (⟨(plain byte mem).1, by simpa using (plain byte mem).2.1⟩ :
    byte ≠ backslashByte ∧ whitespace.contains byte = false)) []
  have skipped : nextWord (space :: decimal 20 n) = nextWord (decimal 20 n) := by
    have blank : space ∈ whitespace := by decide
    rw [nextWord, dropWhile_cons_of_pos (by simpa using blank), nextWord]
  have word : nextWord (decimal 20 n) = (⟨decimal 20 n, (decimal 20 n).length⟩, []) := by
    rw [append_nil, wordLength, Nat.zero_add] at whole
    cases digits : decimal 20 n with
    | nil => simp [decimal] at digits
    | cons c rest =>
      obtain ⟨-, visible, single, double⟩ := plain c (by simp [digits])
      rw [digits] at whole
      rw [nextWord_bare visible single double, bareWord, whole]
      simp
  rw [wordsQuoted_step (by simp), skipped, word, wordsQuoted_nil]
  simp only [map_cons, map_nil, QuotedWord.unescaped]
  rw [← unescapeWhole, same, printNat]

theorem valueText_split {device : CString} (absolute : pathIsAbsolute device.bytes = true) (n : Nat) :
    strvSplitQuoted (valueText device n) = [device, printNat n] ↔ Verbatim device.bytes := by
  have bytes : (valueText device n).bytes = device.bytes ++ space :: decimal 20 n := by
    refine CString.ofBuffer_bytes ?_
    have visible : (0 : UInt8) ≠ space := by decide
    simp [device.terminated, decimal_terminated, visible]
  have plain := decimal_plain n
  rw [verbatim_iff device.bytes (decimal 20 n), strvSplitQuoted, bytes]
  generalize whole : device.bytes ++ space :: decimal 20 n = text
  have starts : nextWord text = bareWord text := by
    cases path : device.bytes with
    | nil => simp [pathIsAbsolute, path] at absolute
    | cons c rest =>
      obtain rfl : c = '/'.toUInt8 := by simpa [pathIsAbsolute, path] using absolute
      rw [← whole, path, cons_append]
      exact nextWord_bare (by decide) (by decide) (by decide) _
  have nonempty : text ≠ [] := by simp [← whole]
  have within := wordLength_le whitespace.contains false text
  have stops := wordLength_stops whitespace.contains false text
  have decoded := cunescapeLength_word whitespace_undigit text
  rw [wordsQuoted_step nonempty, starts, bareWord]
  simp only [map_cons, QuotedWord.unescaped]
  rw [decoded]
  generalize wordLength whitespace.contains false text = l at within stops ⊢
  have front : ∀ m ≤ device.bytes.length, text.take m = device.bytes.take m := by
    intro m short
    rw [← whole, take_append_of_le_length short]
  have taken : cunescapeLength (text.take l) l = unescapeWhole (text.take l) := by
    rw [unescapeWhole, length_take_of_le within]
  rw [taken]
  constructor
  · intro split
    obtain ⟨first, rest⟩ := List.cons.inj split
    have same : (unescapeWhole (text.take l)).takeWhile (· != 0) = device.bytes := congrArg CString.bytes first
    have short := unescapeWhole_length (text.take l)
    have shorter := (List.takeWhile_prefix (p := (· != 0)) (l := unescapeWhole (text.take l))).length_le
    rw [same] at shorter
    rw [length_take_of_le within] at short
    have exactly : l = device.bytes.length := by
      by_contra ne
      have inside : l < text.length := by
        by_contra all
        rw [drop_eq_nil_of_le (by omega), wordsQuoted_nil] at rest
        cases rest
      obtain ⟨k, rfl⟩ : ∃ k, l = device.bytes.length + 1 + k := ⟨l - device.bytes.length - 1, by omega⟩
      have digit : text[device.bytes.length + 1 + k]? = (decimal 20 n)[k]? := by
        rw [← whole, getElem?_append_right (by omega)]
        have index : device.bytes.length + 1 + k - device.bytes.length = k + 1 := by omega
        rw [index, getElem?_cons_succ]
      have here := getElem?_eq_getElem inside
      have white := stops _ here
      rw [here] at digit
      exact (plain _ (mem_of_getElem? digit.symm)).2.1 (by simpa using white)
    subst exactly
    rw [front _ le_rfl, take_length] at same short
    refine ⟨rfl, ?_⟩
    have kept : (unescapeWhole device.bytes).takeWhile (· != 0) = unescapeWhole device.bytes :=
      (List.takeWhile_prefix _).eq_of_length_le (by rw [same]; exact short)
    rw [← kept, same]
  · rintro ⟨rfl, same⟩
    have number := split_number n
    simp only [QuotedWord.unescaped] at number
    rw [front _ le_rfl, take_length, same, CString.ofBuffer_self, ← whole, drop_left, number]

theorem setting_survives_iff (setting : Setting) (rvalue device : CString) (number : Nat)
    (attributes : List CGroupAttribute)
    (accepted : deviceSetting setting.number (strvSplitQuoted rvalue) = some (device, number)) :
    Survives setting rvalue device number attributes ↔ Verbatim device.bytes := by
  have absolute : pathIsAbsolute device.bytes = true := by
    rcases words : strvSplitQuoted rvalue with _ | ⟨first, _ | ⟨second, _ | ⟨third, rest⟩⟩⟩ <;>
      rw [words, deviceSetting] at accepted
    all_goals try cases accepted
    split at accepted
    next absolute =>
      obtain ⟨n, -, same⟩ := Option.map_eq_some_iff.mp accepted
      cases same
      exact absolute
    next => cases accepted
  constructor
  · intro survives
    exact (valueText_split absolute number).mp survives.split
  · intro verbatim
    have split := (valueText_split absolute number).mpr verbatim
    refine ⟨setting_stored accepted attributes, split, fun sys bondings => ?_⟩
    rw [cgroupAttributeApply]
    split
    next => simp
    next => simp [blkioMap, split]

theorem plain_device_survives :
    Survives .weight (.ofString "/a 500") (.ofString "/a") 500 [] ↔ Verbatim (CString.ofString "/a").bytes :=
  setting_survives_iff .weight _ _ 500 [] (by decide)

theorem spaced_device_stops :
    deviceSetting weightNumber (strvSplitQuoted (.ofString "\"/a b\" 500")) = some (.ofString "/a b", 500) ∧
      ¬Survives .weight (.ofString "\"/a b\" 500") (.ofString "/a b") 500 [] := by
  refine ⟨by decide, fun survives => ?_⟩
  have split := survives.split
  revert split
  decide

end Systemd.BlockDevices
