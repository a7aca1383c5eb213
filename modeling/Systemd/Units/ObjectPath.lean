import Systemd.Units.NameIndex

set_option autoImplicit false

namespace Systemd

open List Option Function

-- char is signed, so that a byte from 128 on is below all the bounds.
def isLetterOrDigit (byte : UInt8) : Bool :=
  (signedChar 'A'.toUInt8 ≤ signedChar byte && signedChar byte ≤ signedChar 'Z'.toUInt8) ||
    (signedChar 'a'.toUInt8 ≤ signedChar byte && signedChar byte ≤ signedChar 'z'.toUInt8) ||
    (signedChar '0'.toUInt8 ≤ signedChar byte && signedChar byte ≤ signedChar '9'.toUInt8)

def busEscapeByte (byte : UInt8) : List UInt8 :=
  if isLetterOrDigit byte then
    [byte]
  else
    ['_'.toUInt8, hexchar (signedChar byte >>> (4 : Nat)), hexchar (signedChar byte)]

def pathBytes : List UInt8 :=
  ("ABCDEFGHIJKLMNOPQRSTUVWXYZ" ++ "abcdefghijklmnopqrstuvwxyz" ++ "0123456789" ++
    "_").toList.map Char.toUInt8

theorem hexchar_pathBytes (value : Int) : hexchar value ∈ pathBytes := by
  have digits : ∀ digit ∈ hexTable, digit ∈ pathBytes := by decide
  exact digits _ (hexchar_mem value)

variable {byte : UInt8}

theorem isLetterOrDigit_pathBytes (plain : isLetterOrDigit byte = true) : byte ∈ pathBytes := by
  revert plain
  revert byte
  apply forall_byte
  decide +kernel

theorem busEscapeByte_pathBytes {written : UInt8} (mem : written ∈ busEscapeByte byte) :
    written ∈ pathBytes := by
  unfold busEscapeByte at mem
  split_ifs at mem with plain
  · rw [mem_singleton.mp mem]
    exact isLetterOrDigit_pathBytes plain
  · simp only [mem_cons, not_mem_nil, or_false] at mem
    rcases mem with rfl | rfl | rfl
    · decide
    · exact hexchar_pathBytes _
    · exact hexchar_pathBytes _

theorem busEscape_pathBytes (bytes : List UInt8) : ∀ written ∈ bytes.flatMap busEscapeByte, written ∈ pathBytes := by
  intro written mem
  obtain ⟨byte, -, inside⟩ := mem_flatMap.mp mem
  exact busEscapeByte_pathBytes inside

def busPathEscape (s : CString) : CString where
  bytes := s.bytes.flatMap busEscapeByte
  terminated := by
    intro mem
    have plain := busEscape_pathBytes s.bytes 0 mem
    revert plain
    decide

-- f[2] is only looked at when f[1] is a digit, so neither is behind the NUL.
def busEscapeCode : List UInt8 -> Option UInt8
  | high :: low :: _ =>
    match unhexchar high, unhexchar low with
    | some a, some b => some (UInt8.ofNat ((a <<< 4) ||| b))
    | _, _ => none
  | _ => none

def busUnescapeLoop : List UInt8 -> List UInt8
  | [] => []
  | byte :: rest =>
    if byte = '_'.toUInt8 then
      match busEscapeCode rest with
      | some decoded => decoded :: busUnescapeLoop (rest.drop 2)
      | none => '_'.toUInt8 :: busUnescapeLoop rest
    else
      byte :: busUnescapeLoop rest
  termination_by bytes => bytes.length

def busPathUnescape (f : CString) : CString :=
  CString.ofBuffer (busUnescapeLoop f.bytes)

theorem ne_underscore (plain : isLetterOrDigit byte = true) : byte ≠ '_'.toUInt8 := by
  rintro rfl
  revert plain
  decide

theorem busEscapeCode_hex (byte : UInt8) (rest : List UInt8) :
    busEscapeCode (hexchar (signedChar byte >>> (4 : Nat)) :: hexchar (signedChar byte) :: rest) = some byte := by
  simp only [busEscapeCode, unhexchar_hexchar_high, unhexchar_hexchar_low, hexDigits_join]

theorem busUnescapeLoop_busEscapeByte (byte : UInt8) (rest : List UInt8) :
    busUnescapeLoop (busEscapeByte byte ++ rest) = byte :: busUnescapeLoop rest := by
  unfold busEscapeByte
  split_ifs with plain
  · rw [singleton_append, busUnescapeLoop, if_neg (ne_underscore plain)]
  · simp only [cons_append, nil_append]
    rw [busUnescapeLoop, if_pos rfl, busEscapeCode_hex]
    simp

theorem busUnescapeLoop_escape (bytes : List UInt8) : busUnescapeLoop (bytes.flatMap busEscapeByte) = bytes := by
  induction bytes with
  | nil => simp [busUnescapeLoop]
  | cons byte rest ih => rw [flatMap_cons, busUnescapeLoop_busEscapeByte, ih]

theorem busPathUnescape_escape (s : CString) : busPathUnescape (busPathEscape s) = s := by
  simp [busPathUnescape, busPathEscape, busUnescapeLoop_escape]

def objectPathPrefix : CString := .ofString "/org/freedesktop/systemd1/unit/"

namespace Registry

variable {U : Type}

def unitDbusPath (m : Registry U) (u : U) : Option CString :=
  (m.id u).map fun id => objectPathPrefix.append (busPathEscape id)

def managerGetUnitFromDbusPath (m : Registry U) (s : CString) : Except RegistryErrno U :=
  if objectPathPrefix.bytes.isPrefixOf s.bytes then
    match m.units.get (busPathUnescape (.ofBuffer (s.bytes.drop 31))) with
    | some u => .ok u
    | none => .error .enoent
  else
    .error .einval

def Identified (m : Registry U) : Prop :=
  ∀ u, m.type u ≠ none -> m.names u ≠ none -> ∃ id, m.id u = some id ∧ m.Named u id

theorem managerGetUnitFromDbusPath_append (m : Registry U) (id : CString) :
    m.managerGetUnitFromDbusPath (objectPathPrefix.append (busPathEscape id)) =
      match m.units.get id with
      | some u => .ok u
      | none => .error .enoent := by
  have length : objectPathPrefix.bytes.length = 31 := by decide
  have starts : objectPathPrefix.bytes.isPrefixOf (objectPathPrefix.append (busPathEscape id)).bytes = true :=
    isPrefixOf_iff_prefix.mpr (prefix_append _ _)
  have rest : (objectPathPrefix.append (busPathEscape id)).bytes.drop 31 = (busPathEscape id).bytes :=
    length ▸ drop_left
  rw [managerGetUnitFromDbusPath, if_pos starts, rest, CString.ofBuffer_self, busPathUnescape_escape]

variable [DecidableEq U]

variable {m' m : Registry U} {u : U}

section

variable (identified : Identified m)
include identified

theorem Identified.unitAddName {allocates : NameAllocation -> Bool} {text : CString}
    {result : Except RegistryErrno Unit} (indexed : Indexed m)
    (run : unitAddName allocates m u text = some (m', result)) : Identified m' := by
  rcases unitAddName_cases run with rfl | ⟨name, t, part, set, entered, -, -, names, new, enter, rfl, -⟩
  · exact identified
  unfold enterName at enter
  cases found : m.units.get name with
  | some other =>
    simp only [found] at enter
    split_ifs at enter with same
    have named := (indexed.table name other).mp found
    rw [same, Named, names] at named
    exact absurd named new
  | none =>
    simp only [found] at enter
    split_ifs at enter
    cases enter
    have mem := mem_names_enter names name
    intro v typed named
    by_cases equal : v = u
    · subst equal
      unfold adoptName
      split_ifs with first
      · exact ⟨name, by simp, (mem v name).mpr (.inr ⟨rfl, rfl⟩)⟩
      · obtain ⟨id, own, old⟩ := identified v first (by rw [names]; simp)
        exact ⟨id, own, (mem v id).mpr (.inl old)⟩
    · unfold adoptName at typed named ⊢
      split_ifs at typed named ⊢ with first
      · simp only [update_of_ne equal] at typed named ⊢
        obtain ⟨id, own, old⟩ := identified v typed named
        exact ⟨id, own, (mem v id).mpr (.inl old)⟩
      · simp only [update_of_ne equal] at named
        obtain ⟨id, own, old⟩ := identified v typed named
        exact ⟨id, own, (mem v id).mpr (.inl old)⟩

theorem Identified.mergeUnits {fuel : Nat} {other : U} (own : ∃ id, m.id u = some id ∧ m.Named u id)
    (distinct : other ≠ u) (run : mergeUnits fuel m u other = some m') : Identified m' := by
  obtain ⟨renamed, links, names, -, rfl⟩ := mergeUnits_cases run
  obtain ⟨units, table, rfl⟩ := map_eq_some_iff.mp names
  intro v typed named
  by_cases gone : v = other
  · simp [gone] at named
  · simp only [update_of_ne gone, Named] at typed named ⊢
    by_cases equal : v = u
    · subst equal
      obtain ⟨id, chosen, old⟩ := own
      refine ⟨id, chosen, ?_⟩
      rw [update_self, mem_setMembers_completeMove]
      exact .inl old
    · rw [update_of_ne equal] at named ⊢
      exact identified v typed named

theorem Identified.exec {fuel : Nat} {call : Call U} (indexed : Indexed m)
    (permitted : intoUnmerged fuel m call) (run : exec fuel m call = some m') : Identified m' := by
  cases call with
  | new u =>
    simp only [Registry.exec, unitNew] at run
    split_ifs at run
    cases run
    intro v typed named
    by_cases equal : v = u
    · simp [equal] at typed
    · simp only [update_of_ne equal, Named] at typed named ⊢
      exact identified v typed named
  | addName allocates u name =>
    obtain ⟨⟨m', result⟩, step, rfl⟩ := map_eq_some_iff.mp run
    exact identified.unitAddName indexed step
  | chooseId allocates u name =>
    obtain ⟨⟨m', result⟩, step, rfl⟩ := map_eq_some_iff.mp run
    rcases unitChooseId_cases step with rfl | ⟨id, part, set, names, mem, -, rfl⟩
    · exact identified
    intro v typed named
    by_cases equal : v = u
    · subst equal
      refine ⟨id, by simp, ?_⟩
      rw [Named, names]
      exact mem
    · simp only [update_of_ne equal, Named]
      exact identified v typed named
  | addDependency allocates u d other addReference =>
    obtain ⟨⟨m', result⟩, step, rfl⟩ := map_eq_some_iff.mp run
    obtain ⟨links, rfl⟩ := unitAddDependency_links step
    exact identified
  | merge u other =>
    obtain ⟨⟨m', result⟩, step, rfl⟩ := map_eq_some_iff.mp run
    rcases unitMerge_cases step with ⟨rfl, -⟩ | ⟨target, found, alive, typed, merged⟩
    · exact identified
    · exact identified.mergeUnits (indexed.chosen u alive typed permitted) (mergeTarget_spec found).1 merged
  | free u =>
    simp only [Registry.exec, unitFree] at run
    split_ifs at run
    obtain ⟨links, -, rfl⟩ := map_eq_some_iff.mp run
    intro v typed named
    by_cases equal : v = u
    · simp [equal] at typed
    · simp only [update_of_ne equal, Named] at typed named ⊢
      exact identified v typed named
  | progress u loadState hasJob activeState =>
    simp only [Registry.exec, unitProgress] at run
    split_ifs at run
    cases run
    exact identified

end

theorem ReachableBy.identified (reached : ReachableBy intoUnmerged m) : Identified m := by
  induction reached with
  | start =>
    intro u typed
    exact absurd rfl typed
  | call before call fuel permitted run ih => exact ih.exec before.indexed permitted run

omit [DecidableEq U] in
theorem Identified.path_found (identified : Identified m) (indexed : Indexed m) {name : CString}
    (known : m.units.get name = some u) :
    ∃ path, m.unitDbusPath u = some path ∧ m.managerGetUnitFromDbusPath path = .ok u := by
  have named := (indexed.table name u).mp known
  obtain ⟨t, typed, -⟩ := indexed.kind u name named
  have names : m.names u ≠ none := by
    intro nameless
    simp [Named, nameless, setMembers] at named
  obtain ⟨id, own, listed⟩ := identified u (by simp [typed]) names
  refine ⟨_, by rw [unitDbusPath, own, map_some], ?_⟩
  rw [managerGetUnitFromDbusPath_append, (indexed.table id u).mpr listed]

end Registry

theorem objectPath_injective : Function.Injective fun id : CString => objectPathPrefix.append (busPathEscape id) := by
  intro first second same
  have bytes : (busPathEscape first).bytes = (busPathEscape second).bytes :=
    append_cancel_left (congrArg CString.bytes same)
  exact Function.LeftInverse.injective busPathUnescape_escape (CString.eq_of_bytes bytes)

theorem object_paths_identify {U : Type} [DecidableEq U] :
    (∀ s : CString, busPathUnescape (busPathEscape s) = s ∧ ∀ byte ∈ (busPathEscape s).bytes, byte ∈ pathBytes) ∧
      ∀ m : Registry U, Registry.ReachableBy Registry.intoUnmerged m ->
        (∀ name u, m.units.get name = some u ->
          ∃ path, m.unitDbusPath u = some path ∧ m.managerGetUnitFromDbusPath path = .ok u) ∧
        ∀ u v first second, m.id u = some first -> m.id v = some second -> first ≠ second ->
          m.unitDbusPath u ≠ m.unitDbusPath v := by
  refine ⟨fun s => ⟨busPathUnescape_escape s, busEscape_pathBytes s.bytes⟩, ?_⟩
  intro m reached
  refine ⟨fun name u known => reached.identified.path_found reached.indexed known, ?_⟩
  intro u v first second own own' differ same
  rw [Registry.unitDbusPath, Registry.unitDbusPath, own, own', map_some, map_some,
    some.injEq] at same
  exact differ (objectPath_injective same)

theorem object_paths_identify_merged :
    ∃ m : Registry (Fin 4), m.units.get (Registry.serviceName "c") = some 0 ∧
      ∃ path, m.unitDbusPath 0 = some path ∧ m.managerGetUnitFromDbusPath path = .ok 0 := by
  have run : (Registry.execAllowed Registry.intoUnmerged 10 Registry.empty Registry.mergeKnown).map (fun m =>
      decide (m.units.get (Registry.serviceName "c") = some 0)) = some true := by
    decide
  obtain ⟨m, reached, passed⟩ := Registry.reachable_of_check run
  rw [decide_eq_true_iff] at passed
  exact ⟨m, passed, (object_paths_identify.2 m reached).1 _ 0 passed⟩

example : (busPathEscape (.ofString "a_b@c.service")).bytes = (CString.ofString "a_5fb_40c_2eservice").bytes := by
  decide

end Systemd
