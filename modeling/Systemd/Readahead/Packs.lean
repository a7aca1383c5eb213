import Mathlib.Algebra.Group.Nat.Defs
import Mathlib.Data.List.GetD
import Systemd.Config.Lines

set_option autoImplicit false

namespace Systemd.Readahead

open Config (truncateNl)

def pathMax : Nat := 4096

/-- What replay finds: the size of the file that it can open under a name and that passes file_verify. -/
structure Host where
  pageSize : Nat
  opens : CString -> Option Nat
  positive : 0 < pageSize
  verified : ∀ name size, opens name = some size -> 0 < size

structure File (h : Host) where
  name : CString
  size : Nat
  vec : List Bool
  nonempty : 0 < size
  pages : vec.length = (size + h.pageSize - 1) / h.pageSize
  single : newline ∉ name.bytes
  short : name.bytes.length < pathMax

-- A uint32_t in memory.
def uint32Bytes (n : Nat) : List UInt8 :=
  [.ofNat n, .ofNat (n / 256), .ofNat (n / 65536), .ofNat (n / 16777216)]

def ofUint32Bytes (b0 b1 b2 b3 : UInt8) : Nat :=
  b0.toNat + 256 * (b1.toNat + 256 * (b2.toNat + 256 * b3.toNat))

def packLoop (vec : List Bool) : Nat -> Nat -> Nat -> Bool -> Option (List (Nat × Nat))
  | 0, _, _, _ => none
  | fuel + 1, c, b, mapped =>
    if c < vec.length then
      let newMapped := vec.getD c false
      let next := (c + 1) % 2 ^ 32
      if !mapped && newMapped then
        packLoop vec fuel next c newMapped
      else if mapped && !newMapped then
        (packLoop vec fuel next b newMapped).map ((b, c) :: ·)
      else
        packLoop vec fuel next b newMapped
    else
      some (if mapped && decide (0 < b) then [(b, c)] else [])

def rangeBytes (range : Nat × Nat) : List UInt8 :=
  uint32Bytes range.1 ++ uint32Bytes range.2

def packFile {h : Host} (f : File h) (fuel : Nat) : Option (List UInt8) :=
  (packLoop f.vec fuel 0 0 false).map fun ranges =>
    f.name.bytes ++ newline :: ((ranges ++ [(0, 0)]).flatMap rangeBytes)

structure Advice where
  name : CString
  offset : Nat
  length : Nat

def Advice.Covers (a : Advice) (pageSize page : Nat) : Prop :=
  a.offset < (page + 1) * pageSize ∧ page * pageSize < a.offset + a.length

inductive Unpacked where
  | finished
  | failed
  | unpacked (advice : List Advice) (pack : List UInt8)

-- none stands for a premature end and for a range that is none.
def unpackRanges : List UInt8 -> Option (List (Nat × Nat) × List UInt8)
  | b0 :: b1 :: b2 :: b3 :: c0 :: c1 :: c2 :: c3 :: pack =>
    let b := ofUint32Bytes b0 b1 b2 b3
    let c := ofUint32Bytes c0 c1 c2 c3
    if b = 0 ∧ c = 0 then
      some ([], pack)
    else if c ≤ b then
      none
    else
      (unpackRanges pack).map fun r => ((b, c) :: r.1, r.2)
  | _ => none

def adviceFor (h : Host) (fn : CString) (ranges : List (Nat × Nat)) : List Advice :=
  match h.opens fn with
  | none => []
  | some size =>
    if ranges = [] then [⟨fn, 0, size⟩]
    else ranges.map fun (b, c) => ⟨fn, b * h.pageSize, (c - b) * h.pageSize⟩

def unpackFile (h : Host) (pack : List UInt8) : Unpacked :=
  match fgets pathMax pack with
  | none => .finished
  | some (line, pack) =>
    match unpackRanges pack with
    | none => .failed
    | some (ranges, pack) => .unpacked (adviceFor h (.ofBuffer (truncateNl line)) ranges) pack

def Exact {h : Host} (f : File h) (advice : List Advice) : Prop :=
  ∀ name page, (∃ a ∈ advice, a.name = name ∧ a.Covers h.pageSize page) ↔
    name = f.name ∧ f.vec[page]? = some true

/-- What pack_file has written for the files is read back file by file, to the end of the pack. -/
inductive Replayed (h : Host) : List (File h) -> List UInt8 -> Prop where
  | done : unpackFile h [] = .finished -> Replayed h [] []
  | next {f : File h} {files : List (File h)} {record pack : List UInt8} {advice : List Advice} :
      (∃ fuel, packFile f fuel = some record) -> unpackFile h (record ++ pack) = .unpacked advice pack ->
      Exact f advice -> Replayed h files pack -> Replayed h (f :: files) (record ++ pack)

def nameRead {h : Host} (f : File h) : CString := .ofBuffer (truncateNl f.name.bytes)

structure Replayable {h : Host} (f : File h) : Prop where
  counted : f.vec.length < 2 ^ 32
  fits : f.name.bytes.length + 1 < pathMax
  resident : true ∈ f.vec -> nameRead f = f.name
  absent : true ∉ f.vec -> h.opens (nameRead f) = none

theorem ofUint32Bytes_uint32Bytes {n : Nat} (small : n < 2 ^ 32) :
    ofUint32Bytes (.ofNat n) (.ofNat (n / 256)) (.ofNat (n / 65536)) (.ofNat (n / 16777216)) = n := by
  simp only [ofUint32Bytes, UInt8.toNat_ofNat']
  omega

variable {ranges : List (Nat × Nat)} {c : Nat} {vec rest : List Bool}

theorem unpackRanges_bytes (valid : ∀ r ∈ ranges, r.1 < r.2 ∧ r.2 < 2 ^ 32) (pack : List UInt8) :
    unpackRanges ((ranges ++ [(0, 0)]).flatMap rangeBytes ++ pack) = some (ranges, pack) := by
  induction ranges with
  | nil => simp [rangeBytes, uint32Bytes, unpackRanges, ofUint32Bytes]
  | cons range ranges ih =>
    obtain ⟨⟨less, small⟩, others⟩ := List.forall_mem_cons.mp valid
    have first := ofUint32Bytes_uint32Bytes (n := range.1) (by omega)
    have second := ofUint32Bytes_uint32Bytes small
    have step : ∀ rest, unpackRanges (rangeBytes range ++ rest) =
        (unpackRanges rest).map fun r => (range :: r.1, r.2) := by
      intro rest
      rw [rangeBytes, uint32Bytes, uint32Bytes]
      simp only [List.cons_append, List.nil_append, unpackRanges, first, second]
      rw [if_neg (by omega), if_neg (by omega)]
    rw [List.cons_append, List.flatMap_cons, List.append_assoc, step, ih others]
    rfl

theorem unpackRanges_length (pack : List UInt8) {rest : List UInt8}
    (read : unpackRanges pack = some (ranges, rest)) : ∃ k, pack.length = rest.length + 8 * k := by
  fun_induction unpackRanges pack generalizing ranges rest with
  | case1 =>
    obtain ⟨-, rfl⟩ := Prod.mk.inj (Option.some.inj read)
    exact ⟨1, rfl⟩
  | case2 => cases read
  | case3 =>
    rename_i ih
    obtain ⟨r, inner, same⟩ := Option.map_eq_some_iff.mp read
    obtain ⟨-, rfl⟩ := Prod.mk.inj same
    obtain ⟨k, length⟩ := ih inner
    exact ⟨k + 1, by simp only [List.length_cons]; omega⟩
  | case4 => cases read

def scan : List Bool -> Nat -> Nat -> Bool -> List (Nat × Nat)
  | [], c, b, mapped => if mapped && decide (0 < b) then [(b, c)] else []
  | newMapped :: rest, c, b, mapped =>
    if !mapped && newMapped then scan rest (c + 1) c newMapped
    else if mapped && !newMapped then (b, c) :: scan rest (c + 1) b newMapped
    else scan rest (c + 1) b newMapped

theorem packLoop_scan (small : vec.length < 2 ^ 32) (fuel : Nat) (b : Nat) (mapped : Bool)
    (inside : c ≤ vec.length) : packLoop vec fuel c b mapped =
      if vec.length < fuel + c then some (scan (vec.drop c) c b mapped) else none := by
  induction fuel generalizing c b mapped with
  | zero => rw [packLoop, if_neg (by omega)]
  | succ fuel ih =>
    rw [packLoop]
    by_cases more : c < vec.length
    · have next : (c + 1) % 2 ^ 32 = c + 1 := Nat.mod_eq_of_lt (by omega)
      have here : vec.drop c = vec.getD c false :: vec.drop (c + 1) := by
        rw [List.drop_eq_getElem_cons more, List.getD_eq_getElem _ _ more]
      have later := fun b mapped => ih (c := c + 1) b mapped more
      have bound : vec.length < fuel + (c + 1) ↔ vec.length < fuel + 1 + c := by omega
      rw [if_pos more, here, scan]
      simp only [next, later, bound]
      split_ifs <;> rfl
    · obtain rfl : c = vec.length := by omega
      rw [if_neg more, List.drop_length, scan, if_pos (show vec.length < fuel + 1 + vec.length by omega)]

theorem packLoop_wraps (large : 2 ^ 32 ≤ vec.length) (fuel : Nat) (b : Nat) (mapped : Bool)
    (inside : c < 2 ^ 32) : packLoop vec fuel c b mapped = none := by
  induction fuel generalizing c b mapped with
  | zero => rfl
  | succ fuel ih =>
    have later := fun b mapped => ih (c := (c + 1) % 2 ^ 32) b mapped (Nat.mod_lt _ (by decide))
    rw [packLoop, if_pos (by omega)]
    simp only [later]
    split_ifs <;> rfl

theorem scan_valid {b : Nat} {mapped : Bool} (begun : mapped = true -> b < c) :
    ∀ r ∈ scan rest c b mapped, r.1 < r.2 ∧ r.2 ≤ c + rest.length := by
  induction rest generalizing c b mapped with
  | nil =>
    cases mapped with
    | false => simp [scan]
    | true =>
      intro r mem
      by_cases positive : 0 < b
      · simp only [scan, positive, decide_true, Bool.and_true, if_true, List.mem_singleton] at mem
        subst mem
        exact ⟨begun rfl, by simp⟩
      · simp [scan, positive] at mem
  | cons newMapped rest ih =>
    have shift : ∀ {b : Nat} {m : Bool}, (m = true -> b < c + 1) -> ∀ r ∈ scan rest (c + 1) b m,
        r.1 < r.2 ∧ r.2 ≤ c + (rest.length + 1) := by
      intro b m less r mem
      have bounds := ih less r mem
      omega
    cases mapped <;> cases newMapped <;> simp only [scan, List.length_cons]
    · exact shift (by simp)
    · exact shift (fun _ => Nat.lt_succ_self c)
    · intro r mem
      rcases List.mem_cons.mp mem with rfl | later
      · exact ⟨begun rfl, by omega⟩
      · exact shift (by simp) r later
    · exact shift (fun _ => Nat.lt_succ_of_lt (begun rfl))

def CoveredBy (ranges : List (Nat × Nat)) (page : Nat) : Prop :=
  ∃ r ∈ ranges, r.1 ≤ page ∧ page < r.2

theorem scan_full (all : ∀ page ∈ rest, page = true) (c : Nat) : scan rest c 0 true = [] := by
  induction rest generalizing c with
  | nil => rfl
  | cons newMapped rest ih =>
    obtain ⟨rfl, others⟩ := List.forall_mem_cons.mp all
    exact ih others (c + 1)

-- The pages of the run that is open, and the resident ones behind it, unless the run is from 0 to the end.
theorem scan_covers (rest : List Bool) (c b : Nat) (mapped : Bool) (begun : mapped = true -> b < c)
    (ends : (if mapped then b else c) = 0 -> (mapped = false ∧ rest = []) ∨ false ∈ rest) (page : Nat) :
    CoveredBy (scan rest c b mapped) page ↔
      (mapped = true ∧ b ≤ page ∧ page < c) ∨ (c ≤ page ∧ rest[page - c]? = some true) := by
  induction rest generalizing c b mapped with
  | nil =>
    cases mapped with
    | false => simp [scan, CoveredBy]
    | true =>
      have positive : 0 < b := Nat.pos_of_ne_zero fun zero => by simpa using ends zero
      simp [scan, CoveredBy, positive]
  | cons newMapped rest ih =>
    have index : c ≤ page ∧ (newMapped :: rest)[page - c]? = some true ↔
        (page = c ∧ newMapped = true) ∨ (c + 1 ≤ page ∧ rest[page - (c + 1)]? = some true) := by
      rcases Nat.lt_trichotomy page c with less | rfl | more
      · omega
      · simp
      · obtain ⟨k, rfl⟩ := Nat.exists_eq_add_of_lt more
        have shift : c + k + 1 - c = k + 1 := by omega
        have shift' : c + k + 1 - (c + 1) = k := by omega
        rw [shift, shift', List.getElem?_cons_succ]
        exact ⟨fun both => .inr ⟨by omega, both.2⟩,
          fun both => ⟨by omega, both.elim (fun here => absurd here.1 (by omega)) (·.2)⟩⟩
    rw [index]
    cases mapped <;> cases newMapped
    · have later := ih (c + 1) b false (by simp) (by simp)
      simpa [scan] using later
    · have later := ih (c + 1) c true (by omega) (by
        intro zero
        have hole := ends (by simpa using zero)
        simpa using hole)
      have here : c ≤ page ∧ page < c + 1 ↔ page = c := by omega
      simp only [true_and, here] at later
      simpa [scan] using later
    · have later := ih (c + 1) b false (by simp) (by simp)
      have split : CoveredBy (scan (false :: rest) c b true) page ↔
          (b ≤ page ∧ page < c) ∨ CoveredBy (scan rest (c + 1) b false) page := by
        simp [scan, CoveredBy]
      rw [split, later]
      simp
    · have later := ih (c + 1) b true (fun _ => Nat.lt_succ_of_lt (begun rfl)) (by
        intro zero
        have hole := ends (by simpa using zero)
        simpa using hole)
      have less := begun rfl
      have here : b ≤ page ∧ page < c + 1 ↔ (b ≤ page ∧ page < c) ∨ page = c := by omega
      simp only [true_and, here, or_assoc] at later
      simpa [scan, or_assoc] using later

section

variable {h : Host} {f : File h}

theorem covers_range (name : CString) (b c page : Nat) :
    Advice.Covers ⟨name, b * h.pageSize, (c - b) * h.pageSize⟩ h.pageSize page ↔ b ≤ page ∧ page < c := by
  have positive := h.positive
  simp only [Advice.Covers, ← Nat.add_mul, Nat.mul_lt_mul_right positive]
  omega

theorem covers_whole (f : File h) (name : CString) (page : Nat) :
    Advice.Covers ⟨name, 0, f.size⟩ h.pageSize page ↔ page < f.vec.length := by
  have positive := h.positive
  have size := f.nonempty
  have here : 0 < (page + 1) * h.pageSize := Nat.mul_pos (Nat.succ_pos page) positive
  have next : (page + 1) * h.pageSize = page * h.pageSize + h.pageSize := Nat.succ_mul page h.pageSize
  have pages : page < f.vec.length ↔ (page + 1) * h.pageSize ≤ f.size + h.pageSize - 1 := by
    rw [f.pages, ← Nat.succ_le_iff, Nat.le_div_iff_mul_le positive]
  simp only [Advice.Covers, pages]
  omega

theorem vec_nonempty (f : File h) : f.vec ≠ [] := by
  have size := f.nonempty
  have positive := h.positive
  have room : 0 < f.vec.length := by
    rw [f.pages]
    exact Nat.div_pos (by omega) positive
  exact List.length_pos_iff.mp room

theorem packFile_iff {record : List UInt8} : (∃ fuel, packFile f fuel = some record) ↔
    f.vec.length < 2 ^ 32 ∧ record =
      f.name.bytes ++ newline :: ((scan f.vec 0 0 false ++ [(0, 0)]).flatMap rangeBytes) := by
  by_cases small : f.vec.length < 2 ^ 32
  · have looped := fun fuel => packLoop_scan (c := 0) small fuel 0 false (Nat.zero_le _)
    simp only [packFile, looped, List.drop_zero, small, true_and]
    constructor
    · rintro ⟨fuel, packed⟩
      split at packed
      · exact (Option.some.inj packed).symm
      · cases packed
    · rintro rfl
      exact ⟨f.vec.length + 1, by rw [if_pos (by omega), Option.map_some]⟩
  · have large : 2 ^ 32 ≤ f.vec.length := Nat.le_of_not_lt small
    have never := fun fuel => packLoop_wraps (c := 0) large fuel 0 false (by decide)
    simp only [packFile, never, Option.map_none, small, false_and, reduceCtorEq, exists_const]

theorem scan_resident (hole : false ∈ f.vec) (page : Nat) :
    CoveredBy (scan f.vec 0 0 false) page ↔ f.vec[page]? = some true := by
  have covers := scan_covers f.vec 0 0 false (by simp) (fun _ => .inr hole) page
  simpa using covers

theorem scan_whole (full : false ∉ f.vec) : scan f.vec 0 0 false = [] := by
  have all : ∀ page ∈ f.vec, page = true := fun page mem => by
    cases page with
    | false => exact absurd mem full
    | true => rfl
  cases pages : f.vec with
  | nil => rfl
  | cons first rest =>
    rw [pages, List.forall_mem_cons] at all
    obtain ⟨rfl, others⟩ := all
    exact scan_full others 1

theorem scan_empty (nothing : true ∉ f.vec) : scan f.vec 0 0 false = [] := by
  have hole : false ∈ f.vec := by
    obtain ⟨page, mem⟩ := List.exists_mem_of_ne_nil _ (vec_nonempty f)
    cases page with
    | false => exact mem
    | true => exact absurd mem nothing
  refine List.eq_nil_iff_forall_not_mem.mpr fun r mem => ?_
  have less := (scan_valid (by simp) r mem).1
  exact nothing (List.mem_of_getElem? ((scan_resident hole r.1).mp ⟨r, mem, le_refl _, less⟩))

theorem adviceFor_name {fn : CString} {a : Advice} (mem : a ∈ adviceFor h fn ranges) : a.name = fn := by
  rw [adviceFor] at mem
  cases found : h.opens fn with
  | none => simp [found] at mem
  | some size =>
    simp only [found] at mem
    split at mem
    · obtain rfl := List.mem_singleton.mp mem
      rfl
    · obtain ⟨r, -, rfl⟩ := List.mem_map.mp mem
      rfl

theorem exact_adviceFor (unchanged : h.opens f.name = some f.size) :
    Exact f (adviceFor h f.name (scan f.vec 0 0 false)) ↔ true ∈ f.vec := by
  rw [adviceFor, unchanged]
  by_cases resident : true ∈ f.vec
  · simp only [resident, iff_true]
    intro name page
    by_cases hole : false ∈ f.vec
    · have found : scan f.vec 0 0 false ≠ [] := by
        obtain ⟨page, here⟩ := List.getElem?_of_mem resident
        obtain ⟨r, mem, -⟩ := (scan_resident hole page).mpr here
        exact List.ne_nil_of_mem mem
      rw [if_neg found, ← scan_resident hole page]
      constructor
      · rintro ⟨a, mem, rfl, covers⟩
        obtain ⟨r, among, rfl⟩ := List.mem_map.mp mem
        exact ⟨rfl, r, among, (covers_range _ _ _ _).mp covers⟩
      · rintro ⟨rfl, r, among, covers⟩
        exact ⟨_, List.mem_map_of_mem among, rfl, (covers_range _ _ _ _).mpr covers⟩
    · have all : ∀ page < f.vec.length, f.vec[page]? = some true := by
        intro page inside
        rw [List.getElem?_eq_getElem inside]
        cases value : f.vec[page] with
        | false => exact absurd (value ▸ List.getElem_mem inside) hole
        | true => rfl
      rw [scan_whole hole, if_pos rfl]
      simp only [List.mem_singleton, exists_eq_left, covers_whole]
      constructor
      · rintro ⟨rfl, inside⟩
        exact ⟨rfl, all page inside⟩
      · rintro ⟨rfl, here⟩
        exact ⟨rfl, (List.getElem?_eq_some_iff.mp here).1⟩
  · simp only [resident, iff_false]
    intro exactly
    rw [scan_empty resident, if_pos rfl] at exactly
    have first := List.length_pos_iff.mpr (vec_nonempty f)
    obtain ⟨-, here⟩ := (exactly f.name 0).mp ⟨_, List.mem_singleton_self _, rfl, (covers_whole f _ 0).mpr first⟩
    exact resident (List.mem_of_getElem? here)

theorem exact_iff (unchanged : h.opens f.name = some f.size) :
    Exact f (adviceFor h (nameRead f) (scan f.vec 0 0 false)) ↔
      (true ∈ f.vec -> nameRead f = f.name) ∧ (true ∉ f.vec -> h.opens (nameRead f) = none) := by
  by_cases resident : true ∈ f.vec
  · simp only [resident, true_implies, not_true, false_implies, and_true]
    constructor
    · intro exactly
      obtain ⟨page, here⟩ := List.getElem?_of_mem resident
      obtain ⟨a, mem, same, -⟩ := (exactly f.name page).mpr ⟨rfl, here⟩
      rw [← adviceFor_name mem, same]
    · intro same
      rw [same]
      exact (exact_adviceFor unchanged).mpr resident
  · simp only [resident, false_implies, not_false_eq_true, true_implies, true_and]
    have nothing : ∀ page, f.vec[page]? ≠ some true := fun page here => resident (List.mem_of_getElem? here)
    rw [scan_empty resident, adviceFor]
    cases found : h.opens (nameRead f) with
    | none => simp [Exact, nothing]
    | some size =>
      have positive := h.verified _ _ found
      have width := h.positive
      simp only [reduceCtorEq, iff_false]
      intro exactly
      have covers : Advice.Covers ⟨nameRead f, 0, size⟩ h.pageSize 0 := by
        simp only [Advice.Covers]
        omega
      exact nothing 0 ((exactly _ 0).mp ⟨_, List.mem_singleton_self _, rfl, covers⟩).2

theorem truncateNl_newline (name : List UInt8) : truncateNl (name ++ [newline]) = truncateNl name := by
  have stops : isNewline newline = true := by decide
  induction name with
  | nil => simp [truncateNl, stops]
  | cons byte name ih =>
    simp only [truncateNl] at ih
    simp only [truncateNl, List.cons_append, List.takeWhile_cons, ih]

theorem unpackFile_record (small : f.vec.length < 2 ^ 32) (fits : f.name.bytes.length + 1 < pathMax)
    (pack : List UInt8) :
    unpackFile h (f.name.bytes ++ newline :: ((scan f.vec 0 0 false ++ [(0, 0)]).flatMap rangeBytes) ++ pack) =
      .unpacked (adviceFor h (nameRead f) (scan f.vec 0 0 false)) pack := by
  have valid : ∀ r ∈ scan f.vec 0 0 false, r.1 < r.2 ∧ r.2 < 2 ^ 32 := by
    intro r mem
    have bounds := scan_valid (by simp) r mem
    omega
  rw [List.append_assoc, List.cons_append, unpackFile, fgets_line _ _ _ f.single, if_pos (by omega)]
  simp only [unpackRanges_bytes valid, truncateNl_newline, nameRead]

theorem rangeBytes_length (ranges : List (Nat × Nat)) : (ranges.flatMap rangeBytes).length = 8 * ranges.length := by
  induction ranges with
  | nil => rfl
  | cons range ranges ih =>
    rw [List.flatMap_cons, List.length_append, ih, List.length_cons]
    simp only [rangeBytes, uint32Bytes, List.length_append, List.length_cons, List.length_nil]
    omega

theorem unpackFile_long (long : pathMax ≤ f.name.bytes.length + 1) (ranges : List (Nat × Nat))
    (pack : List UInt8) (advice : List Advice) :
    unpackFile h (f.name.bytes ++ newline :: (ranges.flatMap rangeBytes) ++ pack) ≠ .unpacked advice pack := by
  have short := f.short
  rw [List.append_assoc, List.cons_append, unpackFile, fgets_line _ _ _ f.single, if_neg (by omega),
    List.drop_eq_nil_of_le (by omega), List.nil_append]
  intro unpacked
  cases read : unpackRanges (newline :: (ranges.flatMap rangeBytes ++ pack)) with
  | none => simp [read] at unpacked
  | some r =>
    obtain ⟨found, rest⟩ := r
    obtain ⟨k, length⟩ := unpackRanges_length _ read
    simp only [read, Unpacked.unpacked.injEq] at unpacked
    obtain ⟨-, rfl⟩ := unpacked
    rw [List.length_cons, List.length_append, rangeBytes_length] at length
    omega

theorem Replayed.replayable {files : List (File h)} {pack : List UInt8} (replayed : Replayed h files pack)
    (unchanged : ∀ f ∈ files, h.opens f.name = some f.size) : ∀ f ∈ files, Replayable f := by
  induction replayed with
  | done => simp
  | next packed unpacked exactly later ih =>
    rw [List.forall_mem_cons] at unchanged ⊢
    obtain ⟨small, rfl⟩ := packFile_iff.mp packed
    have fits : _ := Nat.lt_of_not_le fun long => unpackFile_long long _ _ _ unpacked
    rw [unpackFile_record small fits] at unpacked
    obtain ⟨rfl, -⟩ := Unpacked.unpacked.inj unpacked
    obtain ⟨resident, absent⟩ := (exact_iff unchanged.1).mp exactly
    exact ⟨⟨small, fits, resident, absent⟩, ih unchanged.2⟩

end

def someFile : Host := ⟨4096, fun _ => some 1, by decide, by simp⟩

def onePage (resident : Bool) : File someFile :=
  ⟨.ofString "/a", 1, [resident], Nat.one_pos, rfl, by decide, by decide⟩

def threePages : Host := ⟨4096, fun _ => some 12288, by decide, by simp⟩

def pages (vec : List Bool) (three : vec.length = 3) : File threePages :=
  ⟨.ofString "/a", 12288, vec, by decide, three, by decide, by decide⟩

end Systemd.Readahead
