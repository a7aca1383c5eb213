import Systemd.Sockets.Reload

set_option autoImplicit false

namespace Systemd.Sockets

open List Option

open Serialization (decimal decimal_digits decimal_digit decimal_terminated digitValue isDigitOf isSpace
  printInt printNat safeAtoi scanDigits scanDigits_decimal scanNumber scanNumber_decimal wholeNumber
  wholeNumber_printNat)

theorem printNat_bytes (number : Nat) : (printNat number).bytes = decimal 20 number :=
  CString.ofBuffer_bytes (decimal_terminated 20 number)

theorem printInt_bytes {number : Int32} (positive : 0 ≤ number.toInt) :
    (printInt number).bytes = decimal 20 number.toInt.toNat := by
  have same : number.toInt.natAbs = number.toInt.toNat := by omega
  rw [printInt, if_neg (by omega), nil_append, CString.ofBuffer_bytes (decimal_terminated 20 _), same]

variable {byte : UInt8}

theorem digit_no_space (digit : isDigitOf 10 byte = true) : isSpace byte = false := by
  cases blank : isSpace byte with
  | false => rfl
  | true =>
    have cases : byte = 32 ∨ (9 ≤ byte ∧ byte ≤ 13) := by simpa [isSpace] using blank
    have missing : digitValue byte = none := by
      unfold digitValue
      simp only [UInt8.le_iff_toNat_le, UInt8.toNat_ofNat] at cases ⊢
      rcases cases with rfl | ⟨above, below⟩
      · decide
      · rw [if_neg (by omega), if_neg (by omega), if_neg (by omega)]
    simp [isDigitOf, missing] at digit

theorem blank_stops (rest : List UInt8) : ∀ byte ∈ ((32 : UInt8) :: rest).head?, digitValue byte = none := by
  intro byte head
  obtain rfl : (32 : UInt8) = byte := by simpa using head
  rfl

theorem scanNumber_blank (text : List UInt8) : scanNumber (32 :: text) = scanNumber text := by
  have blank : isSpace 32 = true := by decide
  simp [scanNumber, blank]

theorem scanInt_decimal {number : Nat} (small : number < 2 ^ 31) (rest : List UInt8) :
    scanInt (decimal 20 number ++ 32 :: rest) = some (Int32.ofNat number, 32 :: rest) := by
  have scanned := scanNumber_decimal (by omega : number < 10 ^ 20) (by decide) (32 :: rest)
    (blank_stops rest)
  have bounded : min number (2 ^ 63 - 1) = number := by omega
  rw [scanInt, scanned]
  simp only [map_some, Bool.false_eq_true, if_false, bounded]
  rfl

theorem scanInt_blank (text : List UInt8) : scanInt (32 :: text) = scanInt text := by
  rw [scanInt, scanNumber_blank, scanInt]

theorem parsePortNumber_printNat (port : PortNumber) :
    parsePortNumber (printNat port.number.toNat) = some port := by
  have bound : port.number.toNat < 2 ^ 16 := port.number.toNat_lt
  have positive : port.number.toNat ≠ 0 := fun zero =>
    port.given (UInt16.toNat_inj.mp zero)
  have value : safeAtou (printNat port.number.toNat) = some port.number.toNat := by
    rw [safeAtou, wholeNumber_printNat (by omega)]
    dsimp only
    rw [if_pos ⟨by omega, by simp; omega⟩]
    simp
  rw [parsePortNumber, value]
  dsimp only
  rw [dif_pos ⟨by omega, by omega⟩]
  simp

theorem splitAtByte_append {front : List UInt8} (absent : byte ∉ front) (back : List UInt8) :
    splitAtByte byte (front ++ byte :: back) = some (front, back) := by
  have passed : ∀ other ∈ front, decide (other ≠ byte) = true := by
    intro other mem
    simpa using fun same : other = byte => absent (same ▸ mem)
  rw [splitAtByte, if_pos (by simp), takeWhile_append_of_pos passed,
    dropWhile_append_of_pos passed]
  simp

theorem joined_terminated (front back : CString) (given : byte ≠ 0) :
    (0 : UInt8) ∉ front.bytes ++ byte :: back.bytes := by
  simp [front.terminated, back.terminated, Ne.symm given]

theorem joined_bytes (front back : CString) (given : byte ≠ 0) :
    (CString.ofBuffer (front.bytes ++ byte :: back.bytes)).bytes = front.bytes ++ byte :: back.bytes :=
  CString.ofBuffer_bytes (joined_terminated front back given)

def Network.Reads (network : Network) : Sockaddr -> Prop
  | .inet address _ =>
    network.inetPton (network.inetNtop address) = some address ∧
      ∀ byte ∈ (network.inetNtop address).bytes, byte = 46 ∨ 48 ≤ byte ∧ byte ≤ 57
  | .inet6 address _ _ =>
    network.inet6Pton (network.inet6Ntop address) = some address ∧
      closeBracket ∉ (network.inet6Ntop address).bytes
  | .unix _ | .abstract _ | .netlink _ _ => True

theorem dotted_byte (dotted : byte = 46 ∨ 48 ≤ byte ∧ byte ≤ 57) :
    byte ≠ openBracket ∧ byte ≠ slash ∧ byte ≠ atSign ∧ byte ≠ colon ∧ isSpace byte = false := by
  rcases dotted with rfl | ⟨above, below⟩
  · decide
  · simp only [UInt8.le_iff_toNat_le, UInt8.toNat_ofNat] at above below
    refine ⟨?_, ?_, ?_, ?_, ?_⟩
    · rintro rfl
      simp [openBracket] at below
    · rintro rfl
      simp [slash] at above
    · rintro rfl
      simp [atSign] at below
    · rintro rfl
      simp [colon] at below
    · have notBlank : byte ≠ 32 := by
        rintro rfl
        simp at above
      simp only [isSpace, notBlank, decide_false, Bool.false_or, Bool.and_eq_false_iff,
        decide_eq_false_iff_not, UInt8.le_iff_toNat_le, UInt8.toNat_ofNat]
      omega

section

variable {network : Network}

variable {text : CString} {port : PortNumber}

theorem parseSockaddr_bracket (bracket : text.bytes.head? = some openBracket) :
    parseSockaddr network text = parseInet6 network text.bytes.tail := by
  rw [parseSockaddr, if_pos bracket]

theorem parseSockaddr_abstract (sign : text.bytes.head? = some atSign) :
    parseSockaddr network text = parseAbstract (.ofBuffer text.bytes.tail) := by
  rw [parseSockaddr, if_neg (by rw [sign]; decide), dif_neg (by rw [sign]; decide), if_pos sign]

theorem parseSockaddr_host {name digits : List UInt8}
    (plain : ∀ byte, text.bytes.head? = some byte -> byte ≠ openBracket ∧ byte ≠ slash ∧ byte ≠ atSign)
    (parts : splitAtByte colon text.bytes = some (name, digits)) :
    parseSockaddr network text = parseHost network name digits := by
  have notAbsolute : ¬ text.bytes.head? = some 47 := fun first => (plain _ first).2.1 rfl
  rw [parseSockaddr, if_neg fun first => (plain _ first).1 rfl, dif_neg notAbsolute,
    if_neg fun first => (plain _ first).2.2 rfl, parts]

theorem parse_inet {address : BitVec 32} (reads : network.Reads (.inet address port)) :
    parseSockaddr network (.ofBuffer (sockaddrPrint network (.inet address port))) =
      some (.inet address port) := by
  obtain ⟨back, dotted⟩ := reads
  have bytes := joined_bytes (network.inetNtop address) (printNat port.number.toNat)
    (by decide : colon ≠ 0)
  have noColon : colon ∉ (network.inetNtop address).bytes := fun mem =>
    (dotted_byte (dotted _ mem)).2.2.2.1 rfl
  have plain : ∀ byte, (CString.ofBuffer ((network.inetNtop address).bytes ++
      colon :: (printNat port.number.toNat).bytes)).bytes.head? = some byte ->
        byte ≠ openBracket ∧ byte ≠ slash ∧ byte ≠ atSign := by
    intro byte first
    rw [bytes] at first
    cases text : (network.inetNtop address).bytes with
    | nil =>
      obtain rfl : colon = byte := by simpa [text] using first
      decide
    | cons digit more =>
      obtain rfl : digit = byte := by simpa [text] using first
      have other := dotted_byte (dotted digit (by simp [text]))
      exact ⟨other.1, other.2.1, other.2.2.1⟩
  rw [sockaddrPrint, parseSockaddr_host plain (by rw [bytes, splitAtByte_append noColon])]
  simp only [parseHost, CString.ofBuffer_self, parsePortNumber_printNat, back]

theorem parse_inet6 {address : BitVec 128} {scope : UInt32}
    (reads : network.Reads (.inet6 address port scope)) :
    parseSockaddr network (.ofBuffer (sockaddrPrint network (.inet6 address port scope))) =
      if network.ipv6IsSupported then some (.inet6 address port 0) else none := by
  obtain ⟨back, closed⟩ := reads
  have terminated : (0 : UInt8) ∉ openBracket :: (network.inet6Ntop address).bytes ++
      closeBracket :: colon :: (printNat port.number.toNat).bytes := by
    simp [(network.inet6Ntop address).terminated, (printNat port.number.toNat).terminated,
      openBracket, closeBracket, colon]
  have bytes := CString.ofBuffer_bytes terminated
  rw [sockaddrPrint, parseSockaddr_bracket (by rw [bytes]; rfl), bytes]
  simp only [cons_append, tail_cons, parseInet6, splitAtByte_append closed,
    CString.ofBuffer_self, back, if_true, parsePortNumber_printNat, map_some]

theorem parse_unix (path : UnixPath) :
    parseSockaddr network (.ofBuffer (sockaddrPrint network (.unix path))) = some (.unix path) := by
  have notBracket : path.text.bytes.head? ≠ some openBracket := by
    rw [path.absolute]
    decide
  rw [sockaddrPrint, CString.ofBuffer_self, parseSockaddr, if_neg notBracket, dif_pos path.absolute,
    parseUnix, dif_pos path.short]

theorem parse_abstract (name : AbstractName) :
    parseSockaddr network (.ofBuffer (sockaddrPrint network (.abstract name))) =
      some (.abstract name) := by
  have terminated : (0 : UInt8) ∉ atSign :: name.text.bytes := by
    simp [name.text.terminated, atSign]
  have bytes := CString.ofBuffer_bytes terminated
  rw [sockaddrPrint, parseSockaddr_abstract (by rw [bytes]; rfl), bytes, tail_cons,
    CString.ofBuffer_self, parseAbstract, dif_pos name.short]

theorem decimal_nonempty (digits number : Nat) : decimal (digits + 1) number ≠ [] := by
  simp [decimal]

theorem decimal_dropWhile (number : Nat) (rest : List UInt8) :
    (decimal 20 number ++ rest).dropWhile isSpace = decimal 20 number ++ rest := by
  obtain ⟨first, more, text⟩ := exists_cons_of_ne_nil (decimal_nonempty 19 number)
  have digit := decimal_digits 20 number first (text ▸ mem_cons_self)
  rw [text, cons_append, dropWhile_cons, if_neg (by simp [digit_no_space digit])]

theorem scanUnsigned_printNat (groups : UInt32) :
    scanUnsigned (32 :: (printNat groups.toNat).bytes) = groups := by
  have bound : groups.toNat < 2 ^ 32 := groups.toNat_lt
  have skipped : (32 :: decimal 20 groups.toNat).dropWhile isSpace = decimal 20 groups.toNat := by
    have blank : isSpace 32 = true := by decide
    have kept := decimal_dropWhile groups.toNat []
    rw [append_nil] at kept
    rw [dropWhile_cons, if_pos blank, kept]
  obtain ⟨first, more, text⟩ := exists_cons_of_ne_nil (decimal_nonempty 19 groups.toNat)
  have digit := decimal_digits 20 groups.toNat first (text ▸ mem_cons_self)
  have notMinus : first ≠ 45 := by
    rintro rfl
    revert digit
    decide
  have notPlus : first ≠ 43 := by
    rintro rfl
    revert digit
    decide
  have head : (decimal 20 groups.toNat).head? = some first := by rw [text]; rfl
  have value := scanDigits_decimal (by omega : groups.toNat < 10 ^ 20)
  have bounded : min groups.toNat 18446744073709551615 = groups.toNat := by omega
  rw [printNat_bytes, scanUnsigned, skipped]
  simp [head, notMinus, notPlus, digit, value, bounded]

theorem netlinkFamily_table : ∀ entry ∈ netlinkFamilyTable,
    netlinkFamilyFromString (.ofString entry.2) = some (Int32.ofNat entry.1) ∧
      ((CString.ofString entry.2).bytes.all fun byte => !isSpace byte) = true ∧
      ((CString.ofString entry.2).bytes.head?.any fun byte => byte ≠ 45 && !isDigitOf 10 byte) = true := by
  decide

variable (number : Int32)

theorem printInt_head :
    ((printInt number).bytes.head?.any fun byte => byte = 45 || isDigitOf 10 byte) = true := by
  obtain ⟨first, more, text⟩ := exists_cons_of_ne_nil (decimal_nonempty 19 number.toInt.natAbs)
  have digit := decimal_digits 20 number.toInt.natAbs first (text ▸ mem_cons_self)
  have terminated := decimal_terminated 20 number.toInt.natAbs
  by_cases negative : number.toInt < 0
  next =>
    rw [printInt, if_pos negative, CString.ofBuffer_bytes (by simpa using terminated)]
    rfl
  next =>
    rw [printInt, if_neg negative, nil_append, CString.ofBuffer_bytes terminated, text]
    simp [digit]

theorem printInt_no_space : ∀ byte ∈ (printInt number).bytes, isSpace byte = false := by
  intro byte mem
  have terminated := decimal_terminated 20 number.toInt.natAbs
  rw [printInt] at mem
  split at mem
  next =>
    rw [CString.ofBuffer_bytes (by simpa using terminated)] at mem
    rcases mem_append.mp mem with minus | digit
    · obtain rfl : byte = 45 := by simpa using minus
      decide
    · exact digit_no_space (decimal_digits _ _ byte digit)
  next =>
    rw [nil_append, CString.ofBuffer_bytes terminated] at mem
    exact digit_no_space (decimal_digits _ _ byte mem)

theorem netlinkFamilyFromString_printInt : netlinkFamilyFromString (printInt number) = none := by
  have head := printInt_head number
  rw [netlinkFamilyFromString, map_eq_none_iff, find?_eq_none]
  intro entry mem same
  have known := (netlinkFamily_table entry mem).2.2
  rw [of_decide_eq_true same] at head
  cases first : (CString.ofString entry.2).bytes.head? with
  | none => simp [first] at head
  | some byte => simp_all

theorem netlinkFamily_reads (protocol : Int32) :
    let family := (netlinkFamilyToString protocol).getD (printInt protocol)
    family.bytes ≠ [] ∧ (∀ byte ∈ family.bytes, isSpace byte = false) ∧
      ((netlinkFamilyFromString family).orElse fun _ => safeAtoi family) = some protocol := by
  cases known : netlinkFamilyTable.find? fun entry => protocol = Int32.ofNat entry.1 with
  | none =>
    have unknown : netlinkFamilyToString protocol = none := by
      rw [netlinkFamilyToString, known, map_none]
    have head := printInt_head protocol
    rw [unknown, getD_none]
    refine ⟨fun empty => ?_, printInt_no_space protocol, ?_⟩
    · simp [empty] at head
    · rw [netlinkFamilyFromString_printInt, Serialization.safeAtoi_printInt]
      rfl
  | some entry =>
    have named : netlinkFamilyToString protocol = some (.ofString entry.2) := by
      rw [netlinkFamilyToString, known, map_some]
    have same : protocol = Int32.ofNat entry.1 := by simpa using find?_some known
    obtain ⟨back, plain, head⟩ := netlinkFamily_table entry (mem_of_find?_eq_some known)
    rw [named, getD_some]
    refine ⟨fun empty => ?_, fun byte mem => ?_, ?_⟩
    · simp [empty] at head
    · simpa using all_eq_true.mp plain byte mem
    · rw [back, same]
      rfl

theorem parse_netlink (protocol : Int32) (groups : UInt32) :
    socketAddressParseNetlink (.ofBuffer (sockaddrPrint network (.netlink protocol groups))) =
      some ⟨.netlink protocol groups, sockRaw⟩ := by
  obtain ⟨nonempty, plain, reads⟩ := netlinkFamily_reads protocol
  rw [sockaddrPrint]
  generalize (netlinkFamilyToString protocol).getD (printInt protocol) = family at *
  have bytes := joined_bytes family (printNat groups.toNat) (by decide : (32 : UInt8) ≠ 0)
  obtain ⟨first, more, text⟩ := exists_cons_of_ne_nil nonempty
  have word : (family.bytes ++ 32 :: (printNat groups.toNat).bytes).dropWhile isSpace =
      family.bytes ++ 32 :: (printNat groups.toNat).bytes := by
    rw [text, cons_append, dropWhile_cons,
      if_neg (by simp [plain first (text ▸ mem_cons_self)])]
  have inside : ∀ byte ∈ family.bytes, (!isSpace byte) = true := by simpa using plain
  have blank : isSpace 32 = true := by decide
  have taken : (family.bytes ++ 32 :: (printNat groups.toNat).bytes).takeWhile (!isSpace ·) =
      family.bytes := by
    rw [takeWhile_append_of_pos inside]
    simp [blank]
  have left : (family.bytes ++ 32 :: (printNat groups.toNat).bytes).dropWhile (!isSpace ·) =
      32 :: (printNat groups.toNat).bytes := by
    rw [dropWhile_append_of_pos inside]
    simp [blank]
  rw [socketAddressParseNetlink, bytes]
  simp only [word, taken, left, CString.ofBuffer_self, reads, scanUnsigned_printNat]
  rw [if_neg (by simp)]

end

end Systemd.Sockets
