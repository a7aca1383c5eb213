import Systemd.Sockets.Texts

set_option autoImplicit false

namespace Systemd.Sockets

open List

open Serialization (ItemKey decimal isSpace printInt printNat)

section

variable {cfg : Config} {network : Network}

def addressText (network : Network) (a : Sockaddr) : CString :=
  .ofBuffer ((CString.ofBuffer (sockaddrPrint network a)).bytes.dropWhile isSpace)

def writtenFits (network : Network) : Listen -> Listen -> Bool
  | .fifo path => fitsFifo (.ofBuffer (path.bytes.dropWhile isSpace))
  | .special path => fitsSpecial (.ofBuffer (path.bytes.dropWhile isSpace))
  | .socket address _ _ =>
    match address.sockaddr with
    | .netlink _ _ => fitsNetlink (addressText network address.sockaddr)
    | _ => fitsSocket network address.type (addressText network address.sockaddr)
  | .mqueue _ => fun _ => false

variable {text : List UInt8} {copy : Nat} {type : Int32} {listen : Listen}

theorem portValue_bytes (copy : Nat) (terminated : 0 ∉ text) :
    (portValue copy text).bytes = decimal 20 copy ++ 32 :: text := by
  rw [portValue, CString.ofBuffer_bytes, printNat_bytes]
  simp [(printNat copy).terminated, terminated]

theorem dropWhile_blank (text : List UInt8) :
    (32 :: text).dropWhile isSpace = text.dropWhile isSpace := by
  have blank : isSpace 32 = true := by decide
  rw [dropWhile_cons, if_pos blank]

theorem deserializeNamed_written (fits : CString -> Listen -> Bool) (small : copy < 2 ^ 31)
    (terminated : 0 ∉ text) (state : Restoring) :
    deserializeNamed fits (portValue copy text) state =
      claimFd (fits (.ofBuffer (text.dropWhile isSpace))) (Int32.ofNat copy) state := by
  rw [deserializeNamed, portValue_bytes copy terminated, scanInt_decimal small]
  simp only [dropWhile_blank]

theorem type_of_verified {address : SocketAddress} (valid : socketAddressVerify address = true)
    (other : ∀ protocol groups, address.sockaddr ≠ .netlink protocol groups) :
    address.type = sockStream ∨ address.type = sockDgram ∨ address.type = sockSeqpacket := by
  unfold socketAddressVerify at valid
  split at valid
  next => simp only [Bool.or_eq_true, decide_eq_true_eq] at valid; tauto
  next => simp only [Bool.or_eq_true, decide_eq_true_eq] at valid; tauto
  next => simpa [or_assoc] using valid
  next => simpa [or_assoc] using valid
  next protocol groups same => exact absurd same (other protocol groups)

theorem scanInt_type (known : type = sockStream ∨ type = sockDgram ∨ type = sockSeqpacket)
    (text : List UInt8) :
    scanInt (32 :: (printInt type).bytes ++ 32 :: text) = some (type, 32 :: text) ∧ ¬ type < 0 := by
  have positive : 0 ≤ type.toInt := by
    rcases known with rfl | rfl | rfl <;> decide
  have small : type.toInt.toNat < 2 ^ 31 := by
    rcases known with rfl | rfl | rfl <;> decide
  have same : Int32.ofNat type.toInt.toNat = type := by
    rcases known with rfl | rfl | rfl <;> rfl
  rw [cons_append, scanInt_blank, printInt_bytes positive, scanInt_decimal small, same]
  refine ⟨rfl, ?_⟩
  rcases known with rfl | rfl | rfl <;> decide

theorem deserializeSocket_written (small : copy < 2 ^ 31)
    (known : type = sockStream ∨ type = sockDgram ∨ type = sockSeqpacket) (text : CString)
    (state : Restoring) :
    deserializeSocket network (portValue copy ((printInt type).bytes ++ 32 :: text.bytes)) state =
      claimFd (fitsSocket network type (.ofBuffer (text.bytes.dropWhile isSpace))) (Int32.ofNat copy)
        state := by
  obtain ⟨read, positive⟩ := scanInt_type known text.bytes
  have terminated := joined_terminated (printInt type) text (by decide : (32 : UInt8) ≠ 0)
  rw [deserializeSocket, portValue_bytes copy terminated, scanInt_decimal small]
  simp only [← cons_append, read, if_neg positive, dropWhile_blank]

theorem item_written {key : ItemKey} (printed : portText network listen = some (key, text))
    (small : copy < 2 ^ 31) (state : Restoring) :
    socketDeserializeItem cfg network key.text (portValue copy text) state =
      claimFd (writtenFits network listen) (Int32.ofNat copy) state := by
  have mem : key ∈ socketKeys := portKeys_socket (portText_key printed)
  unfold socketDeserializeItem
  rw [socketKey_text mem]
  cases listen with
  | fifo path =>
    cases printed
    exact deserializeNamed_written fitsFifo small path.terminated state
  | special path =>
    cases printed
    exact deserializeNamed_written fitsSpecial small path.terminated state
  | mqueue path => cases printed
  | socket address valid raw =>
    obtain ⟨sockaddr, type⟩ := address
    have print : socketAddressPrint network ⟨sockaddr, type⟩ =
        some (.ofBuffer (sockaddrPrint network sockaddr)) := by
      rw [socketAddressPrint, if_pos valid]
    have known := type_of_verified valid
    simp only [portText, print] at printed
    cases sockaddr with
    | netlink protocol groups =>
      cases printed
      exact deserializeNamed_written fitsNetlink small (CString.terminated _) state
    | inet | inet6 | unix | abstract =>
      cases printed
      exact deserializeSocket_written small (known (by simp)) _ state

/-- Whether the item written for a port can be read as one about it. No item is written for a message
queue, blanks in front of a path are lost, and an IPv6 address is only read where there is IPv6. -/
def Readable (network : Network) : Listen -> Prop
  | .fifo path | .special path => path.bytes.head?.any isSpace = false
  | .socket address _ _ =>
    match address.sockaddr with
    | .inet6 _ _ _ => network.ipv6IsSupported = true
    | _ => True
  | .mqueue _ => False

def Listen.Matches : Listen -> Listen -> Prop
  | .fifo path, .fifo other => other = path
  | .special path, .special other => other = path
  | .socket address _ _, .socket other _ _ => socketAddressEqual other address = true
  | _, _ => False

def Network.ReadsListen (network : Network) : Listen -> Prop
  | .socket address _ _ => network.Reads address.sockaddr
  | .fifo _ | .special _ | .mqueue _ => True

theorem dropWhile_plain (plain : text.head?.any isSpace = false) : text.dropWhile isSpace = text := by
  cases text with
  | nil => rfl
  | cons first more =>
    have here : isSpace first = false := by simpa using plain
    rw [dropWhile_cons, if_neg (by simp [here])]

theorem dropWhile_same_iff (text : List UInt8) :
    text.dropWhile isSpace = text ↔ text.head?.any isSpace = false := by
  refine ⟨fun same => ?_, dropWhile_plain⟩
  cases text with
  | nil => rfl
  | cons first more =>
    cases blank : isSpace first with
    | false => simp [blank]
    | true =>
      rw [dropWhile_cons, if_pos blank] at same
      have shorter := (dropWhile_suffix isSpace (l := more)).length_le
      rw [same, length_cons] at shorter
      omega

theorem addressText_print {a : Sockaddr} (reads : network.Reads a) :
    addressText network a = .ofBuffer (sockaddrPrint network a) := by
  have plain : (CString.ofBuffer (sockaddrPrint network a)).bytes.head?.any isSpace = false := by
    cases a with
    | inet address port =>
      have bytes := joined_bytes (network.inetNtop address) (printNat port.number.toNat)
        (by decide : colon ≠ 0)
      rw [sockaddrPrint, bytes]
      cases text : (network.inetNtop address).bytes with
      | nil => rfl
      | cons first more =>
        simpa using (dotted_byte (reads.2 first (by simp [text]))).2.2.2.2
    | inet6 address port scope => rfl
    | unix path =>
      rw [sockaddrPrint, CString.ofBuffer_self, path.absolute]
      rfl
    | abstract name => rfl
    | netlink protocol groups =>
      obtain ⟨nonempty, inside, -⟩ := netlinkFamily_reads protocol
      rw [sockaddrPrint, joined_bytes _ (printNat groups.toNat) (by decide : (32 : UInt8) ≠ 0)]
      obtain ⟨first, more, text⟩ := exists_cons_of_ne_nil nonempty
      simpa [text] using inside first (text ▸ mem_cons_self)
  rw [addressText, dropWhile_plain plain, CString.ofBuffer_self]

theorem sockaddrEqual_self (a : Sockaddr) : sockaddrEqual a a = true := by
  cases a <;> simp [sockaddrEqual]

theorem fitsSocket_written {sockaddr : Sockaddr} (reads : network.Reads sockaddr)
    (other : ∀ protocol groups, sockaddr ≠ .netlink protocol groups) (supported : ∀ address port scope,
      sockaddr = .inet6 address port scope -> network.ipv6IsSupported = true) (b : SocketAddress) :
    socketAddressIs network b (addressText network sockaddr) type =
      socketAddressEqual b ⟨sockaddr, type⟩ := by
  rw [addressText_print reads, socketAddressIs, socketAddressParse]
  cases sockaddr with
  | inet address port => rw [parse_inet reads]; rfl
  | inet6 address port scope =>
    rw [parse_inet6 reads, if_pos (supported address port scope rfl)]
    obtain ⟨sockaddr, type'⟩ := b
    cases sockaddr <;> rfl
  | unix path => rw [parse_unix]; rfl
  | abstract name => rw [parse_abstract]; rfl
  | netlink protocol groups => exact absurd rfl (other protocol groups)

theorem fitsNetlink_written (protocol : Int32) (groups : UInt32) (b : SocketAddress) :
    socketAddressIsNetlink b (addressText network (.netlink protocol groups)) =
      socketAddressEqual b ⟨.netlink protocol groups, sockRaw⟩ := by
  have reads : network.Reads (.netlink protocol groups) := trivial
  rw [addressText_print reads, socketAddressIsNetlink, parse_netlink]

theorem writtenFits_iff (reads : network.ReadsListen listen) (readable : Readable network listen)
    (other : Listen) : writtenFits network listen other = true ↔ listen.Matches other := by
  cases listen with
  | fifo path =>
    have text : CString.ofBuffer (path.bytes.dropWhile isSpace) = path := by
      rw [dropWhile_plain readable, CString.ofBuffer_self]
    cases other <;> simp [writtenFits, fitsFifo, Listen.Matches, text]
  | special path =>
    have text : CString.ofBuffer (path.bytes.dropWhile isSpace) = path := by
      rw [dropWhile_plain readable, CString.ofBuffer_self]
    cases other <;> simp [writtenFits, fitsSpecial, Listen.Matches, text]
  | mqueue path => exact readable.elim
  | socket address valid raw =>
    obtain ⟨sockaddr, type⟩ := address
    have reads : network.Reads sockaddr := reads
    cases other with
    | fifo | special | mqueue =>
      cases sockaddr <;> simp [writtenFits, fitsSocket, fitsNetlink, Listen.Matches]
    | socket b valid' raw' =>
      cases sockaddr with
      | netlink protocol groups =>
        obtain rfl : type = sockRaw := raw protocol groups rfl
        simp [writtenFits, fitsNetlink, fitsNetlink_written, Listen.Matches]
      | inet | unix | abstract =>
        simp only [writtenFits, fitsSocket, Listen.Matches]
        rw [fitsSocket_written reads (by simp) (by simp)]
      | inet6 address port scope =>
        simp only [writtenFits, fitsSocket, Listen.Matches]
        rw [fitsSocket_written reads (by simp) (fun _ _ _ _ => readable)]

theorem matches_self (written : ∀ path, listen ≠ .mqueue path) : listen.Matches listen := by
  cases listen with
  | fifo | special => rfl
  | socket address valid raw =>
    simp [Listen.Matches, socketAddressEqual, valid, sockaddrEqual_self]
  | mqueue path => exact absurd rfl (written path)

theorem readable_of_writtenFits (reads : network.ReadsListen listen)
    (fits : writtenFits network listen listen = true) : Readable network listen := by
  cases listen with
  | fifo path | special path =>
    have same : path = .ofBuffer (path.bytes.dropWhile isSpace) := by
      simpa [writtenFits, fitsFifo, fitsSpecial] using fits
    have terminated : (0 : UInt8) ∉ path.bytes.dropWhile isSpace := fun mem =>
      path.terminated ((dropWhile_suffix isSpace).mem mem)
    have bytes := congrArg CString.bytes same
    rw [CString.ofBuffer_bytes terminated] at bytes
    exact (dropWhile_same_iff path.bytes).mp bytes.symm
  | mqueue path => cases fits
  | socket address valid raw =>
    obtain ⟨sockaddr, type⟩ := address
    have reads : network.Reads sockaddr := reads
    cases sockaddr with
    | inet | unix | abstract | netlink => trivial
    | inet6 address port scope =>
      show network.ipv6IsSupported = true
      by_contra missing
      simp only [writtenFits, fitsSocket, socketAddressIs, socketAddressParse,
        addressText_print reads, parse_inet6 reads, if_neg missing] at fits
      cases fits

end

end Systemd.Sockets
