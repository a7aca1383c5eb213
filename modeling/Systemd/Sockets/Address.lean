import Systemd.Sockets.Ports
import Systemd.Units.Numbers

set_option autoImplicit false

namespace Systemd.Sockets

open Serialization (decimal digitValue isDigitOf isSpace printInt printNat safeAtoi scanDigits scanNumber
  wholeNumber)

structure Network where
  inetNtop : BitVec 32 -> CString
  inetPton : CString -> Option (BitVec 32)
  inet6Ntop : BitVec 128 -> CString
  inet6Pton : CString -> Option (BitVec 128)
  ifNametoindex : CString -> UInt32
  ipv6IsSupported : Bool

def colon : UInt8 := 58

def openBracket : UInt8 := 91

def closeBracket : UInt8 := 93

def slash : UInt8 := 47

def atSign : UInt8 := 64

-- strtoul negates modulo 2^64.
def safeAtou (text : CString) : Option Nat :=
  match wholeNumber text with
  | some (negative, magnitude) =>
    let value := if negative then (2 ^ 64 - magnitude) % 2 ^ 64 else magnitude
    if magnitude < 2 ^ 64 ∧ value < 2 ^ 32 then some value else none
  | none => none

theorem portNumber_nonzero {number : Nat} (small : 0 < number ∧ number ≤ 0xFFFF) : UInt16.ofNat number ≠ 0 := by
  intro zero
  have value := congrArg UInt16.toNat zero
  rw [UInt16.toNat_ofNat_of_lt' (by change number < 65536; omega)] at value
  exact absurd value (by change number ≠ 0; omega)

def parsePortNumber (text : CString) : Option PortNumber :=
  match safeAtou text with
  | some number =>
    if small : 0 < number ∧ number ≤ 0xFFFF then
      some ⟨UInt16.ofNat number, portNumber_nonzero small⟩
    else none
  | none => none

-- The text in front of the first such byte, and the text behind it.
def splitAtByte (byte : UInt8) (bytes : List UInt8) : Option (List UInt8 × List UInt8) :=
  if byte ∈ bytes then some (bytes.takeWhile (· ≠ byte), (bytes.dropWhile (· ≠ byte)).tail) else none

def parseInet6 (network : Network) (rest : List UInt8) : Option Sockaddr :=
  if network.ipv6IsSupported then
    match splitAtByte closeBracket rest with
    | some (name, behind) =>
      match network.inet6Pton (.ofBuffer name), behind with
      | some address, separator :: digits =>
        if separator = colon then
          (parsePortNumber (.ofBuffer digits)).map fun port => .inet6 address port 0
        else none
      | _, _ => none
    | none => none
  else none

def parseUnix (text : CString) (absolute : text.bytes.head? = some 47) : Option Sockaddr :=
  if short : text.bytes.length < 108 then some (.unix ⟨text, absolute, short⟩) else none

def parseAbstract (name : CString) : Option Sockaddr :=
  if short : name.bytes.length < 107 then some (.abstract ⟨name, short⟩) else none

-- An IPv4 address, or else the name of an interface.
def parseHost (network : Network) (name digits : List UInt8) : Option Sockaddr :=
  match parsePortNumber (.ofBuffer digits) with
  | none => none
  | some port =>
    match network.inetPton (.ofBuffer name) with
    | some address => some (.inet address port)
    | none =>
      if 15 < name.length then none
      else if network.ifNametoindex (.ofBuffer name) = 0 then none
      else if network.ipv6IsSupported then
        some (.inet6 0 port (network.ifNametoindex (.ofBuffer name)))
      else none

def parsePortOnly (network : Network) (text : CString) : Option Sockaddr :=
  (parsePortNumber text).map fun port =>
    if network.ipv6IsSupported then .inet6 0 port 0 else .inet 0 port

def parseSockaddr (network : Network) (text : CString) : Option Sockaddr :=
  if text.bytes.head? = some openBracket then parseInet6 network text.bytes.tail
  else if absolute : text.bytes.head? = some 47 then parseUnix text absolute
  else if text.bytes.head? = some atSign then parseAbstract (.ofBuffer text.bytes.tail)
  else
    match splitAtByte colon text.bytes with
    | some (name, digits) => parseHost network name digits
    | none => parsePortOnly network text

def socketAddressParse (network : Network) (text : CString) : Option SocketAddress :=
  (parseSockaddr network text).map fun sockaddr => ⟨sockaddr, sockStream⟩

def netlinkFamilyTable : List (Nat × String) :=
  [(0, "route"), (3, "firewall"), (4, "inet-diag"), (5, "nflog"), (6, "xfrm"), (7, "selinux"),
    (8, "iscsi"), (9, "audit"), (10, "fib-lookup"), (11, "connector"), (12, "netfilter"),
    (13, "ip6-fw"), (14, "dnrtmsg"), (15, "kobject-uevent"), (16, "generic"), (18, "scsitransport"),
    (19, "ecryptfs")]

def netlinkFamilyToString (family : Int32) : Option CString :=
  (netlinkFamilyTable.find? fun entry => family = Int32.ofNat entry.1).map fun entry =>
    .ofString entry.2

def netlinkFamilyFromString (text : CString) : Option Int32 :=
  (netlinkFamilyTable.find? fun entry => text = .ofString entry.2).map fun entry => Int32.ofNat entry.1

-- %u of sscanf, which stores nothing if there is no number.
def scanUnsigned (text : List UInt8) : UInt32 :=
  let text := text.dropWhile isSpace
  let unsigned := if text.head? = some 45 ∨ text.head? = some 43 then text.tail else text
  if unsigned.head?.any (isDigitOf 10) then
    let magnitude := min (scanDigits 10 0 unsigned).1 (2 ^ 64 - 1)
    if text.head? = some 45 then UInt32.ofNat (2 ^ 64 - magnitude) else UInt32.ofNat magnitude
  else 0

def socketAddressParseNetlink (text : CString) : Option SocketAddress :=
  let word := text.bytes.dropWhile isSpace
  let family := CString.ofBuffer (word.takeWhile (!isSpace ·))
  if word = [] then none
  else
    match (netlinkFamilyFromString family).orElse fun _ => safeAtoi family with
    | some protocol =>
      some ⟨.netlink protocol (scanUnsigned (word.dropWhile (!isSpace ·))), sockRaw⟩
    | none => none

def sockaddrPrint (network : Network) : Sockaddr -> List UInt8
  | .inet address port =>
    (network.inetNtop address).bytes ++ colon :: (printNat port.number.toNat).bytes
  | .inet6 address port _ =>
    openBracket :: (network.inet6Ntop address).bytes ++
      closeBracket :: colon :: (printNat port.number.toNat).bytes
  | .unix path => path.text.bytes
  | .abstract name => atSign :: name.text.bytes
  | .netlink protocol groups =>
    ((netlinkFamilyToString protocol).getD (printInt protocol)).bytes ++
      32 :: (printNat groups.toNat).bytes

def socketAddressPrint (network : Network) (a : SocketAddress) : Option CString :=
  if socketAddressVerify a then some (.ofBuffer (sockaddrPrint network a.sockaddr)) else none

-- The scope of an IPv6 address is not compared.
def sockaddrEqual : Sockaddr -> Sockaddr -> Bool
  | .inet a port, .inet b port' => a = b && port = port'
  | .inet6 a port _, .inet6 b port' _ => a = b && port = port'
  | .unix path, .unix path' => path = path'
  | .abstract name, .abstract name' => name = name'
  | .netlink protocol groups, .netlink protocol' groups' => protocol = protocol' && groups = groups'
  | _, _ => false

def socketAddressEqual (a b : SocketAddress) : Bool :=
  socketAddressVerify a && socketAddressVerify b && a.type = b.type && sockaddrEqual a.sockaddr b.sockaddr

def socketAddressIs (network : Network) (a : SocketAddress) (text : CString) (type : Int32) : Bool :=
  match socketAddressParse network text with
  | some b => socketAddressEqual a { b with type := type }
  | none => false

def socketAddressIsNetlink (a : SocketAddress) (text : CString) : Bool :=
  match socketAddressParseNetlink text with
  | some b => socketAddressEqual a b
  | none => false

end Systemd.Sockets
