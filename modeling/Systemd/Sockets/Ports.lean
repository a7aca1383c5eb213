import Systemd.Basic.CString

set_option autoImplicit false

namespace Systemd.Sockets

open List

structure PortNumber where
  number : UInt16
  given : number ≠ 0
  deriving DecidableEq

structure UnixPath where
  text : CString
  absolute : text.bytes.head? = some 47
  short : text.bytes.length < 108
  deriving DecidableEq

structure AbstractName where
  text : CString
  short : text.bytes.length < 107
  deriving DecidableEq

inductive Sockaddr where
  | inet (address : BitVec 32) (port : PortNumber)
  | inet6 (address : BitVec 128) (port : PortNumber) (scopeId : UInt32)
  | unix (path : UnixPath)
  | abstract (name : AbstractName)
  | netlink (protocol : Int32) (groups : UInt32)
  deriving DecidableEq

structure SocketAddress where
  sockaddr : Sockaddr
  type : Int32
  deriving DecidableEq

def sockStream : Int32 := 1

def sockDgram : Int32 := 2

def sockRaw : Int32 := 3

def sockSeqpacket : Int32 := 5

-- The sizes and the port numbers are right by the type of the address.
def socketAddressVerify (a : SocketAddress) : Bool :=
  match a.sockaddr with
  | .inet _ _ | .inet6 _ _ _ => a.type = sockStream || a.type = sockDgram
  | .unix _ | .abstract _ => a.type = sockStream || a.type = sockDgram || a.type = sockSeqpacket
  | .netlink _ _ => a.type = sockRaw || a.type = sockDgram

def socketAddressCanAccept (a : SocketAddress) : Bool :=
  a.type = sockStream || a.type = sockSeqpacket

/-- What a Listen setting names. An address there is valid, and a netlink address is raw. -/
inductive Listen where
  | socket (address : SocketAddress) (valid : socketAddressVerify address = true)
      (raw : ∀ protocol groups, address.sockaddr = .netlink protocol groups -> address.type = sockRaw)
  | fifo (path : CString)
  | special (path : CString)
  | mqueue (path : CString)

namespace Listen

def isSocket : Listen -> Bool
  | .socket _ _ _ => true
  | .fifo _ | .special _ | .mqueue _ => false

def canAccept : Listen -> Bool
  | .socket address _ _ => socketAddressCanAccept address
  | .fifo _ | .special _ | .mqueue _ => false

end Listen

structure SocketPort where
  listen : Listen
  fd : Option Nat := none
  watched : Bool := false

namespace SocketPort

def unwatch (port : SocketPort) : SocketPort :=
  if port.fd.isSome then { port with watched := false } else port

def close (port : SocketPort) : SocketPort :=
  if port.fd.isSome then { port with fd := none, watched := false } else port

def Ready (port : SocketPort) : Prop := port.fd.isSome = true ∧ port.watched = true

end SocketPort

/-- How the rest of the system answers when ports are opened and watched: whether the service is there,
which descriptor a port gets, and whether epoll takes it. A port is known by how many follow it. -/
structure PortAnswers where
  instantiate : Bool
  listen : Nat -> Option Nat
  watchFd : Nat -> Bool

section

variable (ans : PortAnswers)

/-- The ways to fail of socket_open_fds: without closing what was opened, and with. -/
inductive OpenFailure where
  | early
  | rollback

def openPorts : List SocketPort -> List SocketPort × Option OpenFailure
  | [] => ([], none)
  | port :: rest =>
    if port.fd.isSome then (port :: (openPorts rest).1, (openPorts rest).2)
    else if port.listen.isSocket && !ans.instantiate then (port :: rest, some .early)
    else
      match ans.listen rest.length with
      | none => (port :: rest, some .rollback)
      | some fd => ({ port with fd := some fd } :: (openPorts rest).1, (openPorts rest).2)

-- Whether socket_open_fds succeeds comes second.
def socketOpenFds (ports : List SocketPort) : List SocketPort × Bool :=
  match openPorts ans ports with
  | (ports, none) => (ports, true)
  | (ports, some .early) => (ports, false)
  | (ports, some .rollback) => (ports.map .close, false)

def watchPorts : List SocketPort -> Option (List SocketPort)
  | [] => some []
  | port :: rest =>
    if port.fd.isNone then (watchPorts rest).map (port :: ·)
    else if ans.watchFd rest.length then
      (watchPorts rest).map ({ port with watched := true } :: ·)
    else none

def socketWatchFds (ports : List SocketPort) : List SocketPort × Bool :=
  match watchPorts ans ports with
  | some ports => (ports, true)
  | none => (ports.map .unwatch, false)

end

section

variable {ans : PortAnswers}

def AllOpen (ports : List SocketPort) : Prop := ∀ port ∈ ports, port.fd.isSome = true

variable {ports : List SocketPort}

theorem openPorts_open (opened : (openPorts ans ports).2 = none) : AllOpen (openPorts ans ports).1 := by
  induction ports with
  | nil => simp [openPorts, AllOpen]
  | cons port rest ih =>
    unfold openPorts at opened ⊢
    split
    · rename_i isOpen
      simp only [isOpen, if_true] at opened
      exact forall_mem_cons.mpr ⟨isOpen, ih opened⟩
    · rename_i closed
      simp only [closed] at opened
      split
      · rename_i missing
        simp [missing] at opened
      · rename_i there
        simp only [there] at opened
        split
        · rename_i refused
          simp [refused] at opened
        · rename_i fd answered
          simp only [answered] at opened
          exact forall_mem_cons.mpr ⟨rfl, ih opened⟩

theorem socketOpenFds_open {opened : List SocketPort}
    (succeeded : socketOpenFds ans ports = (opened, true)) : AllOpen opened := by
  unfold socketOpenFds at succeeded
  split at succeeded
  · rename_i ports' result
    cases succeeded
    have opened : AllOpen (openPorts ans ports).1 := openPorts_open (by rw [result])
    rwa [result] at opened
  · cases succeeded
  · cases succeeded

section

variable (allOpen : AllOpen ports)
include allOpen

theorem watchPorts_ready {watched : List SocketPort}
    (succeeded : watchPorts ans ports = some watched) : ∀ port ∈ watched, port.Ready := by
  induction ports generalizing watched with
  | nil =>
    cases succeeded
    simp
  | cons port rest ih =>
    obtain ⟨isOpen, restOpen⟩ := forall_mem_cons.mp allOpen
    have notClosed : port.fd.isNone = false := by
      cases fd : port.fd <;> simp [fd] at isOpen ⊢
    unfold watchPorts at succeeded
    simp only [notClosed, if_false, Bool.false_eq_true] at succeeded
    split at succeeded
    · obtain ⟨watchedRest, restSucceeded, rfl⟩ := Option.map_eq_some_iff.mp succeeded
      exact forall_mem_cons.mpr ⟨⟨isOpen, rfl⟩, ih restOpen restSucceeded⟩
    · cases succeeded

theorem socketWatchFds_ready {watched : List SocketPort}
    (succeeded : socketWatchFds ans ports = (watched, true)) : ∀ port ∈ watched, port.Ready := by
  unfold socketWatchFds at succeeded
  split at succeeded
  · rename_i ports' result
    cases succeeded
    exact watchPorts_ready allOpen result
  · cases succeeded

theorem allOpen_unwatch : AllOpen (ports.map .unwatch) := by
  intro port mem
  obtain ⟨source, sourceMember, rfl⟩ := mem_map.mp mem
  have isOpen := allOpen source sourceMember
  simp [SocketPort.unwatch, isOpen]

end

end

end Systemd.Sockets
