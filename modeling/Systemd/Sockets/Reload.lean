import Mathlib.Data.Finset.Basic
import Systemd.Services.Reload
import Systemd.Sockets.Address
import Systemd.Sockets.Machine

set_option autoImplicit false

namespace Systemd.Sockets

open List Option

open Serialization (ItemKey isSpace parsePid printInt printNat scanNumber yesNo)
open Services (parseBoolean)

namespace SocketState

def all : List SocketState :=
  [.dead, .startPre, .startPost, .listening, .running, .stopPre, .stopPreSigterm, .stopPreSigkill,
    .stopPost, .finalSigterm, .finalSigkill, .failed]

def text : SocketState -> String
  | .dead => "dead"
  | .startPre => "start-pre"
  | .startPost => "start-post"
  | .listening => "listening"
  | .running => "running"
  | .stopPre => "stop-pre"
  | .stopPreSigterm => "stop-pre-sigterm"
  | .stopPreSigkill => "stop-pre-sigkill"
  | .stopPost => "stop-post"
  | .finalSigterm => "final-sigterm"
  | .finalSigkill => "final-sigkill"
  | .failed => "failed"

def ofText (text : CString) : Option SocketState :=
  all.find? fun state => .ofString state.text = text

theorem ofText_text (state : SocketState) : ofText (.ofString state.text) = some state := by
  cases state <;> decide

end SocketState

namespace SocketExecCommand

def all : List SocketExecCommand := [.startPre, .startPost, .stopPre, .stopPost]

def text : SocketExecCommand -> String
  | .startPre => "StartPre"
  | .startPost => "StartPost"
  | .stopPre => "StopPre"
  | .stopPost => "StopPost"

def ofText (text : CString) : Option SocketExecCommand :=
  all.find? fun id => .ofString id.text = text

theorem ofText_text (id : SocketExecCommand) : ofText (.ofString id.text) = some id := by
  cases id <;> decide

end SocketExecCommand

def socketKeys : List ItemKey :=
  [.state, .failure, .nAccepted, .controlPid, .controlCommand, .fifo, .special, .socket, .netlink]

def socketKey (key : CString) : Option ItemKey :=
  socketKeys.find? fun name => name.text = key

theorem socketKey_text {key : ItemKey} (mem : key ∈ socketKeys) : socketKey key.text = some key := by
  revert key
  decide

/-- How the kernel numbers the copy of a descriptor, if it makes one: as an int, and not as one that is
in use. -/
structure Duplicates where
  copy : Finset Nat -> Nat -> Option Nat
  unused : ∀ fds fd number, copy fds fd = some number -> number ∉ fds
  small : ∀ fds fd number, copy fds fd = some number -> number < 2 ^ 31

/-- How socket_serialize can end without its work done: with an error, or with a failed assertion. -/
inductive SerializeError where
  | failed
  | aborted
  deriving DecidableEq

-- The descriptor and a blank stand in front of each of these.
def portText (network : Network) : Listen -> Option (ItemKey × List UInt8)
  | .socket address _ _ =>
    match socketAddressPrint network address, address.sockaddr with
    | some text, .netlink _ _ => some (.netlink, text.bytes)
    | some text, _ => some (.socket, (printInt address.type).bytes ++ 32 :: text.bytes)
    | none, _ => none
  | .special path => some (.special, path.bytes)
  | .fifo path => some (.fifo, path.bytes)
  | .mqueue _ => none

def portValue (copy : Nat) (text : List UInt8) : CString :=
  .ofBuffer ((printNat copy).bytes ++ 32 :: text)

-- A port that has no text is neither a socket nor a special file nor a FIFO.
def serializePorts (network : Network) (duplicates : Duplicates) :
    List SocketPort -> Finset Nat -> Except SerializeError (List (ItemKey × CString) × Finset Nat)
  | [], fds => .ok ([], fds)
  | port :: rest, fds =>
    match port.fd with
    | none => serializePorts network duplicates rest fds
    | some fd =>
      match duplicates.copy fds fd, portText network port.listen with
      | none, _ => .error .failed
      | some _, none => .error .aborted
      | some copy, some (key, text) =>
        (serializePorts network duplicates rest (insert copy fds)).map fun (items, fds) =>
          ((key, portValue copy text) :: items, fds)

def stateItems (s : Socket) : List (ItemKey × CString) :=
  [(.state, .ofString s.state.text), (.failure, .ofString (yesNo s.failure)),
    (.nAccepted, printNat s.nAccepted.toNat)] ++
  (if 0 < s.controlPid then [(.controlPid, printNat s.controlPid.toInt.toNat)] else []) ++
  (s.controlCommandId.map fun id => (.controlCommand, .ofString id.text)).toList

def socketSerialize (network : Network) (duplicates : Duplicates) (s : Socket) (fds : Finset Nat) :
    Except SerializeError (List (ItemKey × CString) × Finset Nat) :=
  (serializePorts network duplicates s.ports fds).map fun (items, fds) => (stateItems s ++ items, fds)

structure Restoring where
  socket : Socket
  fds : Finset Nat

-- %i of sscanf, which reads a long.
def scanInt (text : List UInt8) : Option (Int32 × List UInt8) :=
  (scanNumber text).map fun scanned =>
    (Int32.ofInt (if scanned.negative then -(min scanned.magnitude (2 ^ 63) : Nat)
      else (min scanned.magnitude (2 ^ 63 - 1) : Nat)), scanned.rest)

-- The first port that matches gets the descriptor.
def claimFirst (fits : Listen -> Bool) (fd : Nat) : List SocketPort -> Option (List SocketPort)
  | [] => none
  | port :: rest =>
    if fits port.listen then some ({ port with fd := some fd } :: rest)
    else (claimFirst fits fd rest).map (port :: ·)

def claimFd (fits : Listen -> Bool) (fd : Int32) (state : Restoring) : Restoring :=
  if fd < 0 ∨ fd.toInt.toNat ∉ state.fds then state
  else
    match claimFirst fits fd.toInt.toNat state.socket.ports with
    | some ports =>
      { socket := { state.socket with ports := ports }, fds := state.fds.erase fd.toInt.toNat }
    | none => state

def fitsFifo (text : CString) : Listen -> Bool
  | .fifo path => path = text
  | _ => false

def fitsSpecial (text : CString) : Listen -> Bool
  | .special path => path = text
  | _ => false

-- The address of a port that is no socket is not valid.
def fitsSocket (network : Network) (type : Int32) (text : CString) : Listen -> Bool
  | .socket address _ _ => socketAddressIs network address text type
  | _ => false

def fitsNetlink (text : CString) : Listen -> Bool
  | .socket address _ _ => socketAddressIsNetlink address text
  | _ => false

def deserializeNamed (fits : CString -> Listen -> Bool) (value : CString) (state : Restoring) : Restoring :=
  match scanInt value.bytes with
  | some (fd, rest) => claimFd (fits (.ofBuffer (rest.dropWhile isSpace))) fd state
  | none => state

def deserializeSocket (network : Network) (value : CString) (state : Restoring) : Restoring :=
  match scanInt value.bytes with
  | some (fd, rest) =>
    match scanInt rest with
    | some (type, rest) =>
      if type < 0 then state
      else claimFd (fitsSocket network type (.ofBuffer (rest.dropWhile isSpace))) fd state
    | none => state
  | none => state

-- A value that does not parse, or a key that is not known, changes nothing.
def socketDeserializeItem (cfg : Config) (network : Network) (key value : CString)
    (state : Restoring) : Restoring :=
  let s := state.socket
  match socketKey key with
  | some .state => { state with socket := ((SocketState.ofText value).map fun deserialized =>
    { s with deserializedState := deserialized }).getD s }
  | some .failure => { state with socket := ((parseBoolean value).map fun b =>
    { s with failure := b || s.failure }).getD s }
  | some .nAccepted => { state with socket := ((safeAtou value).map fun k =>
    { s with nAccepted := s.nAccepted + UInt32.ofNat k }).getD s }
  | some .controlPid => { state with socket := ((parsePid value).map fun pid =>
    { s with controlPid := pid }).getD s }
  | some .controlCommand => { state with socket := ((SocketExecCommand.ofText value).map fun id =>
    { s with controlCommandId := some id, controlCommand := cfg.execCommand id }).getD s }
  | some .fifo => deserializeNamed fitsFifo value state
  | some .special => deserializeNamed fitsSpecial value state
  | some .socket => deserializeSocket network value state
  | some .netlink => deserializeNamed fitsNetlink value state
  | _ => state

def socketDeserialize (cfg : Config) (network : Network) (items : List (ItemKey × CString))
    (state : Restoring) : Restoring :=
  items.foldl (fun state item => socketDeserializeItem cfg network item.1.text item.2 state) state

def loadedPort (listen : Listen) : SocketPort := { listen := listen }

def loadedSocket (listens : List Listen) : Socket := { ports := listens.map loadedPort }

inductive ColdplugError where
  | badMessage
  | other
  deriving DecidableEq

structure ColdplugAnswers where
  watchPid : Bool
  watchTimer : Bool
  ports : PortAnswers

-- The unit stays as it is at the first error.
def coldplugWatch (ans : PortAnswers) (state : SocketState) (s : Socket) :
    Socket × Option ColdplugError :=
  if state = .listening then
    match socketWatchFds ans s.ports with
    | (ports, true) => ({ s with ports := ports }.setState state, none)
    | (ports, false) => ({ s with ports := ports }, some .other)
  else (s.setState state, none)

def coldplugOpen (ans : PortAnswers) (state : SocketState) (s : Socket) :
    Socket × Option ColdplugError :=
  if state.keepsFds then
    match socketOpenFds ans s.ports with
    | (ports, true) => coldplugWatch ans state { s with ports := ports }
    | (ports, false) => ({ s with ports := ports }, some .other)
  else coldplugWatch ans state s

def socketColdplug (ans : ColdplugAnswers) (s : Socket) : Socket × Option ColdplugError :=
  let state := s.deserializedState
  if state = s.state then (s, none)
  else if state.controlled then
    if s.controlPid ≤ 0 then (s, some .badMessage)
    else if ans.watchPid && ans.watchTimer then coldplugOpen ans.ports state s.arm
    else (s, some .other)
  else coldplugOpen ans.ports state s

section

variable {cfg : Config} {network : Network}

theorem map_eq_ok {E A B : Type} {result : Except E A} {f : A -> B} {b : B}
    (mapped : result.map f = .ok b) : ∃ a, result = .ok a ∧ f a = b := by
  cases result with
  | error failure => cases mapped
  | ok a =>
    cases mapped
    exact ⟨a, rfl, rfl⟩

def portKeys : List ItemKey := [.fifo, .special, .socket, .netlink]

variable {key : ItemKey} {fds fds' : Finset Nat} {items : List (ItemKey × CString)}
  {duplicates : Duplicates}

theorem portKeys_socket (mem : key ∈ portKeys) : key ∈ socketKeys := by
  revert key
  decide

theorem portText_key {listen : Listen} {text : List UInt8}
    (printed : portText network listen = some (key, text)) : key ∈ portKeys := by
  unfold portText at printed
  split at printed
  · split at printed
    · cases printed
      simp [portKeys]
    · cases printed
      simp [portKeys]
    · cases printed
  · cases printed
    simp [portKeys]
  · cases printed
    simp [portKeys]
  · cases printed

theorem serializePorts_keys {ports : List SocketPort}
    (serialized : serializePorts network duplicates ports fds = .ok (items, fds')) :
    ∀ item ∈ items, item.1 ∈ portKeys := by
  induction ports generalizing fds items with
  | nil =>
    cases serialized
    simp
  | cons port rest ih =>
    unfold serializePorts at serialized
    split at serialized
    · exact ih serialized
    · split at serialized
      · cases serialized
      · cases serialized
      · rename_i copy key text _ printed
        obtain ⟨⟨restItems, restFds⟩, restSerialized, same⟩ := map_eq_ok serialized
        cases same
        exact forall_mem_cons.mpr ⟨portText_key printed, ih restSerialized⟩

def PortsOnly (before after : Restoring) : Prop :=
  after.socket = { before.socket with ports := after.socket.ports }

theorem portsOnly_refl (state : Restoring) : PortsOnly state state := rfl

theorem PortsOnly.trans {first second third : Restoring} (one : PortsOnly first second)
    (two : PortsOnly second third) : PortsOnly first third := by
  unfold PortsOnly at one two ⊢
  rw [two, one]

theorem portsOnly_claimFd (fits : Listen -> Bool) (fd : Int32) (state : Restoring) :
    PortsOnly state (claimFd fits fd state) := by
  unfold claimFd
  split
  · exact portsOnly_refl state
  · split
    · exact rfl
    · exact portsOnly_refl state

theorem portsOnly_named (fits : CString -> Listen -> Bool) (value : CString) (state : Restoring) :
    PortsOnly state (deserializeNamed fits value state) := by
  unfold deserializeNamed
  split
  · exact portsOnly_claimFd _ _ state
  · exact portsOnly_refl state

theorem portsOnly_socket (value : CString) (state : Restoring) :
    PortsOnly state (deserializeSocket network value state) := by
  unfold deserializeSocket
  split
  · split
    · split
      · exact portsOnly_refl state
      · exact portsOnly_claimFd _ _ state
    · exact portsOnly_refl state
  · exact portsOnly_refl state

theorem portsOnly_item (mem : key ∈ portKeys) (value : CString) (state : Restoring) :
    PortsOnly state (socketDeserializeItem cfg network key.text value state) := by
  unfold socketDeserializeItem
  rw [socketKey_text (portKeys_socket mem)]
  simp only [portKeys, mem_cons, not_mem_nil, or_false] at mem
  rcases mem with rfl | rfl | rfl | rfl
  · exact portsOnly_named fitsFifo value state
  · exact portsOnly_named fitsSpecial value state
  · exact portsOnly_socket value state
  · exact portsOnly_named fitsNetlink value state

theorem portsOnly_deserialize (mem : ∀ item ∈ items, item.1 ∈ portKeys) (state : Restoring) :
    PortsOnly state (socketDeserialize cfg network items state) := by
  induction items generalizing state with
  | nil => exact portsOnly_refl state
  | cons item rest ih =>
    obtain ⟨first, others⟩ := forall_mem_cons.mp mem
    exact (portsOnly_item first item.2 state).trans (ih others _)

theorem safeAtou_printNat (number : UInt32) :
    safeAtou (Serialization.printNat number.toNat) = some number.toNat := by
  have bound : number.toNat < 2 ^ 32 := number.toNat_lt
  unfold safeAtou
  rw [Serialization.wholeNumber_printNat (by omega)]
  dsimp only
  rw [if_pos ⟨by omega, by simpa using bound⟩]
  simp

theorem item_state (value : SocketState) (state : Restoring) :
    socketDeserializeItem cfg network ItemKey.state.text (.ofString value.text) state =
      { state with socket := { state.socket with deserializedState := value } } := by
  unfold socketDeserializeItem
  rw [socketKey_text (by simp [socketKeys])]
  simp [SocketState.ofText_text]

theorem item_failure (value : Bool) (state : Restoring) :
    socketDeserializeItem cfg network ItemKey.failure.text (.ofString (yesNo value)) state =
      { state with socket := { state.socket with failure := value || state.socket.failure } } := by
  unfold socketDeserializeItem
  rw [socketKey_text (by simp [socketKeys])]
  simp [Services.parseBoolean_yesNo]

theorem item_nAccepted (value : UInt32) (state : Restoring) :
    socketDeserializeItem cfg network ItemKey.nAccepted.text (printNat value.toNat) state =
      { state with socket := { state.socket with nAccepted := state.socket.nAccepted + value } } := by
  unfold socketDeserializeItem
  rw [socketKey_text (by simp [socketKeys])]
  simp [safeAtou_printNat]

theorem item_controlPid {value : Int32} (pos : 0 < value) (state : Restoring) :
    socketDeserializeItem cfg network ItemKey.controlPid.text (printNat value.toInt.toNat) state =
      { state with socket := { state.socket with controlPid := value } } := by
  unfold socketDeserializeItem
  rw [socketKey_text (by simp [socketKeys])]
  simp only [Serialization.parsePid_printNat pos, map_some, getD_some]

theorem item_controlCommand (value : SocketExecCommand) (state : Restoring) :
    socketDeserializeItem cfg network ItemKey.controlCommand.text (.ofString value.text) state =
      { state with socket := { state.socket with
          controlCommandId := some value, controlCommand := cfg.execCommand value } } := by
  unfold socketDeserializeItem
  rw [socketKey_text (by simp [socketKeys])]
  simp [SocketExecCommand.ofText_text]

def restoredSocket (cfg : Config) (s : Socket) (listens : List Listen) : Socket :=
  { loadedSocket listens with
    deserializedState := s.state
    failure := s.failure
    nAccepted := s.nAccepted
    controlPid := if 0 < s.controlPid then s.controlPid else 0
    controlCommandId := s.controlCommandId
    controlCommand := (s.controlCommandId.map cfg.execCommand).getD [] }

theorem deserialize_stateItems (s : Socket) (listens : List Listen) (fds : Finset Nat) :
    socketDeserialize cfg network (stateItems s) ⟨loadedSocket listens, fds⟩ =
      ⟨restoredSocket cfg s listens, fds⟩ := by
  unfold socketDeserialize stateItems
  simp only [foldl_append, foldl_cons, foldl_nil, item_state, item_failure,
    item_nAccepted, loadedSocket, Bool.or_false, UInt32.zero_add]
  by_cases running : 0 < s.controlPid
  · simp only [if_pos running, foldl_cons, foldl_nil, item_controlPid running]
    cases command : s.controlCommandId with
    | none => simp [restoredSocket, loadedSocket, command, running]
    | some id => simp [item_controlCommand, restoredSocket, loadedSocket, command, running]
  · simp only [if_neg running, foldl_nil]
    cases command : s.controlCommandId with
    | none => simp [restoredSocket, loadedSocket, command, running]
    | some id => simp [item_controlCommand, restoredSocket, loadedSocket, command, running]

theorem deserialize_serialized {s : Socket}
    (serialized : socketSerialize network duplicates s fds = .ok (items, fds')) (listens : List Listen)
    (passed : Finset Nat) :
    ∃ ports, (socketDeserialize cfg network items ⟨loadedSocket listens, passed⟩).socket =
      { restoredSocket cfg s listens with ports := ports } := by
  obtain ⟨⟨portItems, portFds⟩, portsSerialized, same⟩ := map_eq_ok serialized
  cases same
  have state : socketDeserialize cfg network (stateItems s) ⟨loadedSocket listens, passed⟩ =
      ⟨restoredSocket cfg s listens, passed⟩ := deserialize_stateItems s listens passed
  have ports : PortsOnly ⟨restoredSocket cfg s listens, passed⟩
      (socketDeserialize cfg network portItems ⟨restoredSocket cfg s listens, passed⟩) :=
    portsOnly_deserialize (serializePorts_keys portsSerialized) _
  rw [socketDeserialize, foldl_append]
  rw [socketDeserialize] at state
  rw [state]
  exact ⟨_, ports⟩

end

end Systemd.Sockets
