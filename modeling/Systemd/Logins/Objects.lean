import Systemd.Basic.EnvFile
import Systemd.Basic.Words
import Systemd.Units.Numbers

set_option autoImplicit false

namespace Systemd.Logins

open Function

open Serialization (decimal printInt)

def ascii (text : String) : List UInt8 := text.toList.map Char.toUInt8

def slash : UInt8 := '/'.toUInt8

def space : UInt8 := ' '.toUInt8

-- seat_name_valid_char()
def nameByte (byte : UInt8) : Bool :=
  ('a'.toUInt8 ≤ byte && byte ≤ 'z'.toUInt8) || ('A'.toUInt8 ≤ byte && byte ≤ 'Z'.toUInt8) ||
    ('0'.toUInt8 ≤ byte && byte ≤ '9'.toUInt8) || byte = '-'.toUInt8 || byte = '_'.toUInt8

structure Identifier where
  bytes : List UInt8
  nonempty : bytes ≠ []
  valid : ∀ byte ∈ bytes, nameByte byte = true
  deriving DecidableEq

structure LineText where
  bytes : List UInt8
  terminated : 0 ∉ bytes
  single : ∀ byte ∈ bytes, isNewline byte = false

theorem LineText.same_iff : (a b : LineText) -> a.bytes = b.bytes ↔ a = b
  | ⟨_, _, _⟩, ⟨_, _, _⟩ => by simp

instance : DecidableEq LineText := fun a b => decidable_of_iff _ (LineText.same_iff a b)

structure LoginPath extends LineText where
  absolute : bytes.head? = some slash
  deriving DecidableEq

inductive SessionType where
  | unspecified
  | tty
  | x11
  deriving DecidableEq

def SessionType.toBytes : SessionType -> List UInt8
  | .unspecified => ascii "unspecified"
  | .tty => ascii "tty"
  | .x11 => ascii "x11"

structure Session where
  user : UInt32
  type : SessionType
  tty : Option CString
  display : Option CString
  remote : Bool
  remoteUser : Option CString
  remoteHost : Option CString
  service : Option CString
  vtnr : Int32
  seat : Option Identifier
  leader : Int32
  auditId : UInt32
  fifoPath : Option CString
  cgroupPath : Option CString
  killProcesses : Bool
  started : Bool

structure User where
  name : LineText
  runtimePath : Option LoginPath
  service : Option LineText
  cgroupPath : Option LoginPath
  display : Option Identifier
  started : Bool
  sessions : List Identifier

structure Seat where
  devices : List CString
  active : Option Identifier
  sessions : List Identifier
  started : Bool

structure AclEntry where
  uid : UInt32
  read : Bool
  write : Bool
  deriving DecidableEq

/-- Objects are known by their names: session, user and seat are what these point to, and
sessions, users and seats say which of them there are. -/
structure Objects where
  session : Identifier -> Session
  user : UInt32 -> User
  seat : Identifier -> Seat
  sessions : List Identifier
  users : List UInt32
  seats : List Identifier
  sessionGcQueue : List Identifier
  userGcQueue : List UInt32
  seatGcQueue : List Identifier

/-- The manager with the files below /run/systemd and the user entries of the ACLs of each seat's
device nodes. -/
structure Manager extends Objects where
  sessionFile : Identifier -> Option (List UInt8)
  userFile : UInt32 -> Option (List UInt8)
  seatFile : Identifier -> Option (List UInt8)
  acls : Identifier -> List (List AclEntry)

def Identifier.seat0 : Identifier := ⟨ascii "seat0", by decide, by decide⟩

def Identifier.c1 : Identifier := ⟨ascii "c1", by decide, by decide⟩

-- What new0() leaves of a session, a user and a seat.
def Session.zero (user : UInt32) : Session where
  user := user
  type := .unspecified
  tty := none
  display := none
  remote := false
  remoteUser := none
  remoteHost := none
  service := none
  vtnr := 0
  seat := none
  leader := 0
  auditId := 0
  fifoPath := none
  cgroupPath := none
  killProcesses := false
  started := false

def User.zero (name : LineText) : User where
  name := name
  runtimePath := none
  service := none
  cgroupPath := none
  display := none
  started := false
  sessions := []

def Seat.zero : Seat where
  devices := []
  active := none
  sessions := []
  started := false

def LineText.root : LineText := ⟨ascii "root", by decide, by decide⟩

def Manager.zero : Manager where
  session := fun _ => .zero 0
  user := fun _ => .zero .root
  seat := fun _ => .zero
  sessions := []
  users := []
  seats := []
  sessionGcQueue := []
  userGcQueue := []
  seatGcQueue := []
  sessionFile := fun _ => none
  userFile := fun _ => none
  seatFile := fun _ => none
  acls := fun _ => []

-- The VT console is the seat that the manager adds before all others.
def seatIsVtconsole (seat : Identifier) : Bool :=
  seat = .seat0

def sessionIsActive (m : Manager) (id : Identifier) : Bool :=
  match (m.session id).seat with
  | none => true
  | some seat => (m.seat seat).active = some id

inductive UserState where
  | offline
  | lingering
  | online
  | active
  deriving DecidableEq

def UserState.toBytes : UserState -> List UInt8
  | .offline => ascii "offline"
  | .lingering => ascii "lingering"
  | .online => ascii "online"
  | .active => ascii "active"

def userGetState (m : Manager) (uid : UInt32) : UserState :=
  if (m.user uid).sessions = [] then .lingering
  else if (m.user uid).sessions.any (sessionIsActive m) then .active
  else .online

def header : List UInt8 := ascii "# This is private data. Do not parse.\n"

def assignment (key : String) (value : List UInt8) : List UInt8 :=
  ascii key ++ equalsSign :: value ++ [newline]

def optionalAssignment (key : String) (value : Option (List UInt8)) : List UInt8 :=
  value.elim [] (assignment key)

-- What is printed of an entry depends on the entry, but its separator on whether another follows.
def printList (print : Identifier -> Option (List UInt8)) : List Identifier -> List UInt8
  | [] => []
  | [id] => (print id).elim [] (· ++ [newline])
  | id :: next :: rest => (print id).elim [] (· ++ [space]) ++ printList print (next :: rest)

def listAssignment (key : String) (print : Identifier -> Option (List UInt8))
    (sessions : List Identifier) : List UInt8 :=
  ascii key ++ equalsSign :: printList print sessions

def printFlag (flag : Bool) : List UInt8 := if flag then ascii "1" else ascii "0"

def sessionText (m : Manager) (id : Identifier) : List UInt8 :=
  let s := m.session id
  header ++ assignment "UID" (decimal 20 s.user.toNat) ++
    assignment "USER" (m.user s.user).name.bytes ++
    assignment "ACTIVE" (printFlag (sessionIsActive m id)) ++
    assignment "REMOTE" (printFlag s.remote) ++
    assignment "KILL_PROCESSES" (printFlag s.killProcesses) ++
    assignment "TYPE" s.type.toBytes ++
    optionalAssignment "CGROUP" (s.cgroupPath.map (·.bytes)) ++
    optionalAssignment "FIFO" (s.fifoPath.map (·.bytes)) ++
    optionalAssignment "SEAT" (s.seat.map (·.bytes)) ++
    optionalAssignment "TTY" (s.tty.map (·.bytes)) ++
    optionalAssignment "DISPLAY" (s.display.map (·.bytes)) ++
    optionalAssignment "REMOTE_HOST" (s.remoteHost.map (·.bytes)) ++
    optionalAssignment "REMOTE_USER" (s.remoteUser.map (·.bytes)) ++
    optionalAssignment "SERVICE" (s.service.map (·.bytes)) ++
    optionalAssignment "VTNR"
      (if s.seat.any seatIsVtconsole then some (printInt s.vtnr).bytes else none) ++
    optionalAssignment "LEADER" (if 0 < s.leader then some (decimal 20 s.leader.toInt.toNat) else none) ++
    optionalAssignment "AUDIT" (if 0 < s.auditId then some (decimal 20 s.auditId.toNat) else none)

def userText (m : Manager) (uid : UInt32) : List UInt8 :=
  let u := m.user uid
  header ++ assignment "NAME" u.name.bytes ++ assignment "STATE" (userGetState m uid).toBytes ++
    optionalAssignment "CGROUP" (u.cgroupPath.map (·.bytes)) ++
    optionalAssignment "RUNTIME" (u.runtimePath.map (·.bytes)) ++
    optionalAssignment "SERVICE" (u.service.map (·.bytes)) ++
    optionalAssignment "DISPLAY" (u.display.map (·.bytes)) ++
    if u.sessions = [] then
      []
    else
      listAssignment "SESSIONS" (fun id => some id.bytes) u.sessions ++
        listAssignment "SEATS" (fun id => (m.session id).seat.map (·.bytes)) u.sessions ++
        listAssignment "ACTIVE_SESSIONS" (fun id =>
          if sessionIsActive m id then some (decimal 20 (m.session id).user.toNat) else none) u.sessions ++
        listAssignment "ACTIVE_SEATS" (fun id =>
          if sessionIsActive m id then (m.session id).seat.map (·.bytes) else none) u.sessions

def seatText (m : Manager) (id : Identifier) : List UInt8 :=
  let s := m.seat id
  header ++ assignment "IS_VTCONSOLE" (printFlag (seatIsVtconsole id)) ++
    optionalAssignment "ACTIVE" (s.active.map (·.bytes)) ++
    optionalAssignment "ACTIVE_UID" (s.active.map fun active => decimal 20 (m.session active).user.toNat) ++
    if s.sessions = [] then
      []
    else
      listAssignment "SESSIONS" (fun id => some id.bytes) s.sessions ++
        listAssignment "UIDS" (fun id => some (decimal 20 (m.session id).user.toNat)) s.sessions

def sessionSave (m : Manager) (id : Identifier) : Manager :=
  if (m.session id).started then
    { m with sessionFile := update m.sessionFile id (some (sessionText m id)) }
  else
    m

def userSave (m : Manager) (uid : UInt32) : Manager :=
  if (m.user uid).started then
    { m with userFile := update m.userFile uid (some (userText m uid)) }
  else
    m

def seatSave (m : Manager) (id : Identifier) : Manager :=
  if (m.seat id).started then
    { m with seatFile := update m.seatFile id (some (seatText m id)) }
  else
    m

section

variable (m : Manager)

@[simp] theorem sessionSave_frame (id : Identifier) :
    (sessionSave m id).toObjects = m.toObjects ∧ (sessionSave m id).acls = m.acls ∧
      (sessionSave m id).userFile = m.userFile ∧ (sessionSave m id).seatFile = m.seatFile := by
  rw [sessionSave]
  split_ifs
  · simp
  · simp

@[simp] theorem userSave_frame (uid : UInt32) :
    (userSave m uid).toObjects = m.toObjects ∧ (userSave m uid).acls = m.acls ∧
      (userSave m uid).sessionFile = m.sessionFile ∧ (userSave m uid).seatFile = m.seatFile := by
  rw [userSave]
  split_ifs
  · simp
  · simp

@[simp] theorem seatSave_frame (id : Identifier) :
    (seatSave m id).toObjects = m.toObjects ∧ (seatSave m id).acls = m.acls ∧
      (seatSave m id).sessionFile = m.sessionFile ∧ (seatSave m id).userFile = m.userFile := by
  rw [seatSave]
  split_ifs
  · simp
  · simp

end

end Systemd.Logins
