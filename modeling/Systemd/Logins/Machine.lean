import Systemd.Logins.Objects

set_option autoImplicit false

namespace Systemd.Logins

open Option Function

def Manager.setSession (m : Manager) (id : Identifier) (s : Session) : Manager :=
  { m with session := update m.session id s }

def Manager.setUser (m : Manager) (uid : UInt32) (u : User) : Manager :=
  { m with user := update m.user uid u }

def Manager.setSeat (m : Manager) (id : Identifier) (s : Seat) : Manager :=
  { m with seat := update m.seat id s }

section

variable (m : Manager) (id : Identifier)

variable (s : Session) (uid : UInt32) (u : User)

@[simp] theorem Manager.setSession_toObjects : (m.setSession id s).toObjects =
    { m.toObjects with session := update m.session id s } := rfl

@[simp] theorem Manager.setUser_toObjects : (m.setUser uid u).toObjects =
    { m.toObjects with user := update m.user uid u } := rfl

@[simp] theorem Manager.setSeat_toObjects (s : Seat) : (m.setSeat id s).toObjects =
    { m.toObjects with seat := update m.seat id s } := rfl

@[simp] theorem Manager.setUser_setUser (v : User) :
    (m.setUser uid u).setUser uid v = m.setUser uid v := by
  simp [Manager.setUser]

@[simp] theorem Manager.setSession_setSession (t : Session) :
    (m.setSession id s).setSession id t = m.setSession id t := by
  simp [Manager.setSession]

@[simp] theorem Manager.setSession_acls : (m.setSession id s).acls = m.acls := rfl

@[simp] theorem Manager.setUser_acls : (m.setUser uid u).acls = m.acls := rfl

@[simp] theorem Manager.setSeat_acls (s : Seat) : (m.setSeat id s).acls = m.acls := rfl

end

def sessionAddToGcQueue (m : Manager) (id : Identifier) : Manager :=
  if id ∈ m.sessionGcQueue then m else { m with sessionGcQueue := id :: m.sessionGcQueue }

def userAddToGcQueue (m : Manager) (uid : UInt32) : Manager :=
  if uid ∈ m.userGcQueue then m else { m with userGcQueue := uid :: m.userGcQueue }

def seatAddToGcQueue (m : Manager) (id : Identifier) : Manager :=
  if id ∈ m.seatGcQueue then m else { m with seatGcQueue := id :: m.seatGcQueue }

-- An entry that is there already gets the permissions that it lacks.
def grant (uid : UInt32) : List AclEntry -> List AclEntry
  | [] => [⟨uid, true, true⟩]
  | entry :: rest =>
    if entry.uid = uid then { entry with read := true, write := true } :: rest
    else entry :: grant uid rest

def devnodeAcl (acl : List AclEntry) (del add : Option UInt32) : List AclEntry :=
  let acl := match del with
    | some oldUid => if 0 < oldUid then acl.eraseP fun entry => entry.uid = oldUid else acl
    | none => acl
  match add with
  | some newUid => if 0 < newUid then grant newUid acl else acl
  | none => acl

def seatApplyAcls (m : Manager) (seat : Identifier) (oldActive : Option Identifier) : Manager :=
  let del := oldActive.map fun session => (m.session session).user
  let add := (m.seat seat).active.map fun session => (m.session session).user
  { m with acls := update m.acls seat ((m.acls seat).map fun acl => devnodeAcl acl del add) }

def saveSessionAndUser (m : Manager) : Option Identifier -> Manager
  | none => m
  | some session => userSave (sessionSave m session) (m.session session).user

def seatSetActive (m : Manager) (seat : Identifier) (session : Option Identifier) : Manager :=
  if session = (m.seat seat).active then
    m
  else
    let oldActive := (m.seat seat).active
    let m := m.setSeat seat { m.seat seat with active := session }
    let m := seatApplyAcls m seat oldActive
    let m := seatSave m seat
    let m := saveSessionAndUser m session
    saveSessionAndUser m oldActive

section

variable (m : Manager)

@[simp] theorem seatApplyAcls_toObjects (seat : Identifier) (oldActive : Option Identifier) :
    (seatApplyAcls m seat oldActive).toObjects = m.toObjects := rfl

@[simp] theorem saveSessionAndUser_frame (session : Option Identifier) :
    (saveSessionAndUser m session).toObjects = m.toObjects ∧ (saveSessionAndUser m session).acls = m.acls := by
  cases session with
  | none => exact ⟨rfl, rfl⟩
  | some id => simp [saveSessionAndUser]

@[simp] theorem seatSetActive_toObjects (seat : Identifier) (session : Option Identifier) :
    (seatSetActive m seat session).toObjects =
      { m.toObjects with seat := update m.seat seat { m.seat seat with active := session } } := by
  rw [seatSetActive]
  split_ifs with same
  · simp [same]
  · simp

end

def seatActiveVtChanged (m : Manager) (seat : Identifier) (vtnr : Int32) : Manager :=
  if seatIsVtconsole seat then
    seatSetActive m seat ((m.seat seat).sessions.find? fun id => (m.session id).vtnr = vtnr)
  else
    m

-- activeVt is what can be made out of /sys/class/tty/tty0/active.
def seatReadActiveVt (m : Manager) (seat : Identifier) (activeVt : Option Int32) : Manager :=
  match activeVt with
  | some vtnr => seatActiveVtChanged m seat vtnr
  | none => m

def linkToSeat (m : Manager) (seat : Identifier) (id : Identifier) : Manager :=
  let m := m.setSession id { m.session id with seat := some seat }
  m.setSeat seat { m.seat seat with sessions := id :: (m.seat seat).sessions }

def seatAttachSession (m : Manager) (seat : Identifier) (id : Identifier) : Option (Manager × Bool) :=
  if (m.session id).seat ≠ none then
    none
  else if seatIsVtconsole seat = false ∧ (m.seat seat).sessions ≠ [] then
    some (m, false)
  else if seatIsVtconsole seat then
    some (linkToSeat m seat id, true)
  else if (m.seat seat).active ≠ none then
    none
  else
    some (seatSetActive (linkToSeat m seat id) seat (some id), true)

section

variable {m : Manager} {seat id : Identifier}

@[simp] theorem linkToSeat_session : (linkToSeat m seat id).session =
    update m.session id { m.session id with seat := some seat } := rfl

def Vacant (m : Manager) (seat : Identifier) : Prop :=
  seatIsVtconsole seat = true ∨ (m.seat seat).sessions = [] ∧ (m.seat seat).active = none

theorem seatAttachSession_vacant (unseated : (m.session id).seat = none) (vacant : Vacant m seat) :
    ∃ m', seatAttachSession m seat id = some (m', true) ∧
      m'.session = update m.session id { m.session id with seat := some seat } := by
  rw [seatAttachSession, if_neg (by simpa using unseated)]
  rcases vacant with console | ⟨empty, inactive⟩
  · exact ⟨_, by rw [if_neg (by simp [console]), if_pos console], rfl⟩
  · cases console : seatIsVtconsole seat with
    | true => exact ⟨_, by rw [if_neg (by simp), if_pos rfl], rfl⟩
    | false => exact ⟨_, by rw [if_neg (by simp [empty]), if_neg (by simp), if_neg (by simpa using inactive)], by simp⟩

theorem seatAttachSession_session {m' : Manager} {attached : Bool}
    (result : seatAttachSession m seat id = some (m', attached)) :
    (attached = true ∧ Vacant m seat ∧
        m'.session = update m.session id { m.session id with seat := some seat }) ∨
      attached = false ∧ m' = m := by
  rw [seatAttachSession] at result
  split_ifs at result with seated taken console active
  · simp only [some.injEq, Prod.mk.injEq] at result
    exact .inr ⟨result.2.symm, result.1.symm⟩
  · simp only [some.injEq, Prod.mk.injEq] at result
    obtain ⟨rfl, rfl⟩ := result
    exact .inl ⟨rfl, .inl console, rfl⟩
  · simp only [some.injEq, Prod.mk.injEq] at result
    obtain ⟨rfl, rfl⟩ := result
    have other : seatIsVtconsole seat = false := by simpa using console
    have empty : (m.seat seat).sessions = [] := by simpa [other] using taken
    exact .inl ⟨rfl, .inr ⟨empty, by simpa using active⟩, by simp⟩

end

-- chvt tells whether the terminal could be switched.
def sessionActivate (m : Manager) (id : Identifier) (chvt : Bool) : Option Manager :=
  if (m.session id).vtnr < 0 then
    some m
  else
    match (m.session id).seat with
    | none => some m
    | some seat =>
      if (m.seat seat).active = some id then
        some m
      else if seatIsVtconsole seat = false then
        none
      else if chvt = false then
        some m
      else
        let oldActive := (m.seat seat).active
        some (seatApplyAcls (m.setSeat seat { m.seat seat with active := some id }) seat oldActive)

def sessionNew (m : Manager) (uid : UInt32) (id : Identifier) : Manager :=
  let m := { m with sessions := id :: m.sessions }
  let m := m.setSession id (.zero uid)
  m.setUser uid { m.user uid with sessions := id :: (m.user uid).sessions }

def managerAddUser (m : Manager) (uid : UInt32) (name : LineText) : Manager :=
  if uid ∈ m.users then m else { m.setUser uid (.zero name) with users := uid :: m.users }

structure Environment where
  fifo : Option CString
  runtimePath : Option LoginPath
  userCgroup : Option LoginPath
  sessionCgroup : Option CString
  x11Socket : Bool
  activeVt : Option Int32

-- A path that cannot be used is forgotten.
def userStart (m : Manager) (uid : UInt32) (environment : Environment) : Manager × Bool :=
  if (m.user uid).started then
    (m, true)
  else
    let m := m.setUser uid { m.user uid with runtimePath := environment.runtimePath }
    if environment.runtimePath = none then
      (m, false)
    else
      let m := m.setUser uid { m.user uid with cgroupPath := environment.userCgroup }
      if environment.userCgroup = none then
        (m, false)
      else
        (userSave (m.setUser uid { m.user uid with started := true }) uid, true)

-- session_link_x11_socket()
def linkX11Socket (m : Manager) (id : Identifier) (environment : Environment) : Manager :=
  let uid := (m.session id).user
  if (m.user uid).display = none ∧ (m.session id).display ≠ none ∧ environment.x11Socket = true then
    m.setUser uid { m.user uid with display := some id }
  else
    m

def sessionReadActiveVt (m : Manager) (id : Identifier) (activeVt : Option Int32) : Manager :=
  match (m.session id).seat with
  | some seat => seatReadActiveVt m seat activeVt
  | none => m

def saveWithSeat (m : Manager) (id : Identifier) : Manager :=
  let saved := userSave (sessionSave m id) (m.session id).user
  match (m.session id).seat with
  | some seat => seatSave saved seat
  | none => saved

-- What session_start() does to a session that has its control group.
def sessionLaunch (m : Manager) (id : Identifier) (environment : Environment) : Manager :=
  let m := sessionReadActiveVt (linkX11Socket m id environment) id environment.activeVt
  let m := m.setSession id { m.session id with started := true }
  saveWithSeat m id

def sessionStart (m : Manager) (id : Identifier) (environment : Environment) : Manager × Bool :=
  if (m.session id).started then
    (m, true)
  else
    let (m, ready) := userStart m (m.session id).user environment
    if ready = false then
      (m, false)
    else
      let m := m.setSession id { m.session id with cgroupPath := environment.sessionCgroup }
      if environment.sessionCgroup = none then (m, false) else (sessionLaunch m id environment, true)

-- The control group is given up also when it could not be removed.
def sessionTerminateCgroup (m : Manager) (id : Identifier) : Manager :=
  m.setSession id { m.session id with cgroupPath := none }

def sessionUnlinkX11Socket (m : Manager) (id : Identifier) : Manager :=
  let uid := (m.session id).user
  if (m.user uid).display = some id then m.setUser uid { m.user uid with display := none } else m

-- What session_stop() does before it looks at the seat.
def sessionRetire (m : Manager) (id : Identifier) : Manager :=
  let m := sessionUnlinkX11Socket (sessionTerminateCgroup m id) id
  let m := { m with sessionFile := update m.sessionFile id none }
  userAddToGcQueue (sessionAddToGcQueue m id) (m.session id).user

def sessionLeaveSeat (m : Manager) (id : Identifier) : Manager :=
  match (m.session id).seat with
  | some seat => if (m.seat seat).active = some id then seatSetActive m seat none else m
  | none => m

def sessionStop (m : Manager) (id : Identifier) : Manager :=
  let m := sessionLeaveSeat (sessionRetire m id) id
  m.setSession id { m.session id with started := false }

def sessionFree (m : Manager) (id : Identifier) : Manager :=
  let uid := (m.session id).user
  let m := { m with sessionGcQueue := m.sessionGcQueue.erase id }
  let m := m.setUser uid
    { m.user uid with
      sessions := (m.user uid).sessions.erase id
      display := if (m.user uid).display = some id then none else (m.user uid).display }
  let m := match (m.session id).seat with
    | some seat => m.setSeat seat
        { m.seat seat with
          active := if (m.seat seat).active = some id then none else (m.seat seat).active
          sessions := (m.seat seat).sessions.erase id }
    | none => m
  { m with sessions := m.sessions.erase id }

def seatStopSessions (m : Manager) (seat : Identifier) : Manager :=
  (m.seat seat).sessions.foldl sessionStop m

def seatStop (m : Manager) (seat : Identifier) : Manager :=
  let m := seatStopSessions m seat
  let m := { m with seatFile := update m.seatFile seat none }
  let m := seatAddToGcQueue m seat
  m.setSeat seat { m.seat seat with started := false }

-- session_free() takes the session at the front off the list, until the list is empty.
def seatFree (m : Manager) (seat : Identifier) : Option Manager :=
  let m := { m with seatGcQueue := m.seatGcQueue.erase seat }
  let m := (m.seat seat).sessions.foldl sessionFree m
  if (m.seat seat).active ≠ none then
    none
  else
    some { m.setSeat seat { m.seat seat with devices := [] } with seats := m.seats.erase seat }

def userStop (m : Manager) (uid : UInt32) : Manager :=
  let m := (m.user uid).sessions.foldl sessionStop m
  let m := m.setUser uid { m.user uid with cgroupPath := none, runtimePath := none }
  let m := { m with userFile := update m.userFile uid none }
  let m := userAddToGcQueue m uid
  m.setUser uid { m.user uid with started := false }

def userFree (m : Manager) (uid : UInt32) : Manager :=
  let m := { m with userGcQueue := m.userGcQueue.erase uid }
  let m := (m.user uid).sessions.foldl sessionFree m
  { m with users := m.users.erase uid }

/-- What logind finds out about the processes of its sessions and users: which sessions have an open
FIFO or a control group in use, and which users linger or have one in use. -/
structure Processes where
  session : Identifier -> Bool
  user : UInt32 -> Bool

def sessionCheckGc (m : Manager) (id : Identifier) (dropNotStarted : Bool) (processes : Processes) : Bool :=
  if dropNotStarted && !(m.session id).started then false else processes.session id

def userCheckGc (m : Manager) (uid : UInt32) (dropNotStarted : Bool) (processes : Processes) : Bool :=
  if dropNotStarted && !(m.user uid).started then false
  else if (m.user uid).sessions ≠ [] then true
  else processes.user uid

def seatCheckGc (m : Manager) (seat : Identifier) (dropNotStarted : Bool) : Bool :=
  if dropNotStarted && !(m.seat seat).started then false
  else if seatIsVtconsole seat then true
  else (m.seat seat).devices ≠ []

section

variable (dropNotStarted : Bool) (processes : Processes)

def gcSeat (m : Manager) (seat : Identifier) : Option Manager :=
  if seatCheckGc m seat dropNotStarted then some m else seatFree (seatStop m seat) seat

def gcSession (m : Manager) (id : Identifier) : Manager :=
  if sessionCheckGc m id dropNotStarted processes then m else sessionFree (sessionStop m id) id

def gcUser (m : Manager) (uid : UInt32) : Manager :=
  if userCheckGc m uid dropNotStarted processes then m else userFree (userStop m uid) uid

-- A turn of these loops takes one entry off its queue and leaves no other there.
def gcSeats : Nat -> Manager -> Option Manager
  | 0, m => some m
  | turns + 1, m =>
    match m.seatGcQueue with
    | [] => some m
    | seat :: rest => (gcSeat dropNotStarted { m with seatGcQueue := rest } seat).bind (gcSeats turns)

def gcSessions : Nat -> Manager -> Manager
  | 0, m => m
  | turns + 1, m =>
    match m.sessionGcQueue with
    | [] => m
    | id :: rest => gcSessions turns (gcSession dropNotStarted processes { m with sessionGcQueue := rest } id)

def gcUsers : Nat -> Manager -> Manager
  | 0, m => m
  | turns + 1, m =>
    match m.userGcQueue with
    | [] => m
    | uid :: rest => gcUsers turns (gcUser dropNotStarted processes { m with userGcQueue := rest } uid)

def managerGc (m : Manager) : Option Manager :=
  (gcSeats dropNotStarted m.seatGcQueue.length m).map fun m =>
    let m := gcSessions dropNotStarted processes m.sessionGcQueue.length m
    gcUsers dropNotStarted processes m.userGcQueue.length m

end

/-- A call of CreateSession: the session's fields, and the user's name in the user database. -/
structure Request where
  id : Identifier
  uid : UInt32
  userName : LineText
  leader : Int32
  auditId : UInt32
  type : SessionType
  seat : Option Identifier
  vtnr : Int32
  tty : Option CString
  display : Option CString
  remote : Bool
  remoteUser : Option CString
  remoteHost : Option CString
  service : Option CString
  killProcesses : Bool

def Request.valid (r : Request) (m : Manager) : Bool :=
  match r.seat with
  | none => true
  | some seat =>
    decide (seat ∈ m.seats) &&
      if seatIsVtconsole seat then decide (0 < r.vtnr ∧ r.vtnr ≤ 63) else decide (r.vtnr = 0)

def Request.session (r : Request) : Session :=
  { Session.zero r.uid with
    leader := r.leader
    auditId := r.auditId
    type := r.type
    remote := r.remote
    killProcesses := r.killProcesses
    vtnr := r.vtnr
    tty := r.tty
    display := r.display
    remoteUser := r.remoteUser
    remoteHost := r.remoteHost
    service := r.service }

def createSessionFails (m : Manager) (r : Request) : Manager :=
  userAddToGcQueue (sessionAddToGcQueue m r.id) r.uid

def attachToSeat (m : Manager) (r : Request) : Option (Manager × Bool) :=
  match r.seat with
  | none => some (m, true)
  | some seat => seatAttachSession m seat r.id

def attachAndStart (m : Manager) (r : Request) (environment : Environment) : Option Manager :=
  match attachToSeat m r with
  | none => none
  | some (m, false) => some (createSessionFails m r)
  | some (m, true) =>
    let (m, started) := sessionStart m r.id environment
    some (if started then m else createSessionFails m r)

def createSession (m : Manager) (r : Request) (environment : Environment) : Option Manager :=
  if r.valid m = false then
    some m
  else
    let m := managerAddUser m r.uid r.userName
    if r.id ∈ m.sessions then
      -- The audit session exists already; all it gets is another writer of its FIFO.
      some (if environment.fifo = none then createSessionFails m r else m)
    else
      let m := sessionNew m r.uid r.id
      let m := m.setSession r.id { r.session with fifoPath := environment.fifo }
      if environment.fifo = none then some (createSessionFails m r) else attachAndStart m r environment

end Systemd.Logins
