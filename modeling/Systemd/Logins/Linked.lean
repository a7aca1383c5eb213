import Systemd.Logins.Machine

set_option autoImplicit false

namespace Systemd.Logins

open List Function

section

variable (m : Manager) (id : Identifier)

theorem sessionAddToGcQueue_eq :
    sessionAddToGcQueue m id = { m with sessionGcQueue := m.sessionGcQueue.insert id } := by
  rw [sessionAddToGcQueue]
  split_ifs with queued
  · simp [queued]
  · simp [queued]

theorem userAddToGcQueue_eq (uid : UInt32) :
    userAddToGcQueue m uid = { m with userGcQueue := m.userGcQueue.insert uid } := by
  rw [userAddToGcQueue]
  split_ifs with queued
  · simp [queued]
  · simp [queued]

theorem seatAddToGcQueue_eq (seat : Identifier) :
    seatAddToGcQueue m seat = { m with seatGcQueue := m.seatGcQueue.insert seat } := by
  rw [seatAddToGcQueue]
  split_ifs with queued
  · simp [queued]
  · simp [queued]

theorem userStart_eq (uid : UInt32) (environment : Environment) : userStart m uid environment =
    if (m.user uid).started then (m, true)
    else if environment.runtimePath = none then
      (m.setUser uid { m.user uid with runtimePath := none }, false)
    else if environment.userCgroup = none then
      (m.setUser uid { m.user uid with runtimePath := environment.runtimePath, cgroupPath := none }, false)
    else
      (userSave (m.setUser uid
        { m.user uid with
          runtimePath := environment.runtimePath
          cgroupPath := environment.userCgroup
          started := true }) uid, true) := by
  rw [userStart]
  split_ifs with started runtimePath cgroup
  · rfl
  · simp [runtimePath]
  · simp [cgroup]
  · simp

def User.without (u : User) (id : Identifier) : User :=
  { u with display := if u.display = some id then none else u.display }

def Seat.without (s : Seat) (id : Identifier) : Seat :=
  { s with active := if s.active = some id then none else s.active }

theorem sessionRetire_eq : sessionRetire m id =
    { m with
      session := update m.session id { m.session id with cgroupPath := none }
      user := update m.user (m.session id).user ((m.user (m.session id).user).without id)
      sessionFile := update m.sessionFile id none
      sessionGcQueue := m.sessionGcQueue.insert id
      userGcQueue := m.userGcQueue.insert (m.session id).user } := by
  rw [sessionRetire, sessionUnlinkX11Socket, userAddToGcQueue_eq, sessionAddToGcQueue_eq]
  by_cases shown : (m.user (m.session id).user).display = some id
  · simp [sessionTerminateCgroup, Manager.setSession, Manager.setUser, shown, User.without]
  · simp [sessionTerminateCgroup, Manager.setSession, shown, User.without]

theorem sessionLeaveSeat_toObjects : (sessionLeaveSeat m id).toObjects =
    { m.toObjects with
      seat := (m.session id).seat.elim m.seat fun seat => update m.seat seat ((m.seat seat).without id) } := by
  rw [sessionLeaveSeat]
  cases (m.session id).seat with
  | none => rfl
  | some seat =>
    by_cases active : (m.seat seat).active = some id
    · simp [active, Seat.without]
    · simp [active, Seat.without]

theorem sessionStop_toObjects : (sessionStop m id).toObjects =
    { m.toObjects with
      session := update m.session id { m.session id with cgroupPath := none, started := false }
      user := update m.user (m.session id).user ((m.user (m.session id).user).without id)
      seat := (m.session id).seat.elim m.seat fun seat => update m.seat seat ((m.seat seat).without id)
      sessionGcQueue := m.sessionGcQueue.insert id
      userGcQueue := m.userGcQueue.insert (m.session id).user } := by
  simp [sessionStop, sessionLeaveSeat_toObjects, sessionRetire_eq]

theorem sessionFree_toObjects : (sessionFree m id).toObjects =
    { m.toObjects with
      user := update m.user (m.session id).user
        { (m.user (m.session id).user).without id with sessions := (m.user (m.session id).user).sessions.erase id }
      seat := (m.session id).seat.elim m.seat fun seat => update m.seat seat
        { (m.seat seat).without id with sessions := (m.seat seat).sessions.erase id }
      sessions := m.sessions.erase id
      sessionGcQueue := m.sessionGcQueue.erase id } := by
  cases own : (m.session id).seat with
  | none => simp [sessionFree, own, User.without]
  | some seat => simp [sessionFree, own, User.without, Seat.without]

end

structure SameLinks (o o' : Objects) : Prop where
  session : ∀ id, (o'.session id).user = (o.session id).user ∧ (o'.session id).seat = (o.session id).seat
  user : ∀ uid, (o'.user uid).sessions = (o.user uid).sessions
  seat : ∀ seat, (o'.seat seat).sessions = (o.seat seat).sessions
  sessions : o'.sessions = o.sessions
  users : o'.users = o.users

structure Linked (o : Objects) : Prop where
  user : ∀ uid, ∀ id ∈ (o.user uid).sessions, id ∈ o.sessions ∧ (o.session id).user = uid
  userLists : ∀ id ∈ o.sessions, id ∈ (o.user (o.session id).user).sessions
  users : ∀ id ∈ o.sessions, (o.session id).user ∈ o.users
  seat : ∀ seat, ∀ id ∈ (o.seat seat).sessions, id ∈ o.sessions ∧ (o.session id).seat = some seat
  seatLists : ∀ id ∈ o.sessions, ∀ seat ∈ (o.session id).seat, id ∈ (o.seat seat).sessions
  sessions : o.sessions.Nodup
  userSessions : ∀ uid, (o.user uid).sessions.Nodup
  seatSessions : ∀ seat, (o.seat seat).sessions.Nodup
  queue : o.sessionGcQueue ⊆ o.sessions
  queued : o.sessionGcQueue.Nodup
  active : ∀ seat, ∀ id ∈ (o.seat seat).active, id ∈ (o.seat seat).sessions
  single : ∀ seat, seatIsVtconsole seat = false -> (o.seat seat).sessions.length ≤ 1

theorem Linked.of_same {o o' : Objects} (linked : Linked o) (same : SameLinks o o')
    (queue : o'.sessionGcQueue ⊆ o.sessions) (queued : o'.sessionGcQueue.Nodup)
    (active : ∀ seat, ∀ id ∈ (o'.seat seat).active, id ∈ (o.seat seat).sessions) : Linked o' where
  user := by
    intro uid id mem
    rw [same.user] at mem
    rw [same.sessions, (same.session id).1]
    exact linked.user uid id mem
  userLists := by
    intro id mem
    rw [same.sessions] at mem
    rw [(same.session id).1, same.user]
    exact linked.userLists id mem
  users := by
    intro id mem
    rw [same.sessions] at mem
    rw [(same.session id).1, same.users]
    exact linked.users id mem
  seat := by
    intro seat id mem
    rw [same.seat] at mem
    rw [same.sessions, (same.session id).2]
    exact linked.seat seat id mem
  seatLists := by
    intro id mem seat own
    rw [same.sessions] at mem
    rw [(same.session id).2] at own
    rw [same.seat]
    exact linked.seatLists id mem seat own
  sessions := by
    rw [same.sessions]
    exact linked.sessions
  userSessions := by
    intro uid
    rw [same.user]
    exact linked.userSessions uid
  seatSessions := by
    intro seat
    rw [same.seat]
    exact linked.seatSessions seat
  queue := by
    rw [same.sessions]
    exact queue
  queued := queued
  active := by
    intro seat id own
    rw [same.seat]
    exact active seat id own
  single := by
    intro seat other
    rw [same.seat]
    exact linked.single seat other

section

variable {m : Manager} {id : Identifier}

theorem SameLinks.refl (o : Objects) : SameLinks o o := 
  ⟨fun _ => ⟨rfl, rfl⟩, fun _ => rfl, fun _ => rfl, rfl, rfl⟩

theorem SameLinks.trans {first second third : Objects} (same : SameLinks first second)
    (next : SameLinks second third) : SameLinks first third where
  session := fun id => ⟨(next.session id).1.trans (same.session id).1, (next.session id).2.trans (same.session id).2⟩
  user := fun uid => (next.user uid).trans (same.user uid)
  seat := fun seat => (next.seat seat).trans (same.seat seat)
  sessions := next.sessions.trans same.sessions
  users := next.users.trans same.users

theorem sessionStop_sameLinks : SameLinks m.toObjects (sessionStop m id).toObjects := by
  rw [sessionStop_toObjects]
  constructor
  · intro other
    by_cases same : other = id
    · subst same
      simp
    · simp [same]
  · intro uid
    by_cases same : uid = (m.session id).user
    · subst same
      simp [User.without]
    · simp [same]
  · intro seat
    cases own : (m.session id).seat with
    | none => simp
    | some other =>
      by_cases same : seat = other
      · subst same
        simp [Seat.without]
      · simp [same]
  · rfl
  · rfl

theorem sessionStop_active (seat : Identifier) : ((sessionStop m id).seat seat).active =
    if (m.session id).seat = some seat ∧ (m.seat seat).active = some id then none else (m.seat seat).active := by
  rw [sessionStop_toObjects]
  cases own : (m.session id).seat with
  | none => simp
  | some other =>
    by_cases same : seat = other
    · subst same
      simp [Seat.without]
    · simp [same, Ne.symm same]

theorem Linked.insert_queue {o : Objects} (linked : Linked o) (known : id ∈ o.sessions) :
    o.sessionGcQueue.insert id ⊆ o.sessions ∧ (o.sessionGcQueue.insert id).Nodup := by
  constructor
  · intro other mem
    rcases mem_insert_iff.mp mem with rfl | mem
    · exact known
    · exact linked.queue mem
  · exact linked.queued.insert

theorem sessionStop_linked (linked : Linked m.toObjects) (known : id ∈ m.sessions) :
    Linked (sessionStop m id).toObjects := by
  obtain ⟨queue, queued⟩ := linked.insert_queue known
  have gcQueue : (sessionStop m id).sessionGcQueue = m.sessionGcQueue.insert id := by
    rw [sessionStop_toObjects]
  rw [← gcQueue] at queue queued
  apply linked.of_same sessionStop_sameLinks queue queued
  intro seat other active
  rw [sessionStop_active] at active
  split_ifs at active
  · cases active
  · exact linked.active seat other active

structure Dropped (o o' : Objects) (id : Identifier) : Prop where
  session : o'.session = o.session
  user : ∀ uid, (o'.user uid).sessions = (o.user uid).sessions.erase id
  seat : ∀ seat, (o'.seat seat).sessions = (o.seat seat).sessions.erase id
  active : ∀ seat, (o'.seat seat).active = if (o.seat seat).active = some id then none else (o.seat seat).active
  sessions : o'.sessions = o.sessions.erase id
  users : o'.users = o.users
  queue : o'.sessionGcQueue = o.sessionGcQueue.erase id

theorem sessionFree_dropped (linked : Linked m.toObjects) :
    Dropped m.toObjects (sessionFree m id).toObjects id := by
  have elsewhere {uid : UInt32} (other : uid ≠ (m.session id).user) : id ∉ (m.user uid).sessions :=
    fun mem => other (linked.user uid id mem).2.symm
  have away {seat : Identifier} (other : (m.session id).seat ≠ some seat) : id ∉ (m.seat seat).sessions :=
    fun mem => other (linked.seat seat id mem).2
  have inactive {seat : Identifier} (other : (m.session id).seat ≠ some seat) : (m.seat seat).active ≠ some id :=
    fun active => away other (linked.active seat id active)
  rw [sessionFree_toObjects]
  constructor
  · rfl
  · intro uid
    by_cases same : uid = (m.session id).user
    · subst same
      simp
    · simp [same, erase_of_not_mem (elsewhere same)]
  · intro seat
    by_cases same : (m.session id).seat = some seat
    · simp [same]
    · rw [erase_of_not_mem (away same)]
      cases own : (m.session id).seat with
      | none => rfl
      | some other =>
        have ne : seat ≠ other := by
          rintro rfl
          exact same own
        simp [ne]
  · intro seat
    by_cases same : (m.session id).seat = some seat
    · simp [same, Seat.without]
    · rw [if_neg (inactive same)]
      cases own : (m.session id).seat with
      | none => rfl
      | some other =>
        have ne : seat ≠ other := by
          rintro rfl
          exact same own
        simp [ne]
  · rfl
  · rfl
  · rfl

theorem Dropped.linked {o o' : Objects} (dropped : Dropped o o' id) (linked : Linked o) : Linked o' := by
  have userLists (uid : UInt32) (other : Identifier) :
      other ∈ (o'.user uid).sessions ↔ other ≠ id ∧ other ∈ (o.user uid).sessions := by
    rw [dropped.user, (linked.userSessions uid).mem_erase_iff]
  have seatLists (seat other : Identifier) :
      other ∈ (o'.seat seat).sessions ↔ other ≠ id ∧ other ∈ (o.seat seat).sessions := by
    rw [dropped.seat, (linked.seatSessions seat).mem_erase_iff]
  have known (other : Identifier) : other ∈ o'.sessions ↔ other ≠ id ∧ other ∈ o.sessions := by
    rw [dropped.sessions, linked.sessions.mem_erase_iff]
  constructor
  · intro uid other mem
    obtain ⟨ne, mem⟩ := (userLists uid other).mp mem
    rw [known, dropped.session]
    exact ⟨⟨ne, (linked.user uid other mem).1⟩, (linked.user uid other mem).2⟩
  · intro other mem
    obtain ⟨ne, mem⟩ := (known other).mp mem
    rw [dropped.session, userLists]
    exact ⟨ne, linked.userLists other mem⟩
  · intro other mem
    rw [dropped.session, dropped.users]
    exact linked.users other ((known other).mp mem).2
  · intro seat other mem
    obtain ⟨ne, mem⟩ := (seatLists seat other).mp mem
    rw [known, dropped.session]
    exact ⟨⟨ne, (linked.seat seat other mem).1⟩, (linked.seat seat other mem).2⟩
  · intro other mem seat own
    obtain ⟨ne, mem⟩ := (known other).mp mem
    rw [dropped.session] at own
    exact (seatLists seat other).mpr ⟨ne, linked.seatLists other mem seat own⟩
  · rw [dropped.sessions]
    exact linked.sessions.erase id
  · intro uid
    rw [dropped.user]
    exact (linked.userSessions uid).erase id
  · intro seat
    rw [dropped.seat]
    exact (linked.seatSessions seat).erase id
  · intro other mem
    rw [dropped.queue, linked.queued.mem_erase_iff] at mem
    exact (known other).mpr ⟨mem.1, linked.queue mem.2⟩
  · rw [dropped.queue]
    exact linked.queued.erase id
  · intro seat other active
    rw [dropped.active] at active
    split_ifs at active with own
    · cases active
    · refine (seatLists seat other).mpr ⟨?_, linked.active seat other active⟩
      rintro rfl
      exact own active
  · intro seat plain
    rw [dropped.seat]
    exact (erase_sublist.length_le).trans (linked.single seat plain)

section

variable (linked : Linked m.toObjects)
include linked

theorem sessionFree_linked : Linked (sessionFree m id).toObjects :=
  (sessionFree_dropped linked).linked linked

theorem managerAddUser_linked (uid : UInt32) (name : LineText) :
    Linked (managerAddUser m uid name).toObjects ∧ uid ∈ (managerAddUser m uid name).users := by
  rw [managerAddUser]
  split_ifs with known
  · exact ⟨linked, known⟩
  have none : (m.user uid).sessions = [] := by
    apply eq_nil_iff_forall_not_mem.mpr
    intro id mem
    obtain ⟨listed, rfl⟩ := linked.user uid id mem
    exact known (linked.users id listed)
  have lists (other : UInt32) :
      (update m.user uid (User.zero name) other).sessions = (m.user other).sessions := by
    by_cases same : other = uid
    · subst same
      simp [none, User.zero]
    · simp [same]
  refine ⟨?_, by simp⟩
  constructor
  · simpa [lists] using linked.user
  · simpa [lists] using linked.userLists
  · intro id mem
    exact mem_cons_of_mem uid (linked.users id mem)
  · exact linked.seat
  · exact linked.seatLists
  · exact linked.sessions
  · simpa [lists] using linked.userSessions
  · exact linked.seatSessions
  · exact linked.queue
  · exact linked.queued
  · exact linked.active
  · exact linked.single

theorem sessionNew_linked {uid : UInt32} (known : uid ∈ m.users) (fresh : id ∉ m.sessions) :
    Linked (sessionNew m uid id).toObjects := by
  have old {other : Identifier} (mem : other ∈ m.sessions) : other ≠ id := by
    rintro rfl
    exact fresh mem
  have userLists (owner : UInt32) (other : Identifier) :
      other ∈ ((sessionNew m uid id).user owner).sessions ↔
        owner = uid ∧ other = id ∨ other ∈ (m.user owner).sessions := by
    by_cases same : owner = uid
    · subst same
      simp [sessionNew]
    · simp [sessionNew, same]
  have sessions : (sessionNew m uid id).sessions = id :: m.sessions := rfl
  have zero : (sessionNew m uid id).session id = .zero uid := by simp [sessionNew]
  have session {other : Identifier} (ne : other ≠ id) :
      (sessionNew m uid id).session other = m.session other := by
    simp [sessionNew, ne]
  constructor
  · intro owner other mem
    rcases (userLists owner other).mp mem with ⟨rfl, rfl⟩ | mem
    · rw [zero]
      exact ⟨mem_cons_self, rfl⟩
    · obtain ⟨mem, own⟩ := linked.user owner other mem
      rw [session (old mem)]
      exact ⟨mem_cons_of_mem id mem, own⟩
  · intro other mem
    rcases mem_cons.mp mem with rfl | mem
    · rw [zero]
      exact (userLists uid other).mpr (.inl ⟨rfl, rfl⟩)
    · rw [session (old mem)]
      exact (userLists _ other).mpr (.inr (linked.userLists other mem))
  · intro other mem
    rcases mem_cons.mp mem with rfl | mem
    · rw [zero]
      exact known
    · rw [session (old mem)]
      exact linked.users other mem
  · intro seat other mem
    obtain ⟨mem, own⟩ := linked.seat seat other mem
    rw [session (old mem)]
    exact ⟨mem_cons_of_mem id mem, own⟩
  · intro other mem seat own
    rcases mem_cons.mp mem with rfl | mem
    · rw [zero] at own
      cases own
    · rw [session (old mem)] at own
      exact linked.seatLists other mem seat own
  · exact linked.sessions.cons fresh
  · intro owner
    by_cases same : owner = uid
    · subst same
      have absent : id ∉ (m.user owner).sessions := fun mem => fresh (linked.user owner id mem).1
      simpa [sessionNew] using ⟨absent, linked.userSessions owner⟩
    · simpa [sessionNew, same] using linked.userSessions owner
  · exact linked.seatSessions
  · exact fun other mem => mem_cons_of_mem id (linked.queue mem)
  · exact linked.queued
  · exact linked.active
  · exact linked.single

theorem linkToSeat_linked {seat : Identifier} (known : id ∈ m.sessions)
    (unseated : (m.session id).seat = none) (vacant : Vacant m seat) :
    Linked (linkToSeat m seat id).toObjects := by
  have absent (other : Identifier) : id ∉ (m.seat other).sessions := by
    intro mem
    have own := (linked.seat other id mem).2
    rw [unseated] at own
    cases own
  have session (other : Identifier) :
      ((linkToSeat m seat id).session other).user = (m.session other).user ∧
        ((linkToSeat m seat id).session other).seat = if other = id then some seat else (m.session other).seat := by
    by_cases same : other = id
    · subst same
      simp
    · simp [same]
  have seatLists (place : Identifier) : ((linkToSeat m seat id).seat place).sessions =
      if place = seat then id :: (m.seat seat).sessions else (m.seat place).sessions := by
    by_cases same : place = seat
    · subst same
      simp [linkToSeat]
    · simp [linkToSeat, same]
  have active (place : Identifier) : ((linkToSeat m seat id).seat place).active = (m.seat place).active := by
    by_cases same : place = seat
    · subst same
      simp [linkToSeat]
    · simp [linkToSeat, same]
  constructor
  · intro uid other mem
    rw [(session other).1]
    exact linked.user uid other mem
  · intro other mem
    rw [(session other).1]
    exact linked.userLists other mem
  · intro other mem
    rw [(session other).1]
    exact linked.users other mem
  · intro place other mem
    rw [seatLists] at mem
    rw [(session other).2]
    split_ifs at mem with same
    · subst same
      rcases mem_cons.mp mem with rfl | listed
      · exact ⟨known, if_pos rfl⟩
      · obtain ⟨found, own⟩ := linked.seat place other listed
        rw [if_neg (by rintro rfl; exact absent place listed)]
        exact ⟨found, own⟩
    · obtain ⟨found, own⟩ := linked.seat place other mem
      rw [if_neg (by rintro rfl; exact absent place mem)]
      exact ⟨found, own⟩
  · intro other mem place own
    rw [(session other).2] at own
    rw [seatLists]
    split_ifs at own with new
    · cases own
      rw [if_pos rfl, new]
      exact mem_cons_self
    · have listed := linked.seatLists other mem place own
      split_ifs with same
      · subst same
        exact mem_cons_of_mem id listed
      · exact listed
  · exact linked.sessions
  · exact linked.userSessions
  · intro place
    rw [seatLists]
    split_ifs with same
    · exact (linked.seatSessions seat).cons (absent seat)
    · exact linked.seatSessions place
  · exact linked.queue
  · exact linked.queued
  · intro place other own
    rw [active] at own
    rw [seatLists]
    split_ifs with same
    · subst same
      exact mem_cons_of_mem id (linked.active place other own)
    · exact linked.active place other own
  · intro place plain
    rw [seatLists]
    split_ifs with same
    · subst same
      rcases vacant with console | ⟨empty, _⟩
      · rw [plain] at console
        cases console
      · simp [empty]
    · exact linked.single place plain

end

end

end Systemd.Logins
