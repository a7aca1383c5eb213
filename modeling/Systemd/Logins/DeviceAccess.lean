import Systemd.Logins.Guarded
import Systemd.Shared.Reached

set_option autoImplicit false

namespace Systemd.Logins

open Option

open Systemd.Steps (Reached)

def Granted (acl : List AclEntry) (uid : UInt32) : Prop :=
  ∃ entry ∈ acl, entry.uid = uid ∧ (entry.read = true ∨ entry.write = true)

structure Access (m : Manager) (seat : Identifier) : Prop where
  granted : ∀ acl ∈ m.acls seat, ∀ uid, uid ≠ 0 ->
    (Granted acl uid ↔ ∃ id, (m.seat seat).active = some id ∧ (m.session id).user = uid)
  active : ∀ id ∈ (m.seat seat).active, id ∈ (m.seat seat).sessions
  single : seatIsVtconsole seat = false -> (m.seat seat).sessions.length ≤ 1

structure Fresh (m : Manager) : Prop where
  linked : Linked m.toObjects
  empty : ∀ seat, (m.seat seat).sessions = []
  closed : ∀ seat, ∀ acl ∈ m.acls seat, acl = []

/-- A session that has been stopped, on a seat which is not the VT console: it waits for its
collection, and the seat has no active session. -/
structure Parked (m : Manager) (id : Identifier) : Prop where
  known : id ∈ m.sessions
  stopped : (m.session id).started = false
  seat : ∃ seat, (m.session id).seat = some seat ∧ seatIsVtconsole seat = false ∧ (m.seat seat).active = none

section

variable {m : Manager} {id seat : Identifier}

theorem granted_activeAcl {user : Option UInt32} {uid : UInt32} (guest : uid ≠ 0) :
    Granted (activeAcl user) uid ↔ user = some uid := by
  cases user with
  | none => simp [Granted, activeAcl]
  | some owner =>
    by_cases pos : 0 < owner
    · simp [Granted, activeAcl, pos]
    · have root : owner = 0 := by
        have bound := UInt32.not_lt.mp pos
        exact UInt32.le_zero_iff.mp bound
      simp [Granted, activeAcl, root, Ne.symm guest]

theorem Guarded.access (guarded : Guarded m) (seat : Identifier) : Access m seat where
  granted := by
    intro acl mem uid guest
    rw [guarded.follow seat acl mem, granted_activeAcl guest, activeUser, map_eq_some_iff]
  active := guarded.linked.active seat
  single := guarded.linked.single seat

theorem Fresh.guarded (fresh : Fresh m) : Guarded m where
  linked := fresh.linked
  follow := by
    intro seat acl mem
    have inactive : (m.seat seat).active = none := by
      apply eq_none_iff_forall_not_mem.mpr
      intro id active
      have mem := fresh.linked.active seat id active
      rw [fresh.empty] at mem
      cases mem
    rw [fresh.closed seat acl mem, activeUser, inactive]
    rfl
  stopped := by
    intro seat _ id mem
    rw [fresh.empty] at mem
    cases mem

theorem Guarded.parked (guarded : Guarded m) (known : id ∈ m.sessions) (own : (m.session id).seat = some seat)
    (plain : seatIsVtconsole seat = false) (inactive : (m.seat seat).active ≠ some id) : Parked m id := by
  have listed := guarded.linked.seatLists id known seat own
  refine ⟨known, (guarded.stopped seat plain id listed).resolve_left inactive, seat, own, plain, ?_⟩
  apply eq_none_iff_forall_not_mem.mpr
  intro other active
  have both := guarded.linked.active seat other active
  obtain ⟨only, single⟩ := List.length_eq_one_iff.mp
    (le_antisymm (guarded.linked.single seat plain) (List.length_pos_of_mem listed))
  rw [single, List.mem_singleton] at listed both
  rw [listed, ← both] at inactive
  exact inactive active

theorem sessionActivate_none (guarded : Guarded m) (known : id ∈ m.sessions) (chvt : Bool) :
    sessionActivate m id chvt = none ↔ Parked m id ∧ 0 ≤ (m.session id).vtnr := by
  rw [sessionActivate]
  by_cases unknown : (m.session id).vtnr < 0
  · simp [unknown]
  rw [if_neg unknown]
  cases own : (m.session id).seat with
  | none =>
    simp only [reduceCtorEq, false_iff]
    rintro ⟨⟨_, _, seat, placed, _⟩, _⟩
    rw [own] at placed
    cases placed
  | some seat =>
    have valid : 0 ≤ (m.session id).vtnr := Int32.not_lt.mp unknown
    simp only
    split_ifs with active console
    · simp only [false_iff]
      rintro ⟨⟨_, _, other, placed, _, inactive⟩, _⟩
      rw [own] at placed
      cases placed
      rw [active] at inactive
      cases inactive
    · exact iff_of_true rfl ⟨guarded.parked known own console active, valid⟩
    all_goals
      simp only [false_iff]
      rintro ⟨⟨_, _, other, placed, plain, _⟩, _⟩
      rw [own] at placed
      cases placed
      exact console plain

theorem Operation.take_guarded (guarded : Guarded m) (operation : Operation) :
    (∀ next, operation.take m = some next -> Guarded next) ∧
      (operation.take m = none ↔
        ∃ id chvt, operation = .activate id chvt ∧ Parked m id ∧ 0 ≤ (m.session id).vtnr) := by
  have done {operation : Operation} (other : ∀ id chvt, operation ≠ .activate id chvt)
      (result : ∃ next, operation.take m = some next ∧ Guarded next) :
      (∀ next, operation.take m = some next -> Guarded next) ∧
        (operation.take m = none ↔
          ∃ id chvt, operation = .activate id chvt ∧ Parked m id ∧ 0 ≤ (m.session id).vtnr) := by
    obtain ⟨next, result, kept⟩ := result
    refine ⟨fun _ same => some.inj (result.symm.trans same) ▸ kept, fun failed => ?_, ?_⟩
    · rw [result] at failed
      cases failed
    · rintro ⟨id, chvt, same, _⟩
      exact absurd same (other id chvt)
  cases operation with
  | create request environment =>
    exact done (fun _ _ => by simp) (createSession_guarded guarded request environment)
  | attach seat id =>
    apply done (fun _ _ => by simp)
    simp only [Operation.take]
    split_ifs with attachable
    · obtain ⟨_, known, unseated⟩ := attachable
      by_cases vacant : Vacant m seat
      · obtain ⟨attached, result, kept, _⟩ := seatAttachSession_guarded guarded known unseated vacant
        exact ⟨attached, by rw [result]; rfl, kept⟩
      · exact ⟨m, by rw [seatAttachSession_taken guarded unseated vacant]; rfl, guarded⟩
    · exact ⟨m, rfl, guarded⟩
  | activate id chvt =>
    simp only [Operation.take]
    split_ifs with known
    · refine ⟨fun next result => sessionActivate_guarded guarded known result, ?_⟩
      rw [sessionActivate_none guarded known]
      constructor
      · exact fun parked => ⟨id, chvt, rfl, parked⟩
      · rintro ⟨_, _, same, parked⟩
        cases same
        exact parked
    · refine ⟨fun next result => some.inj result ▸ guarded, ?_⟩
      simp only [false_iff]
      rintro ⟨_, _, same, parked, _⟩
      cases same
      exact known parked.known
  | vtChanged seat vtnr =>
    refine done (fun _ _ => by simp) ⟨_, rfl, ?_⟩
    split_ifs
    · exact seatActiveVtChanged_guarded guarded seat vtnr
    · exact guarded
  | stopSession id =>
    refine done (fun _ _ => by simp) ⟨_, rfl, ?_⟩
    split_ifs with known
    · exact sessionStop_guarded guarded known
    · exact guarded
  | stopSeat seat =>
    refine done (fun _ _ => by simp) ⟨_, rfl, ?_⟩
    split_ifs
    · exact (seatStop_guarded guarded seat).1
    · exact guarded
  | stopUser uid =>
    refine done (fun _ _ => by simp) ⟨_, rfl, ?_⟩
    split_ifs
    · exact (userStop_guarded guarded uid).1
    · exact guarded
  | gc dropNotStarted processes =>
    exact done (fun _ _ => by simp) (managerGc_guarded dropNotStarted processes guarded)

end

theorem access_follows {start m : Manager} (fresh : Fresh start)
    (reached : Reached start Operation.take (fun _ _ => True) m) :
    (∀ seat, Access m seat) ∧
      ∀ operation : Operation, operation.take m = none ↔
        ∃ id chvt, operation = .activate id chvt ∧ Parked m id ∧ 0 ≤ (m.session id).vtnr := by
  have guarded : Guarded m := reached.invariant Guarded fresh.guarded
    fun operation state next before _ taken => (operation.take_guarded before).1 next taken
  exact ⟨guarded.access, fun operation => (operation.take_guarded guarded).2⟩

def Identifier.seat1 : Identifier := ⟨ascii "seat1", by decide, by decide⟩

def twoSeats : Manager :=
  { Manager.zero with
    seat := fun _ => { Seat.zero with started := true }
    seats := [.seat1, .seat0]
    acls := fun _ => [[]] }

def LoginPath.run : LoginPath where
  bytes := ascii "/run/user/guest"
  terminated := by decide
  single := by decide
  absolute := by decide

def guestLogin : Operation :=
  .create
    { id := .c1, uid := 1000, userName := .root, leader := 500, auditId := 0, type := .x11, seat := some .seat1,
      vtnr := 0, tty := none, display := none, remote := false, remoteUser := none, remoteHost := none,
      service := none, killProcesses := false }
    { fifo := some (.ofString "/run/systemd/sessions/c1.ref"), runtimePath := some .run, userCgroup := some .run,
      sessionCgroup := some (.ofString "/user/guest/c1"), x11Socket := true, activeVt := none }

theorem twoSeats_fresh : Fresh twoSeats := by
  refine ⟨⟨?_, ?_, ?_, ?_, ?_, ?_, ?_, ?_, ?_, ?_, ?_, ?_⟩, fun _ => rfl, ?_⟩
  all_goals simp [twoSeats, Manager.zero, Seat.zero, User.zero]

theorem guest_access : ∃ m, guestLogin.take twoSeats = some m ∧ m.acls .seat1 = [[⟨1000, true, true⟩]] ∧
    ∀ seat, Access m seat := by
  have done : (guestLogin.take twoSeats).any (fun m => m.acls .seat1 = [[⟨1000, true, true⟩]]) = true := by
    decide
  obtain ⟨some, granted⟩ := (any_eq_true_iff_get _ _).mp done
  have result := (some_get some).symm
  exact ⟨_, result, of_decide_eq_true granted,
    (access_follows twoSeats_fresh (.step guestLogin _ _ .start trivial result)).1⟩

theorem logins_linked {start m : Manager} (fresh : Fresh start)
    (reached : Reached start Operation.take (fun _ _ => True) m) : Linked m.toObjects := by
  have guarded : Guarded m := reached.invariant Guarded fresh.guarded
    fun operation state next before _ taken => (operation.take_guarded before).1 next taken
  exact guarded.linked

theorem guest_linked : ∃ m, guestLogin.take twoSeats = some m ∧ m.sessions = [.c1] ∧ Linked m.toObjects := by
  have done : (guestLogin.take twoSeats).any (fun m => m.sessions = [.c1]) = true := by
    decide
  obtain ⟨some, known⟩ := (any_eq_true_iff_get _ _).mp done
  have result := (some_get some).symm
  exact ⟨_, result, of_decide_eq_true known,
    logins_linked twoSeats_fresh (.step guestLogin _ _ .start trivial result)⟩

theorem guest_activated : Fresh twoSeats ∧
    ∃ m, Reached twoSeats Operation.take (fun _ _ => True) m ∧ Operation.take (.activate .c1 true) m = none := by
  refine ⟨twoSeats_fresh, ?_⟩
  have done : ((guestLogin.take twoSeats).bind (Operation.take (.stopSession .c1))).any
      (fun m => (Operation.take (.activate .c1 true) m).isNone) = true := by
    decide
  obtain ⟨some, failed⟩ := (any_eq_true_iff_get _ _).mp done
  obtain ⟨session, login, stopped⟩ := bind_eq_some_iff.mp (some_get some).symm
  exact ⟨_, .step (.stopSession .c1) _ _ (.step guestLogin _ _ .start trivial login) trivial stopped,
    isNone_iff_eq_none.mp failed⟩

end Systemd.Logins
