import Systemd.Logins.Linked

set_option autoImplicit false

namespace Systemd.Logins

open List Option Function

def activeAcl : Option UInt32 -> List AclEntry
  | some uid => if 0 < uid then [⟨uid, true, true⟩] else []
  | none => []

def activeUser (o : Objects) (seat : Identifier) : Option UInt32 :=
  (o.seat seat).active.map fun id => (o.session id).user

theorem devnodeAcl_handover (old new : Option UInt32) : devnodeAcl (activeAcl old) old new = activeAcl new := by
  have emptied : devnodeAcl (activeAcl old) old none = [] := by
    cases old with
    | none => rfl
    | some uid =>
      by_cases pos : 0 < uid
      · simp [devnodeAcl, activeAcl, pos]
      · simp [devnodeAcl, activeAcl, pos]
  cases new with
  | none => exact emptied
  | some uid =>
    have shown : devnodeAcl (activeAcl old) old (some uid) =
        if 0 < uid then grant uid (devnodeAcl (activeAcl old) old none) else devnodeAcl (activeAcl old) old none := rfl
    rw [shown, emptied]
    rfl

def AclsFollow (o : Objects) (acls : Identifier -> List (List AclEntry)) : Prop :=
  ∀ seat, ∀ acl ∈ acls seat, acl = activeAcl (activeUser o seat)

theorem AclsFollow.update {o o' : Objects} {acls : Identifier -> List (List AclEntry)} (follow : AclsFollow o acls)
    (seat : Identifier) (others : ∀ other, other ≠ seat -> activeUser o' other = activeUser o other) :
    AclsFollow o' (update acls seat
      ((acls seat).map fun acl => devnodeAcl acl (activeUser o seat) (activeUser o' seat))) := by
  intro other acl mem
  by_cases same : other = seat
  · subst same
    rw [update_self] at mem
    obtain ⟨old, listed, rfl⟩ := mem_map.mp mem
    rw [follow other old listed, devnodeAcl_handover]
  · rw [update_of_ne same] at mem
    rw [others other same]
    exact follow other acl mem

section

variable {m : Manager} {id seat : Identifier}

theorem setActive_follow (follow : AclsFollow m.toObjects m.acls) (session : Option Identifier) :
    AclsFollow (m.setSeat seat { m.seat seat with active := session }).toObjects
      (seatApplyAcls (m.setSeat seat { m.seat seat with active := session }) seat (m.seat seat).active).acls := by
  apply follow.update seat
  intro other ne
  simp [activeUser, ne]

theorem seatSetActive_follow (follow : AclsFollow m.toObjects m.acls) (session : Option Identifier) :
    AclsFollow (seatSetActive m seat session).toObjects (seatSetActive m seat session).acls := by
  rw [seatSetActive]
  split_ifs with same
  · exact follow
  · simpa using setActive_follow follow session

end

/-- Holds between any two operations: a session that is not the active one of its seat has been
stopped, unless it is on the VT console. -/
structure Guarded (m : Manager) : Prop where
  linked : Linked m.toObjects
  follow : AclsFollow m.toObjects m.acls
  stopped : ∀ seat, seatIsVtconsole seat = false -> ∀ id ∈ (m.seat seat).sessions,
    (m.seat seat).active = some id ∨ (m.session id).started = false

section

variable {m m' : Manager} {id seat : Identifier}

theorem AclsFollow.of_same {o o' : Objects} {acls : Identifier -> List (List AclEntry)} (follow : AclsFollow o acls)
    (same : SameLinks o o') (active : ∀ seat, (o'.seat seat).active = (o.seat seat).active) :
    AclsFollow o' acls := by
  intro seat acl mem
  have user : activeUser o' seat = activeUser o seat := by
    rw [activeUser, activeUser, active]
    exact congrArg (fun f => (o.seat seat).active.map f) (funext fun id => (same.session id).1)
  rw [user]
  exact follow seat acl mem

structure Quiet (m m' : Manager) : Prop where
  links : SameLinks m.toObjects m'.toObjects
  active : ∀ seat, (m'.seat seat).active = (m.seat seat).active
  started : ∀ id, (m'.session id).started = (m.session id).started
  acls : m'.acls = m.acls

theorem Guarded.of_quiet (guarded : Guarded m) (quiet : Quiet m m')
    (queue : m'.sessionGcQueue ⊆ m.sessions) (queued : m'.sessionGcQueue.Nodup) : Guarded m' where
  linked := by
    apply guarded.linked.of_same quiet.links queue queued
    intro seat id active
    rw [quiet.active] at active
    exact guarded.linked.active seat id active
  follow := by
    rw [quiet.acls]
    exact guarded.follow.of_same quiet.links quiet.active
  stopped := by
    intro seat plain id mem
    rw [quiet.links.seat] at mem
    rw [quiet.active, quiet.started]
    exact guarded.stopped seat plain id mem

theorem Guarded.of_still (guarded : Guarded m) (quiet : Quiet m m') (queue : m'.sessionGcQueue = m.sessionGcQueue) :
    Guarded m' := by
  apply guarded.of_quiet quiet
  · rw [queue]
    exact guarded.linked.queue
  · rw [queue]
    exact guarded.linked.queued

theorem sessionLeaveSeat_follow (follow : AclsFollow m.toObjects m.acls) :
    AclsFollow (sessionLeaveSeat m id).toObjects (sessionLeaveSeat m id).acls := by
  rw [sessionLeaveSeat]
  cases (m.session id).seat with
  | none => exact follow
  | some seat =>
    simp only
    split_ifs
    · exact seatSetActive_follow follow none
    · exact follow

theorem sessionRetire_quiet : Quiet m (sessionRetire m id) := by
  rw [sessionRetire_eq]
  refine ⟨⟨?_, ?_, fun _ => rfl, rfl, rfl⟩, fun _ => rfl, ?_, rfl⟩
  · intro other
    by_cases same : other = id
    · subst same
      simp
    · simp [same]
  · intro uid
    by_cases same : uid = (m.session id).user
    · subst same
      simp [User.without]
    · simp [same]
  · intro other
    by_cases same : other = id
    · subst same
      simp
    · simp [same]

theorem sessionStop_guarded (guarded : Guarded m) (known : id ∈ m.sessions) : Guarded (sessionStop m id) where
  linked := sessionStop_linked guarded.linked known
  follow := by
    have retired : AclsFollow (sessionRetire m id).toObjects (sessionRetire m id).acls := by
      rw [sessionRetire_quiet.acls]
      exact guarded.follow.of_same sessionRetire_quiet.links sessionRetire_quiet.active
    have left := @sessionLeaveSeat_follow _ id retired
    intro seat acl mem
    rw [left seat acl mem]
    simp only [sessionStop, activeUser, Manager.setSession_toObjects]
    congr 2
    funext other
    by_cases same : other = id
    · subst same
      simp
    · simp [same]
  stopped := by
    intro seat plain other mem
    rw [sessionStop_sameLinks.seat] at mem
    by_cases same : other = id
    · subst same
      right
      rw [sessionStop_toObjects]
      simp
    · rw [sessionStop_active]
      have kept : ((sessionStop m id).session other).started = (m.session other).started := by
        rw [sessionStop_toObjects]
        simp [same]
      rw [kept]
      rcases guarded.stopped seat plain other mem with active | stopped
      · left
        rw [if_neg (by rintro ⟨_, own⟩; exact same (some.inj (active.symm.trans own))), active]
      · exact .inr stopped

def Inactive (o : Objects) (id : Identifier) : Prop := ∀ seat, (o.seat seat).active ≠ some id

theorem sessionStop_inactive (linked : Linked m.toObjects) : Inactive (sessionStop m id).toObjects id := by
  intro seat active
  rw [sessionStop_active] at active
  split_ifs at active with own
  exact own ⟨(linked.seat seat id (linked.active seat id active)).2, active⟩

theorem Inactive.sessionStop {other : Identifier} (inactive : Inactive m.toObjects other) :
    Inactive (sessionStop m id).toObjects other := by
  intro seat active
  rw [sessionStop_active] at active
  split_ifs at active
  exact inactive seat active

theorem sessionFree_acls : (sessionFree m id).acls = m.acls := by
  rw [sessionFree]
  cases own : (m.session id).seat with
  | none => simp [own]
  | some seat => simp [own]

section

variable (guarded : Guarded m)
include guarded

theorem sessionFree_guarded (inactive : Inactive m.toObjects id) : Guarded (sessionFree m id) := by
  have dropped := @sessionFree_dropped m id guarded.linked
  have active (seat : Identifier) : ((sessionFree m id).seat seat).active = (m.seat seat).active := by
    rw [dropped.active, if_neg (inactive seat)]
  refine ⟨sessionFree_linked guarded.linked, ?_, ?_⟩
  · intro seat acl mem
    rw [sessionFree_acls] at mem
    rw [activeUser, active, dropped.session]
    exact guarded.follow seat acl mem
  · intro seat plain other mem
    rw [dropped.seat] at mem
    rw [active, dropped.session]
    exact guarded.stopped seat plain other (mem_of_mem_erase mem)

theorem sessionStops_guarded (ids : List Identifier) (known : ids ⊆ m.sessions) :
    Guarded (ids.foldl sessionStop m) ∧ SameLinks m.toObjects (ids.foldl sessionStop m).toObjects ∧
      ∀ id ∈ ids, Inactive (ids.foldl sessionStop m).toObjects id := by
  induction ids generalizing m with
  | nil => exact ⟨guarded, .refl _, by simp⟩
  | cons id rest ih =>
    have stopped := sessionStop_guarded guarded (known mem_cons_self)
    have same := @sessionStop_sameLinks m id
    have others : rest ⊆ (sessionStop m id).sessions := by
      rw [same.sessions]
      exact fun other mem => known (mem_cons_of_mem id mem)
    obtain ⟨kept, links, inactive⟩ := ih stopped others
    refine ⟨kept, same.trans links, ?_⟩
    intro other mem
    rcases mem_cons.mp mem with rfl | mem
    · have left := @sessionStop_inactive m other guarded.linked
      exact List.foldlRecOn (motive := fun m => Inactive m.toObjects other) rest sessionStop left
        fun _ before _ _ => before.sessionStop
    · exact inactive other mem

theorem sessionFrees_guarded (ids : List Identifier) (inactive : ∀ id ∈ ids, Inactive m.toObjects id) :
    Guarded (ids.foldl sessionFree m) ∧ (ids.foldl sessionFree m).session = m.session ∧
      (ids.foldl sessionFree m).users = m.users ∧
        ∀ id, id ∈ (ids.foldl sessionFree m).sessions ↔ id ∈ m.sessions ∧ id ∉ ids := by
  induction ids generalizing m with
  | nil => exact ⟨guarded, rfl, rfl, by simp⟩
  | cons id rest ih =>
    have dropped := @sessionFree_dropped m id guarded.linked
    have freed := sessionFree_guarded guarded (inactive id mem_cons_self)
    have others : ∀ other ∈ rest, Inactive (sessionFree m id).toObjects other := by
      intro other mem seat active
      rw [dropped.active, if_neg (inactive id mem_cons_self seat)] at active
      exact inactive other (mem_cons_of_mem id mem) seat active
    obtain ⟨kept, session, users, left⟩ := ih freed others
    refine ⟨kept, session.trans dropped.session, users.trans dropped.users, ?_⟩
    intro other
    rw [foldl_cons, left, dropped.sessions, guarded.linked.sessions.mem_erase_iff, mem_cons, not_or]
    tauto

theorem seatStop_guarded (seat : Identifier) :
    Guarded (seatStop m seat) ∧ SameLinks m.toObjects (seatStop m seat).toObjects ∧
      ∀ id ∈ (m.seat seat).sessions, Inactive (seatStop m seat).toObjects id := by
  have known : (m.seat seat).sessions ⊆ m.sessions := fun id mem => (guarded.linked.seat seat id mem).1
  obtain ⟨stopped, links, inactive⟩ := sessionStops_guarded guarded _ known
  have quiet : Quiet (seatStopSessions m seat) (seatStop m seat) := by
    rw [seatStop, seatAddToGcQueue_eq]
    refine ⟨⟨fun _ => ⟨rfl, rfl⟩, fun _ => rfl, ?_, rfl, rfl⟩, ?_, fun _ => rfl, rfl⟩
    · intro other
      by_cases same : other = seat
      · subst same
        simp
      · simp [same]
    · intro other
      by_cases same : other = seat
      · subst same
        simp
      · simp [same]
  have queue : (seatStop m seat).sessionGcQueue = (seatStopSessions m seat).sessionGcQueue := by
    rw [seatStop, seatAddToGcQueue_eq]
    rfl
  refine ⟨stopped.of_still quiet queue, links.trans quiet.links, ?_⟩
  intro id mem other active
  rw [quiet.active] at active
  exact inactive id mem other active

theorem userStop_guarded (uid : UInt32) :
    Guarded (userStop m uid) ∧ SameLinks m.toObjects (userStop m uid).toObjects ∧
      ∀ id ∈ (m.user uid).sessions, Inactive (userStop m uid).toObjects id := by
  have known : (m.user uid).sessions ⊆ m.sessions := fun id mem => (guarded.linked.user uid id mem).1
  obtain ⟨stopped, links, inactive⟩ := sessionStops_guarded guarded _ known
  have quiet : Quiet ((m.user uid).sessions.foldl sessionStop m) (userStop m uid) := by
    rw [userStop, userAddToGcQueue_eq]
    refine ⟨⟨fun _ => ⟨rfl, rfl⟩, ?_, fun _ => rfl, rfl, rfl⟩, fun _ => rfl, fun _ => rfl, rfl⟩
    intro other
    by_cases same : other = uid
    · subst same
      simp
    · simp [same]
  have queue : (userStop m uid).sessionGcQueue = ((m.user uid).sessions.foldl sessionStop m).sessionGcQueue := by
    rw [userStop, userAddToGcQueue_eq]
    rfl
  refine ⟨stopped.of_still quiet queue, links.trans quiet.links, ?_⟩
  intro id mem other active
  rw [quiet.active] at active
  exact inactive id mem other active

theorem seatFree_guarded (seat : Identifier)
    (inactive : ∀ id ∈ (m.seat seat).sessions, Inactive m.toObjects id) :
    ∃ freed, seatFree m seat = some freed ∧ Guarded freed := by
  have waiting : Guarded { m with seatGcQueue := m.seatGcQueue.erase seat } :=
    ⟨{ guarded.linked with }, guarded.follow, guarded.stopped⟩
  obtain ⟨kept, session, -, left⟩ := sessionFrees_guarded waiting (m.seat seat).sessions inactive
  rw [seatFree]
  generalize (m.seat seat).sessions.foldl sessionFree _ = emptied at kept session left ⊢
  have vacated : (emptied.seat seat).active = none := by
    apply eq_none_iff_forall_not_mem.mpr
    intro id active
    obtain ⟨known, own⟩ := kept.linked.seat seat id (kept.linked.active seat id active)
    obtain ⟨known, absent⟩ := (left id).mp known
    rw [session] at own
    exact absent (guarded.linked.seatLists id known seat own)
  refine ⟨_, if_neg (by simpa using vacated),
    kept.of_still ⟨⟨fun _ => ⟨rfl, rfl⟩, fun _ => rfl, ?_, rfl, rfl⟩, ?_, fun _ => rfl, rfl⟩ rfl⟩
  · intro other
    by_cases same : other = seat
    · subst same
      simp
    · simp [same]
  · intro other
    by_cases same : other = seat
    · subst same
      simp
    · simp [same]

theorem userFree_guarded (uid : UInt32)
    (inactive : ∀ id ∈ (m.user uid).sessions, Inactive m.toObjects id) : Guarded (userFree m uid) := by
  have waiting : Guarded { m with userGcQueue := m.userGcQueue.erase uid } :=
    ⟨{ guarded.linked with }, guarded.follow, guarded.stopped⟩
  obtain ⟨kept, session, users, left⟩ := sessionFrees_guarded waiting (m.user uid).sessions inactive
  rw [userFree]
  simp only
  generalize (m.user uid).sessions.foldl sessionFree _ = emptied at kept session users left ⊢
  have others : ∀ id ∈ emptied.sessions, (emptied.session id).user ∈ emptied.users.erase uid := by
    intro id mem
    obtain ⟨known, absent⟩ := (left id).mp mem
    have ne : (emptied.session id).user ≠ uid := by
      intro same
      rw [session] at same
      exact absent (same ▸ guarded.linked.userLists id known)
    exact (mem_erase_of_ne ne).mpr (kept.linked.users id mem)
  exact ⟨{ kept.linked with users := others }, kept.follow, kept.stopped⟩

end

section

variable (dropNotStarted : Bool) (processes : Processes)

variable (turns : Nat)

section

variable (guarded : Guarded m)
include guarded

theorem gcSeats_guarded : ∃ left, gcSeats dropNotStarted turns m = some left ∧ Guarded left := by
  induction turns generalizing m with
  | zero => exact ⟨m, rfl, guarded⟩
  | succ turns ih =>
    rw [gcSeats]
    cases queue : m.seatGcQueue with
    | nil => exact ⟨m, rfl, guarded⟩
    | cons seat rest =>
      have taken : Guarded { m with seatGcQueue := rest } :=
        ⟨{ guarded.linked with }, guarded.follow, guarded.stopped⟩
      simp only [gcSeat]
      split_ifs
      · exact ih taken
      · obtain ⟨stopped, links, inactive⟩ := seatStop_guarded taken seat
        rw [← links.seat] at inactive
        obtain ⟨freed, result, kept⟩ := seatFree_guarded stopped seat inactive
        rw [result]
        exact ih kept

theorem gcSessions_guarded : Guarded (gcSessions dropNotStarted processes turns m) := by
  induction turns generalizing m with
  | zero => exact guarded
  | succ turns ih =>
    rw [gcSessions]
    cases queue : m.sessionGcQueue with
    | nil => exact guarded
    | cons id rest =>
      have known : ∀ other ∈ id :: rest, other ∈ m.sessions := by
        rw [← queue]
        exact guarded.linked.queue
      have distinct : (id :: rest).Nodup := by
        rw [← queue]
        exact guarded.linked.queued
      have taken : Guarded { m with sessionGcQueue := rest } :=
        guarded.of_quiet ⟨⟨fun _ => ⟨rfl, rfl⟩, fun _ => rfl, fun _ => rfl, rfl, rfl⟩, fun _ => rfl, fun _ => rfl, rfl⟩
          (fun other mem => known other (mem_cons_of_mem id mem)) distinct.of_cons
      simp only [gcSession]
      split_ifs
      · exact ih taken
      · have stopped := sessionStop_guarded taken (known id mem_cons_self)
        exact ih (sessionFree_guarded stopped (sessionStop_inactive taken.linked))

theorem gcUsers_guarded : Guarded (gcUsers dropNotStarted processes turns m) := by
  induction turns generalizing m with
  | zero => exact guarded
  | succ turns ih =>
    rw [gcUsers]
    cases queue : m.userGcQueue with
    | nil => exact guarded
    | cons uid rest =>
      have taken : Guarded { m with userGcQueue := rest } :=
        ⟨{ guarded.linked with }, guarded.follow, guarded.stopped⟩
      simp only [gcUser]
      split_ifs
      · exact ih taken
      · obtain ⟨stopped, links, inactive⟩ := userStop_guarded taken uid
        rw [← links.user] at inactive
        exact ih (userFree_guarded stopped uid inactive)

theorem managerGc_guarded :
    ∃ left, managerGc dropNotStarted processes m = some left ∧ Guarded left := by
  obtain ⟨left, result, kept⟩ := gcSeats_guarded dropNotStarted m.seatGcQueue.length guarded
  refine ⟨_, by rw [managerGc, result, map_some], ?_⟩
  exact gcUsers_guarded dropNotStarted processes _ (gcSessions_guarded dropNotStarted processes _ kept)

end

end

theorem setActive_sameLinks (session : Option Identifier) :
    SameLinks m.toObjects (m.setSeat seat { m.seat seat with active := session }).toObjects := by
  refine ⟨fun _ => ⟨rfl, rfl⟩, fun _ => rfl, ?_, rfl, rfl⟩
  intro other
  by_cases same : other = seat
  · subst same
    simp
  · simp [same]

theorem setActive_guarded (guarded : Guarded m) {session : Option Identifier}
    (own : ∀ id ∈ session, id ∈ (m.seat seat).sessions) (console : seatIsVtconsole seat = true)
    (follow : AclsFollow m'.toObjects m'.acls)
    (objects : m'.toObjects = (m.setSeat seat { m.seat seat with active := session }).toObjects) : Guarded m' where
  linked := by
    rw [objects]
    apply guarded.linked.of_same (setActive_sameLinks session) guarded.linked.queue guarded.linked.queued
    intro other id active
    by_cases same : other = seat
    · subst same
      simp only [Manager.setSeat_toObjects, update_self] at active
      exact own id active
    · simp only [Manager.setSeat_toObjects, update_of_ne same] at active
      exact guarded.linked.active other id active
  follow := follow
  stopped := by
    intro other plain id mem
    have ne : other ≠ seat := by
      rintro rfl
      rw [plain] at console
      cases console
    simp only [objects, Manager.setSeat_toObjects, update_of_ne ne] at mem ⊢
    exact guarded.stopped other plain id mem

theorem seatActiveVtChanged_guarded (guarded : Guarded m) (seat : Identifier) (vtnr : Int32) :
    Guarded (seatActiveVtChanged m seat vtnr) := by
  rw [seatActiveVtChanged]
  split_ifs with console
  · apply setActive_guarded guarded _ console (seatSetActive_follow guarded.follow _) (seatSetActive_toObjects ..)
    intro id found
    exact mem_of_find?_eq_some found
  · exact guarded

theorem linkToSeat_session_user (other : Identifier) :
    ((linkToSeat m seat id).session other).user = (m.session other).user ∧
      ((linkToSeat m seat id).session other).started = (m.session other).started := by
  by_cases same : other = id
  · subst same
    simp
  · simp [same]

theorem linkToSeat_seat (other : Identifier) : ((linkToSeat m seat id).seat other).sessions =
      (if other = seat then id :: (m.seat seat).sessions else (m.seat other).sessions) ∧
    ((linkToSeat m seat id).seat other).active = (m.seat other).active := by
  by_cases same : other = seat
  · subst same
    simp [linkToSeat]
  · simp [linkToSeat, same]

theorem linkToSeat_follow (follow : AclsFollow m.toObjects m.acls) :
    AclsFollow (linkToSeat m seat id).toObjects (linkToSeat m seat id).acls := by
  intro other acl mem
  rw [activeUser, (linkToSeat_seat other).2, funext fun other => (linkToSeat_session_user other).1]
  exact follow other acl mem

theorem seatAttachSession_guarded (guarded : Guarded m) (known : id ∈ m.sessions)
    (unseated : (m.session id).seat = none) (vacant : Vacant m seat) :
    ∃ attached, seatAttachSession m seat id = some (attached, true) ∧ Guarded attached ∧
      SameLinks (linkToSeat m seat id).toObjects attached.toObjects ∧
        (seatIsVtconsole seat = false -> (attached.seat seat).active = some id) := by
  have linked := linkToSeat_linked guarded.linked known unseated vacant
  have follow := @linkToSeat_follow m id seat guarded.follow
  rw [seatAttachSession, if_neg (by simpa using unseated)]
  cases console : seatIsVtconsole seat with
  | true =>
    refine ⟨_, by rw [if_neg (by simp), if_pos rfl], ⟨linked, follow, ?_⟩, .refl _, by simp⟩
    intro other plain session mem
    have ne : other ≠ seat := by
      rintro rfl
      rw [plain] at console
      cases console
    rw [(linkToSeat_seat other).1, if_neg ne] at mem
    rw [(linkToSeat_seat other).2, (linkToSeat_session_user session).2]
    exact guarded.stopped other plain session mem
  | false =>
    obtain ⟨empty, inactive⟩ : (m.seat seat).sessions = [] ∧ (m.seat seat).active = none := by
      simpa [Vacant, console] using vacant
    have same : SameLinks (linkToSeat m seat id).toObjects
        (seatSetActive (linkToSeat m seat id) seat (some id)).toObjects := by
      rw [seatSetActive_toObjects]
      exact setActive_sameLinks (some id)
    have active (other : Identifier) :
        ((seatSetActive (linkToSeat m seat id) seat (some id)).seat other).active =
          if other = seat then some id else (m.seat other).active := by
      rw [seatSetActive_toObjects]
      by_cases same : other = seat
      · subst same
        simp
      · simp [same, (linkToSeat_seat other).2]
    refine ⟨_, by rw [if_neg (by simp [empty]), if_neg (by simp), if_neg (by simpa using inactive)],
      ⟨?_, seatSetActive_follow follow _, ?_⟩, same, fun _ => by rw [active, if_pos rfl]⟩
    · apply linked.of_same same
      · rw [seatSetActive_toObjects]
        exact linked.queue
      · rw [seatSetActive_toObjects]
        exact linked.queued
      · intro other session own
        rw [active] at own
        rw [(linkToSeat_seat other).1]
        split_ifs at own ⊢
        · cases own
          exact mem_cons_self
        · exact guarded.linked.active other session own
    · intro other plain session mem
      rw [same.seat, (linkToSeat_seat other).1] at mem
      rw [active]
      split_ifs at mem ⊢
      · left
        rw [empty, mem_singleton] at mem
        rw [mem]
      · rw [seatSetActive_toObjects, (linkToSeat_session_user session).2]
        exact guarded.stopped other plain session mem

theorem Quiet.of_objects (objects : m'.toObjects = m.toObjects) (acls : m'.acls = m.acls) : Quiet m m' := by
  refine ⟨?_, ?_, ?_, acls⟩
  · rw [objects]
    exact .refl _
  · simp [objects]
  · simp [objects]

theorem Quiet.trans {next : Manager} (quiet : Quiet m m') (later : Quiet m' next) : Quiet m next where
  links := quiet.links.trans later.links
  active := fun seat => (later.active seat).trans (quiet.active seat)
  started := fun id => (later.started id).trans (quiet.started id)
  acls := later.acls.trans quiet.acls

theorem sessionSave_quiet (id : Identifier) : Quiet m (sessionSave m id) :=
  .of_objects (sessionSave_frame m id).1 (sessionSave_frame m id).2.1

theorem userSave_quiet (uid : UInt32) : Quiet m (userSave m uid) :=
  .of_objects (userSave_frame m uid).1 (userSave_frame m uid).2.1

theorem seatSave_quiet (seat : Identifier) : Quiet m (seatSave m seat) :=
  .of_objects (seatSave_frame m seat).1 (seatSave_frame m seat).2.1

theorem setUser_quiet {uid : UInt32} {u : User} (sessions : u.sessions = (m.user uid).sessions) :
    Quiet m (m.setUser uid u) := by
  refine ⟨⟨fun _ => ⟨rfl, rfl⟩, ?_, fun _ => rfl, rfl, rfl⟩, fun _ => rfl, fun _ => rfl, rfl⟩
  intro other
  by_cases same : other = uid
  · subst same
    simp [sessions]
  · simp [same]

theorem setSession_quiet {s : Session} (links : s.user = (m.session id).user ∧ s.seat = (m.session id).seat)
    (started : s.started = (m.session id).started) : Quiet m (m.setSession id s) := by
  refine ⟨⟨?_, fun _ => rfl, fun _ => rfl, rfl, rfl⟩, fun _ => rfl, ?_, rfl⟩
  · intro other
    by_cases same : other = id
    · subst same
      simp [links]
    · simp [same]
  · intro other
    by_cases same : other = id
    · subst same
      simp [started]
    · simp [same]

theorem userStart_quiet (uid : UInt32) (environment : Environment) :
    Quiet m (userStart m uid environment).1 ∧
      (userStart m uid environment).1.sessionGcQueue = m.sessionGcQueue := by
  rw [userStart_eq]
  split_ifs
  · exact ⟨.of_objects rfl rfl, rfl⟩
  · exact ⟨setUser_quiet rfl, rfl⟩
  · exact ⟨setUser_quiet rfl, rfl⟩
  · refine ⟨(setUser_quiet ?_).trans (userSave_quiet uid), by simp⟩
    rfl

theorem linkX11Socket_quiet (environment : Environment) :
    Quiet m (linkX11Socket m id environment) ∧ (linkX11Socket m id environment).sessionGcQueue = m.sessionGcQueue := by
  rw [linkX11Socket]
  simp only
  split_ifs
  · exact ⟨setUser_quiet rfl, rfl⟩
  · exact ⟨.of_objects rfl rfl, rfl⟩

theorem Guarded.start (guarded : Guarded m)
    (active : ∀ seat ∈ (m.session id).seat, seatIsVtconsole seat = false -> (m.seat seat).active = some id) :
    Guarded (m.setSession id { m.session id with started := true }) := by
  have same : SameLinks m.toObjects (m.setSession id { m.session id with started := true }).toObjects := by
    refine ⟨?_, fun _ => rfl, fun _ => rfl, rfl, rfl⟩
    intro other
    by_cases same : other = id
    · subst same
      simp
    · simp [same]
  refine ⟨guarded.linked.of_same same guarded.linked.queue guarded.linked.queued guarded.linked.active,
    guarded.follow.of_same same fun _ => rfl, ?_⟩
  intro seat plain other mem
  by_cases same : other = id
  · subst same
    exact .inl (active seat (guarded.linked.seat seat other mem).2 plain)
  · simp only [Manager.setSession_toObjects, update_of_ne same]
    exact guarded.stopped seat plain other mem

theorem sessionReadActiveVt_guarded (guarded : Guarded m) (activeVt : Option Int32) :
    Guarded (sessionReadActiveVt m id activeVt) := by
  rw [sessionReadActiveVt]
  cases (m.session id).seat with
  | none => exact guarded
  | some seat =>
    cases activeVt with
    | none => exact guarded
    | some vtnr => exact seatActiveVtChanged_guarded guarded seat vtnr

theorem seatActiveVtChanged_others (vtnr : Int32) : (seatActiveVtChanged m seat vtnr).session = m.session ∧
    ∀ other, seatIsVtconsole other = false -> (seatActiveVtChanged m seat vtnr).seat other = m.seat other := by
  rw [seatActiveVtChanged]
  split_ifs with console
  · rw [seatSetActive_toObjects]
    refine ⟨rfl, ?_⟩
    intro other plain
    have ne : other ≠ seat := by
      rintro rfl
      rw [plain] at console
      cases console
    simp [ne]
  · exact ⟨rfl, fun _ _ => rfl⟩

theorem sessionReadActiveVt_others (activeVt : Option Int32) :
    (sessionReadActiveVt m id activeVt).session = m.session ∧
      ∀ other, seatIsVtconsole other = false -> (sessionReadActiveVt m id activeVt).seat other = m.seat other := by
  rw [sessionReadActiveVt]
  cases (m.session id).seat with
  | none => exact ⟨rfl, fun _ _ => rfl⟩
  | some seat =>
    cases activeVt with
    | none => exact ⟨rfl, fun _ _ => rfl⟩
    | some vtnr => exact seatActiveVtChanged_others vtnr

theorem saveWithSeat_quiet : Quiet m (saveWithSeat m id) ∧ (saveWithSeat m id).sessionGcQueue = m.sessionGcQueue := by
  have saved : Quiet m (userSave (sessionSave m id) (m.session id).user) :=
    (sessionSave_quiet id).trans (userSave_quiet _)
  rw [saveWithSeat]
  cases (m.session id).seat with
  | none => exact ⟨saved, by simp⟩
  | some seat => exact ⟨saved.trans (seatSave_quiet seat), by simp⟩

theorem linkX11Socket_others (environment : Environment) :
    (linkX11Socket m id environment).session = m.session ∧ (linkX11Socket m id environment).seat = m.seat := by
  rw [linkX11Socket]
  simp only
  split_ifs
  · exact ⟨rfl, rfl⟩
  · exact ⟨rfl, rfl⟩

theorem sessionLaunch_guarded (guarded : Guarded m) (environment : Environment)
    (active : ∀ seat ∈ (m.session id).seat, seatIsVtconsole seat = false -> (m.seat seat).active = some id) :
    Guarded (sessionLaunch m id environment) := by
  obtain ⟨linked, queue⟩ := @linkX11Socket_quiet m id environment
  obtain ⟨session, seats⟩ := @linkX11Socket_others m id environment
  have ready := guarded.of_still linked queue
  generalize linkedEqn : linkX11Socket m id environment = shown at session seats ready
  obtain ⟨sameSession, others⟩ := @sessionReadActiveVt_others shown id environment.activeVt
  have read := @sessionReadActiveVt_guarded shown id ready environment.activeVt
  generalize readEqn : sessionReadActiveVt shown id environment.activeVt = current at sameSession others read
  have launched : Guarded (current.setSession id { current.session id with started := true }) := by
    apply read.start
    intro seat own plain
    rw [sameSession, session] at own
    rw [others seat plain, seats]
    exact active seat own plain
  have saved := @saveWithSeat_quiet (current.setSession id { current.session id with started := true }) id
  rw [sessionLaunch, linkedEqn, readEqn]
  exact launched.of_still saved.1 saved.2

theorem sessionStart_guarded (guarded : Guarded m) (environment : Environment)
    (active : ∀ seat ∈ (m.session id).seat, seatIsVtconsole seat = false -> (m.seat seat).active = some id) :
    Guarded (sessionStart m id environment).1 ∧
      ((sessionStart m id environment).2 = false -> (sessionStart m id environment).1.sessions = m.sessions) := by
  rw [sessionStart]
  by_cases started : (m.session id).started = true
  · rw [if_pos started]
    exact ⟨guarded, fun _ => rfl⟩
  rw [if_neg started]
  obtain ⟨quiet, queue⟩ := @userStart_quiet m (m.session id).user environment
  have seats : (userStart m (m.session id).user environment).1.seat = m.seat := by
    rw [userStart_eq]
    split_ifs
    · rfl
    · rfl
    · rfl
    · simp
  generalize userStart m (m.session id).user environment = outcome at quiet queue seats ⊢
  obtain ⟨begun, ready⟩ := outcome
  have before := guarded.of_still quiet queue
  cases ready with
  | false => exact ⟨before, fun _ => quiet.links.sessions⟩
  | true =>
    have placed : Quiet begun
        (begun.setSession id { begun.session id with cgroupPath := environment.sessionCgroup }) := by
      apply setSession_quiet
      · exact ⟨rfl, rfl⟩
      · rfl
    have grouped := before.of_still placed rfl
    simp only [Bool.true_eq_false, if_false]
    split_ifs
    · exact ⟨grouped, fun _ => quiet.links.sessions⟩
    · refine ⟨sessionLaunch_guarded grouped environment ?_, fun failed => by cases failed⟩
      intro seat own plain
      rw [(placed.links.session id).2, (quiet.links.session id).2] at own
      rw [placed.active, seats]
      exact active seat own plain

theorem seatAttachSession_taken (guarded : Guarded m) (unseated : (m.session id).seat = none)
    (taken : ¬Vacant m seat) : seatAttachSession m seat id = some (m, false) := by
  obtain ⟨plain, active⟩ : seatIsVtconsole seat = false ∧
      ((m.seat seat).sessions = [] -> (m.seat seat).active ≠ none) := by
    simpa [Vacant] using taken
  rw [seatAttachSession, if_neg (by simpa using unseated), if_pos]
  refine ⟨plain, ?_⟩
  intro empty
  obtain ⟨session, own⟩ := ne_none_iff_exists'.mp (active empty)
  have mem := guarded.linked.active seat session own
  rw [empty] at mem
  cases mem

variable {r : Request}

section

variable (guarded : Guarded m)
include guarded

theorem attachToSeat_guarded (known : r.id ∈ m.sessions) (unseated : (m.session r.id).seat = none) :
    ∃ attached done, attachToSeat m r = some (attached, done) ∧ Guarded attached ∧ attached.sessions = m.sessions ∧
      (done = true -> ∀ seat ∈ (attached.session r.id).seat, seatIsVtconsole seat = false ->
        (attached.seat seat).active = some r.id) := by
  rw [attachToSeat]
  cases place : r.seat with
  | none =>
    refine ⟨m, true, rfl, guarded, rfl, fun _ seat own => ?_⟩
    rw [unseated] at own
    cases own
  | some seat =>
    by_cases vacant : Vacant m seat
    · obtain ⟨attached, result, kept, links, active⟩ := seatAttachSession_guarded guarded known unseated vacant
      refine ⟨attached, true, result, kept, links.sessions, fun _ other own plain => ?_⟩
      rw [(links.session r.id).2, linkToSeat_session, update_self] at own
      cases own
      exact active plain
    · exact ⟨m, false, seatAttachSession_taken guarded unseated vacant, guarded, rfl, by simp⟩

theorem createSessionFails_guarded (known : r.id ∈ m.sessions) : Guarded (createSessionFails m r) := by
  rw [createSessionFails, userAddToGcQueue_eq, sessionAddToGcQueue_eq]
  obtain ⟨queue, queued⟩ := guarded.linked.insert_queue known
  exact ⟨{ guarded.linked with queue := queue, queued := queued }, guarded.follow, guarded.stopped⟩

theorem sessionNew_guarded {uid : UInt32} (known : uid ∈ m.users) (fresh : id ∉ m.sessions) :
    Guarded (sessionNew m uid id) := by
  have old {seat other : Identifier} (mem : other ∈ (m.seat seat).sessions) :
      (sessionNew m uid id).session other = m.session other := by
    have ne : other ≠ id := by
      rintro rfl
      exact fresh (guarded.linked.seat seat other mem).1
    simp [sessionNew, ne]
  refine ⟨sessionNew_linked guarded.linked known fresh, ?_, ?_⟩
  · intro seat acl mem
    rw [guarded.follow seat acl mem, activeUser, activeUser]
    cases active : (m.seat seat).active with
    | none => simp [sessionNew, active]
    | some other =>
      have same := old (guarded.linked.active seat other active)
      rw [show ((sessionNew m uid id).seat seat).active = some other from active]
      simp [same]
  · intro seat plain other mem
    rw [old mem]
    exact guarded.stopped seat plain other mem

theorem attachAndStart_guarded (known : r.id ∈ m.sessions) (unseated : (m.session r.id).seat = none)
    (environment : Environment) :
    ∃ created, attachAndStart m r environment = some created ∧ Guarded created := by
  obtain ⟨attached, done, result, kept, sessions, active⟩ := attachToSeat_guarded guarded known unseated
  rw [attachAndStart, result]
  cases done with
  | false => exact ⟨_, rfl, createSessionFails_guarded kept (sessions ▸ known)⟩
  | true =>
    obtain ⟨launched, left⟩ := sessionStart_guarded kept environment (active rfl)
    simp only
    generalize sessionStart attached r.id environment = outcome at launched left ⊢
    obtain ⟨begun, started⟩ := outcome
    cases started with
    | true => exact ⟨_, rfl, launched⟩
    | false =>
      have mem : r.id ∈ begun.sessions := by
        rw [show begun.sessions = _ from left rfl, sessions]
        exact known
      exact ⟨_, rfl, createSessionFails_guarded launched mem⟩

theorem managerAddUser_guarded (uid : UInt32) (name : LineText) :
    Guarded (managerAddUser m uid name) := by
  refine ⟨(managerAddUser_linked guarded.linked uid name).1, ?_, ?_⟩
  · rw [managerAddUser]
    split_ifs
    · exact guarded.follow
    · exact guarded.follow
  · rw [managerAddUser]
    split_ifs
    · exact guarded.stopped
    · exact guarded.stopped

theorem createSession_guarded (r : Request) (environment : Environment) :
    ∃ created, createSession m r environment = some created ∧ Guarded created := by
  rw [createSession]
  by_cases invalid : r.valid m = false
  · rw [if_pos invalid]
    exact ⟨m, rfl, guarded⟩
  rw [if_neg invalid]
  have known := (managerAddUser_linked guarded.linked r.uid r.userName).2
  have added := managerAddUser_guarded guarded r.uid r.userName
  generalize managerAddUser m r.uid r.userName = m at known added ⊢
  by_cases old : r.id ∈ m.sessions
  · refine ⟨_, if_pos old, ?_⟩
    split_ifs
    · exact createSessionFails_guarded added old
    · exact added
  simp only [if_neg old]
  have created := sessionNew_guarded added known old
  have filled := created.of_still (@setSession_quiet _ r.id { r.session with fifoPath := environment.fifo }
    (by simp [sessionNew, Session.zero, Request.session]) (by simp [sessionNew, Session.zero, Request.session])) rfl
  split_ifs
  · exact ⟨_, rfl, createSessionFails_guarded filled mem_cons_self⟩
  · exact attachAndStart_guarded filled mem_cons_self (by simp [Request.session, Session.zero]) environment

theorem sessionActivate_guarded {next : Manager} (known : id ∈ m.sessions) {chvt : Bool}
    (result : sessionActivate m id chvt = some next) : Guarded next := by
  rw [sessionActivate] at result
  by_cases unknown : (m.session id).vtnr < 0
  · rw [if_pos unknown] at result
    exact some.inj result ▸ guarded
  rw [if_neg unknown] at result
  cases own : (m.session id).seat with
  | none =>
    simp only [own, some.injEq] at result
    exact result ▸ guarded
  | some seat =>
    simp only [own] at result
    split_ifs at result with active console
    · exact some.inj result ▸ guarded
    · exact some.inj result ▸ guarded
    · rw [← some.inj result]
      apply setActive_guarded guarded _ (by simpa using console) (setActive_follow guarded.follow (some id)) rfl
      intro session same
      cases same
      exact guarded.linked.seatLists id known seat own

end

end

end Systemd.Logins

namespace Systemd.Logins

/-- What happens to logind. An operation on an object that it does not know leaves all as it is. -/
inductive Operation where
  | create (request : Request) (environment : Environment)
  | attach (seat id : Identifier)
  | activate (id : Identifier) (chvt : Bool)
  | vtChanged (seat : Identifier) (vtnr : Int32)
  | stopSession (id : Identifier)
  | stopSeat (seat : Identifier)
  | stopUser (uid : UInt32)
  | gc (dropNotStarted : Bool) (processes : Processes)

def Operation.take : Operation -> Manager -> Option Manager
  | .create request environment, m => createSession m request environment
  | .attach seat id, m =>
    if seat ∈ m.seats ∧ id ∈ m.sessions ∧ (m.session id).seat = none then
      (seatAttachSession m seat id).map Prod.fst
    else
      some m
  | .activate id chvt, m => if id ∈ m.sessions then sessionActivate m id chvt else some m
  | .vtChanged seat vtnr, m => some (if seat ∈ m.seats then seatActiveVtChanged m seat vtnr else m)
  | .stopSession id, m => some (if id ∈ m.sessions then sessionStop m id else m)
  | .stopSeat seat, m => some (if seat ∈ m.seats then seatStop m seat else m)
  | .stopUser uid, m => some (if uid ∈ m.users then userStop m uid else m)
  | .gc dropNotStarted processes, m => managerGc dropNotStarted processes m

end Systemd.Logins
