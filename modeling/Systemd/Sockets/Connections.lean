import Systemd.Sockets.Listens

set_option autoImplicit false

namespace Systemd.Sockets

open List

open Serialization (ItemKey printNat safeAtoi)
open Services (ServiceState serviceKey)

/-- A service as far as connections matter: the descriptor it was given, and whether it still knows that
the socket accepted it. -/
structure Instance where
  loaded : Bool
  state : ServiceState := .dead
  socketFd : Option Nat := none
  acceptSocket : Bool := false

def Instance.holds (service : Instance) : Bool := service.socketFd.isSome

structure Connections where
  socket : Socket
  services : List Instance

-- The states in which service_set_state leaves the connection alone, with a job installed or not.
def keepsConnection (state : ServiceState) (job : Bool) : Bool :=
  match state with
  | .startPre | .start | .startPost | .running | .reload | .stop | .stopSigterm | .stopSigkill
  | .stopPost | .finalSigterm | .finalSigkill => true
  | .dead => job
  | .exited | .failed | .autoRestart => false

-- none means that the assertion fails.
def socketConnectionUnref (s : Socket) : Option Socket :=
  if s.nConnections = 0 then none else some { s with nConnections := s.nConnections - 1 }

def serviceConnectionUnref (service : Instance) (s : Socket) : Option Socket :=
  if service.acceptSocket then socketConnectionUnref s else some s

def serviceSetSocketFd (services : List Instance) (index : Nat) : Bool :=
  services[index]?.any fun service => service.loaded && !service.holds && service.state = .dead

def giveConnection (fd index : Nat) (services : List Instance) : List Instance :=
  match services[index]? with
  | some service => services.set index { service with socketFd := some fd, acceptSocket := true }
  | none => services

section

variable (cfg : Config)

-- The service at `chosen` is the one that a connection would be given to.
def socketEvent (ans : Answers) (event : Event) (chosen fd : Nat) (m : Connections) :
    Option Connections :=
  (dispatch cfg { ans with setSocketFd := serviceSetSocketFd m.services chosen } event
    m.socket).map fun run =>
    ⟨run.socket, if run.connected then giveConnection fd chosen m.services else m.services⟩

def serviceSetState (index : Nat) (state : ServiceState) (job : Bool) (m : Connections) :
    Option Connections :=
  match m.services[index]? with
  | none => some m
  | some service =>
    if keepsConnection state job then
      some { m with services := m.services.set index { service with state := state } }
    else
      (serviceConnectionUnref service m.socket).map fun s =>
        ⟨s, m.services.set index
          { service with state := state, socketFd := none, acceptSocket := false }⟩

def serviceDone (index : Nat) (m : Connections) : Option Connections :=
  match m.services[index]? with
  | none => some m
  | some service =>
    (serviceConnectionUnref service m.socket).map fun s => ⟨s, m.services.eraseIdx index⟩

-- The items of service_serialize that concern the connection. none if there is no copy.
def serializeServices (duplicates : Duplicates) :
    List Instance -> Finset Nat -> Option (List (List (ItemKey × CString)) × Finset Nat)
  | [], fds => some ([], fds)
  | service :: rest, fds =>
    match service.socketFd with
    | none => (serializeServices duplicates rest fds).map fun (items, fds) => ([] :: items, fds)
    | some fd =>
      match duplicates.copy fds fd with
      | none => none
      | some copy =>
        (serializeServices duplicates rest (insert copy fds)).map fun (items, fds) =>
          ([(.socketFd, printNat copy)] :: items, fds)

def deserializeServiceItem (key value : CString) (service : Instance) (fds : Finset Nat) :
    Instance × Finset Nat :=
  match serviceKey key, safeAtoi value with
  | some .socketFd, some fd =>
    if fd < 0 ∨ fd.toInt.toNat ∉ fds then (service, fds)
    else ({ service with socketFd := some fd.toInt.toNat }, fds.erase fd.toInt.toNat)
  | _, _ => (service, fds)

-- service_coldplug sets the state again, unless it is SERVICE_DEAD. There is no job yet.
def coldplugConnection (state : ServiceState) (service : Instance) : Instance :=
  if keepsConnection state (decide (state = .dead)) then { service with state := state }
  else { service with state := state, socketFd := none, acceptSocket := false }

def restoreService (service : Instance) (items : List (ItemKey × CString)) (fds : Finset Nat) :
    Instance × Finset Nat :=
  let (restored, fds) := items.foldl (fun (restored, fds) item =>
    deserializeServiceItem item.1.text item.2 restored fds) ({ loaded := service.loaded }, fds)
  (coldplugConnection service.state restored, fds)

def restoreServices : List Instance -> List (List (ItemKey × CString)) -> Finset Nat ->
    List Instance × Finset Nat
  | service :: rest, items :: others, fds =>
    let (restored, fds) := restoreService service items fds
    let (services, fds) := restoreServices rest others fds
    (restored :: services, fds)
  | _, _, fds => ([], fds)

def daemonReload (listens : List Listen) (network : Network) (duplicates : Duplicates)
    (ans : ColdplugAnswers) (m : Connections) : Option Connections :=
  match serializeServices duplicates m.services ∅ with
  | none => some m
  | some (serviceItems, fds) =>
    match socketSerialize network duplicates m.socket fds with
    | .ok (items, fds) =>
      let (services, fds) := restoreServices m.services serviceItems fds
      some ⟨(socketColdplug ans
        (socketDeserialize cfg network items ⟨loadedSocket listens, fds⟩).socket).1, services⟩
    | .error .failed => some m
    | .error .aborted => none

end

inductive Change where
  | socket (ans : Answers) (event : Event) (chosen fd : Nat)
  | load (loaded : Bool)
  | serviceState (index : Nat) (state : ServiceState) (job : Bool)
  | free (index : Nat)
  | reload (listens : List Listen) (network : Network) (duplicates : Duplicates)
      (ans : ColdplugAnswers)

def apply (cfg : Config) : Change -> Connections -> Option Connections
  | .socket ans event chosen fd, m => socketEvent cfg ans event chosen fd m
  | .load loaded, m => some { m with services := m.services ++ [{ loaded := loaded }] }
  | .serviceState index state job, m => serviceSetState index state job m
  | .free index, m => serviceDone index m
  | .reload listens network duplicates ans, m => daemonReload cfg listens network duplicates ans m

def NoneHeld (change : Change) (m : Connections) : Prop :=
  ∀ listens network duplicates ans, change = .reload listens network duplicates ans ->
    ∀ service ∈ m.services, service.holds = false

structure Counted (cfg : Config) (m : Connections) : Prop where
  linked : ∀ service ∈ m.services, service.acceptSocket = service.holds
  counted : m.socket.nConnections = m.services.countP Instance.holds
  bounded : m.socket.nConnections ≤ cfg.maxConnections

section

variable {cfg : Config} {ans : Answers}

variable (state : SocketState) (success : Bool) (run : Run)

theorem nConnections_setState (s : Socket) : (s.setState state).nConnections = s.nConnections := by
  unfold Socket.setState Socket.keepFds Socket.keepWatches Socket.keepControl
  cases state <;> rfl

theorem passes_connections (number : Nat) (connected : Bool) :
    Passes cfg ans
      (fun run => run.socket.nConnections = number ∧ run.connected = connected)
      (fun run => run.socket.nConnections = number ∧ run.connected = connected) where
  flags := fun _ _ _ held => held
  prepared := fun _ _ held => held
  dead := fun run state _ held => ⟨(nConnections_setState state run.socket).trans held.1, held.2⟩
  stopping := fun _ state _ _ _ held => ⟨(nConnections_setState state _).trans held.1, held.2⟩
  final := fun run _ held => ⟨(nConnections_setState .finalSigterm run.socket).trans held.1, held.2⟩

def Quiet (before after : Run) : Prop :=
  after.socket.nConnections = before.socket.nConnections ∧ after.connected = before.connected

theorem quiet_setState : Quiet run (socketSetState state run) :=
  ⟨nConnections_setState state run.socket, rfl⟩

theorem quiet_enterStopPre : Quiet run (socketEnterStopPre cfg ans success run) :=
  (passes_connections run.socket.nConnections run.connected).enterStopPre success ⟨rfl, rfl⟩

theorem quiet_enterStopPost : Quiet run (socketEnterStopPost cfg ans success run) :=
  (passes_connections run.socket.nConnections run.connected).enterStopPost success ⟨rfl, rfl⟩

theorem quiet_enterDead : Quiet run (socketEnterDead success run) :=
  quiet_setState _ (run.update (.withResult success))

theorem quiet_enterSignal : Quiet run (socketEnterSignal cfg ans state success run) := by
  unfold socketEnterSignal
  split
  · refine enterSignalThen_cases (B := Quiet run) (fun _ => ?_) fun success' => ?_
    · exact quiet_setState state ((run.update (.withResult success)).update .arm)
    · exact quiet_enterStopPost success' (run.update (.withResult success))
  · refine enterSignalThen_cases (B := Quiet run) (fun _ => ?_) fun success' => ?_
    · exact quiet_setState state ((run.update (.withResult success)).update .arm)
    · exact quiet_enterDead success' (run.update (.withResult success))

theorem quiet_enterListening : Quiet run (socketEnterListening cfg ans run) := by
  unfold socketEnterListening
  split
  · rename_i ports _
    exact quiet_setState .listening (run.update fun s => { s with ports := ports })
  · rename_i ports _
    exact quiet_enterStopPre false (run.update fun s => { s with ports := ports })

theorem quiet_enterStartPost : Quiet run (socketEnterStartPost cfg ans run) := by
  unfold socketEnterStartPost
  split
  · refine enterControl_cases (B := Quiet run) (fun pid _ => ?_) ?_ ?_
    · exact ⟨nConnections_setState .startPost _, rfl⟩
    · exact quiet_enterListening (run.update _)
    · exact quiet_enterStopPre false ((run.update _).update .disarm)
  · rename_i ports _
    exact quiet_enterStopPre false (run.update fun s => { s with ports := ports })

theorem quiet_enterStartPre : Quiet run (socketEnterStartPre cfg ans run) := by
  refine enterControl_cases (B := Quiet run) (fun pid _ => ?_) ?_ ?_
  · exact ⟨nConnections_setState .startPre _, rfl⟩
  · exact quiet_enterStartPost (run.update _)
  · exact quiet_enterDead false ((run.update _).update .disarm)

/-- Either nothing happens to the number of connections, or there is one more, which was allowed. -/
def Counts (cfg : Config) (ans : Answers) (s : Socket) (run : Run) : Prop :=
  (run.socket.nConnections = s.nConnections ∧ run.connected = false) ∨
  (run.socket.nConnections = s.nConnections + 1 ∧ run.connected = true ∧
    s.nConnections < cfg.maxConnections ∧ ans.setSocketFd = true)

variable {s : Socket} {run : Run} {index : Nat} {m' m : Connections} {duplicates : Duplicates}
  {listens : List Listen}

theorem counts_quiet {before : Run} (same : before.socket.nConnections = s.nConnections)
    (absent : before.connected = false) (quiet : Quiet before run) : Counts cfg ans s run :=
  .inl ⟨quiet.1.trans same, quiet.2.trans absent⟩

theorem counts_enterRunning (connection : Bool) (s : Socket) :
    Counts cfg ans s (socketEnterRunning cfg ans connection ⟨s, false⟩) := by
  have refused : ∀ t : Socket, t.nConnections = s.nConnections ->
      Counts cfg ans s (socketEnterStopPre cfg ans false ⟨t, false⟩) :=
    fun t same => counts_quiet same rfl (quiet_enterStopPre false ⟨t, false⟩)
  have accepted : s.nConnections < cfg.maxConnections -> ans.setSocketFd = true ->
      Counts cfg ans s (socketEnterStopPre cfg ans false
        ⟨{ s with nAccepted := s.nAccepted + 1, nConnections := s.nConnections + 1 }, true⟩) := by
    intro room given
    obtain ⟨same, connected⟩ : Quiet _ _ := quiet_enterStopPre false
      ⟨{ s with nAccepted := s.nAccepted + 1, nConnections := s.nConnections + 1 }, true⟩
    exact .inr ⟨same, connected, room, given⟩
  unfold socketEnterRunning
  dsimp only
  split
  · split
    · exact .inl ⟨rfl, rfl⟩
    · split
      · exact .inl ⟨rfl, rfl⟩
      · exact refused _ rfl
  · split
    · split
      · exact .inl ⟨nConnections_setState .running s, rfl⟩
      · exact refused _ rfl
    · split
      · exact .inl ⟨rfl, rfl⟩
      · rename_i room
        have room : s.nConnections < cfg.maxConnections := not_le.mp room
        split
        · exact refused _ rfl
        · split
          · rename_i given
            split
            · exact .inr ⟨rfl, rfl, room, given⟩
            · exact accepted room given
          · exact refused _ rfl

theorem counts_ended {before : Run} (like : Like s before.socket) (absent : before.connected = false)
    (ended : Ended cfg ans before run) : Counts cfg ans s run := by
  apply counts_quiet like.nConnections absent
  cases ended with
  | startPost here => exact quiet_enterStartPost before
  | listening here => exact quiet_enterListening before
  | stopPre => exact quiet_enterStopPre false before
  | stopPost success => exact quiet_enterStopPost success before
  | final => exact quiet_enterSignal .finalSigterm false before
  | dead success => exact quiet_enterDead success before

theorem counts_dispatch {event : Event} (handled : dispatch cfg ans event s = some run) :
    Counts cfg ans s run := by
  have down : ∀ before run : Run, before.socket.nConnections = s.nConnections ->
      before.connected = false -> Quiet before run -> Counts cfg ans s run :=
    fun _ _ same absent quiet => counts_quiet same absent quiet
  cases handled_dispatch handled with
  | same => exact .inl ⟨rfl, rfl⟩
  | start asleep => exact down _ _ rfl rfl (quiet_enterStartPre ⟨{ s with failure := false }, false⟩)
  | stopStarting starting => exact down _ _ rfl rfl (quiet_enterSignal .stopPreSigterm true ⟨s, false⟩)
  | stop up => exact down _ _ rfl rfl (quiet_enterStopPre true ⟨s, false⟩)
  | next pid code status run like quiet there => exact .inl ⟨like.nConnections, quiet⟩
  | exited pid code status before run like quiet ended => exact counts_ended like quiet ended
  | timedOut state next => exact down _ _ rfl rfl (quiet_enterSignal state false ⟨s.disarm, false⟩)
  | timerStopPre here => exact down _ _ rfl rfl (quiet_enterStopPre false ⟨s.disarm, false⟩)
  | timerStopPost here => exact down _ _ rfl rfl (quiet_enterStopPost false ⟨s.disarm, false⟩)
  | timerDead => exact down _ _ rfl rfl (quiet_enterDead false ⟨s.disarm, false⟩)
  | traffic index accepted connection port here found watched taken =>
    exact counts_enterRunning connection s
  | refused index traffic => exact down _ _ rfl rfl (quiet_enterStopPre false ⟨s, false⟩)
  | serviceDead here => exact down _ _ rfl rfl (quiet_enterListening ⟨s, false⟩)
  | reset here => exact .inl ⟨nConnections_setState .dead s, rfl⟩
  | resetFlag => exact .inl ⟨rfl, rfl⟩

theorem located {A : Type} {list : List A} {a : A} (found : list[index]? = some a) :
    ∃ before after, list = before ++ a :: after ∧ before.length = index := by
  obtain ⟨bound, rfl⟩ := List.getElem?_eq_some_iff.mp found
  exact ⟨list.take index, list.drop (index + 1), by simp, by simp; omega⟩

section

variable {s s' : Socket} {before after : List Instance} {service service' : Instance}

section

variable (counted : Counted cfg ⟨s, before ++ service :: after⟩)
include counted

theorem Counted.total :
    s.nConnections = before.countP Instance.holds + service.holds.toNat + after.countP Instance.holds := by
  have total := counted.counted
  simp only [countP_append, countP_cons] at total
  cases holds : service.holds <;> simp [holds] at total ⊢ <;> omega

theorem Counted.replace (linked : service'.acceptSocket = service'.holds)
    (number : s'.nConnections + service.holds.toNat = s.nConnections + service'.holds.toNat)
    (bounded : s'.nConnections ≤ cfg.maxConnections) :
    Counted cfg ⟨s', before ++ service' :: after⟩ where
  linked := by
    have others := counted.linked
    simp only [forall_mem_append, forall_mem_cons] at others ⊢
    exact ⟨others.1, linked, others.2.2⟩
  counted := by
    have total := counted.total
    simp only [countP_append, countP_cons]
    cases holds : service'.holds <;> simp [holds] at number ⊢ <;> omega
  bounded := bounded

theorem Counted.remove (number : s'.nConnections + service.holds.toNat = s.nConnections) :
    Counted cfg ⟨s', before ++ after⟩ where
  linked := by
    have others := counted.linked
    simp only [forall_mem_append, forall_mem_cons] at others ⊢
    exact ⟨others.1, others.2.2⟩
  counted := by
    have total := counted.total
    simp only [countP_append]
    omega
  bounded := by
    have bounded := counted.bounded
    dsimp only at bounded ⊢
    omega

theorem Counted.unref :
    ∃ s', serviceConnectionUnref service s = some s' ∧
      s'.nConnections + service.holds.toNat = s.nConnections := by
  have total := counted.total
  have linked : service.acceptSocket = service.holds := counted.linked service (by simp)
  unfold serviceConnectionUnref
  rw [linked]
  cases holds : service.holds with
  | false => exact ⟨s, rfl, by simp⟩
  | true =>
    rw [holds, Bool.toNat_true] at total
    rw [if_pos rfl, socketConnectionUnref, if_neg (by omega)]
    exact ⟨_, rfl, by simp; omega⟩

end

end

section

variable (counted : Counted cfg m)
include counted

theorem counted_socketEvent {event : Event} {chosen fd : Nat}
    (taken : socketEvent cfg ans event chosen fd m = some m') : Counted cfg m' := by
  obtain ⟨run, handled, rfl⟩ := Option.map_eq_some_iff.mp taken
  rcases counts_dispatch handled with ⟨same, quiet⟩ | ⟨more, connected, room, given⟩
  · simp only [quiet]
    exact ⟨counted.linked, same.trans counted.counted, same.le.trans counted.bounded⟩
  · obtain ⟨service, found, free⟩ : ∃ service, m.services[chosen]? = some service ∧
        service.holds = false := by
      simp only [serviceSetSocketFd, Option.any_eq_true] at given
      obtain ⟨service, found, fit⟩ := given
      simp only [Bool.and_eq_true, Bool.not_eq_true'] at fit
      exact ⟨service, found, fit.1.2⟩
    simp only [connected, if_true, giveConnection, found]
    obtain ⟨before, after, split, rfl⟩ := located found
    obtain ⟨s, services⟩ := m
    subst split
    simp only [set_append_right _ _ le_rfl, Nat.sub_self, set_cons_zero]
    refine counted.replace rfl ?_ ?_
    · rw [more, free]
      rfl
    · omega

theorem counted_serviceSetState {state : ServiceState} {job : Bool} :
    ∃ m', serviceSetState index state job m = some m' ∧ Counted cfg m' := by
  unfold serviceSetState
  split
  · exact ⟨m, rfl, counted⟩
  · rename_i service found
    obtain ⟨before, after, split, rfl⟩ := located found
    obtain ⟨s, services⟩ := m
    subst split
    have linked : service.acceptSocket = service.holds := counted.linked service (by simp)
    simp only [set_append_right _ _ le_rfl, Nat.sub_self, set_cons_zero]
    split
    · exact ⟨_, rfl, counted.replace linked rfl counted.bounded⟩
    · obtain ⟨s', unref, number⟩ := counted.unref
      rw [unref]
      refine ⟨_, rfl, counted.replace rfl ?_ ?_⟩
      · exact number
      · have bounded := counted.bounded
        dsimp only at bounded
        omega

theorem counted_serviceDone : ∃ m', serviceDone index m = some m' ∧ Counted cfg m' := by
  unfold serviceDone
  split
  · exact ⟨m, rfl, counted⟩
  · rename_i service found
    obtain ⟨before, after, split, rfl⟩ := located found
    obtain ⟨s, services⟩ := m
    subst split
    obtain ⟨s', unref, number⟩ := counted.unref
    rw [unref]
    simp only [eraseIdx_append_of_length_le le_rfl, Nat.sub_self, eraseIdx_cons_zero]
    exact ⟨_, rfl, counted.remove number⟩

end

theorem serializeServices_none {services : List Instance}
    (free : ∀ service ∈ services, service.holds = false) (fds : Finset Nat) :
    serializeServices duplicates services fds = some (services.map fun _ => [], fds) := by
  induction services with
  | nil => rfl
  | cons service rest ih =>
    obtain ⟨first, others⟩ := forall_mem_cons.mp free
    have empty : service.socketFd = none := by simpa [Instance.holds] using first
    simp [serializeServices, empty, ih others]

theorem restoreServices_none (services : List Instance) (fds : Finset Nat) :
    ∀ service ∈ (restoreServices services (services.map fun _ => []) fds).1,
      service.holds = false ∧ service.acceptSocket = false := by
  induction services with
  | nil => simp [restoreServices]
  | cons service rest ih =>
    have first : (coldplugConnection service.state { loaded := service.loaded }).holds = false ∧
        (coldplugConnection service.state { loaded := service.loaded }).acceptSocket = false := by
      unfold coldplugConnection
      split
      · exact ⟨rfl, rfl⟩
      · exact ⟨rfl, rfl⟩
    exact forall_mem_cons.mpr ⟨first, ih⟩

theorem nConnections_coldplug (ans : ColdplugAnswers) (s : Socket) :
    (socketColdplug ans s).1.nConnections = s.nConnections := by
  have watch : ∀ ans state (s : Socket),
      (coldplugWatch ans state s).1.nConnections = s.nConnections := by
    intro ans state s
    unfold coldplugWatch
    split
    · split
      · exact nConnections_setState state _
      · rfl
    · exact nConnections_setState state s
  have opens : ∀ ans state (s : Socket),
      (coldplugOpen ans state s).1.nConnections = s.nConnections := by
    intro ans state s
    unfold coldplugOpen
    split
    · split
      · exact watch ans state _
      · rfl
    · exact watch ans state s
  unfold socketColdplug
  dsimp only
  split
  · rfl
  · split
    · split
      · rfl
      · split
        · exact opens ans.ports _ s.arm
        · rfl
    · exact opens ans.ports _ s

theorem counted_reload {network : Network} {ans : ColdplugAnswers} (counted : Counted cfg m)
    (free : ∀ service ∈ m.services, service.holds = false)
    (taken : daemonReload cfg listens network duplicates ans m = some m') : Counted cfg m' := by
  unfold daemonReload at taken
  rw [serializeServices_none free] at taken
  dsimp only at taken
  split at taken
  · rename_i items fds serialized
    cases taken
    have restored := restoreServices_none m.services fds
    have zero : ∀ passed, (socketColdplug ans
        (socketDeserialize cfg network items ⟨loadedSocket listens, passed⟩).socket).1.nConnections =
          0 := by
      intro passed
      obtain ⟨ports, same⟩ :
          ∃ ports, (socketDeserialize cfg network items ⟨loadedSocket listens, passed⟩).socket =
            { restoredSocket cfg m.socket listens with ports := ports } :=
        deserialize_serialized serialized listens passed
      rw [nConnections_coldplug, same]
      rfl
    refine ⟨fun service mem => ?_, ?_, ?_⟩
    · obtain ⟨released, forgotten⟩ := restored service mem
      rw [released, forgotten]
    · rw [zero, eq_comm]
      apply countP_eq_zero.mpr
      intro service mem
      simp [(restored service mem).1]
    · rw [zero]
      exact Nat.zero_le _
  · cases taken
    exact counted
  · cases taken

theorem counted_apply {change : Change} (counted : Counted cfg m) (free : NoneHeld change m)
    (taken : apply cfg change m = some m') : Counted cfg m' := by
  cases change with
  | socket ans event chosen fd => exact counted_socketEvent counted taken
  | load loaded =>
    cases taken
    refine ⟨?_, ?_, counted.bounded⟩
    · exact forall_mem_append.mpr ⟨counted.linked, by simp [Instance.holds]⟩
    · simpa [countP_append, Instance.holds] using counted.counted
  | serviceState index state job =>
    obtain ⟨after, done, counted'⟩ := counted_serviceSetState counted
    cases done.symm.trans taken
    exact counted'
  | free index =>
    obtain ⟨after, done, counted'⟩ := counted_serviceDone counted
    cases done.symm.trans taken
    exact counted'
  | reload listens network duplicates ans =>
    exact counted_reload counted (free listens network duplicates ans rfl) taken

theorem connections_counted
    (reached : Steps.Reached ⟨loadedSocket listens, []⟩ (apply cfg) NoneHeld m) :
    m.services.countP Instance.holds ≤ cfg.maxConnections ∧
    m.socket.nConnections = m.services.countP Instance.holds ∧
    (∀ index state job, serviceSetState index state job m ≠ none) ∧
    ∀ index, serviceDone index m ≠ none := by
  have initial : Counted cfg ⟨loadedSocket listens, []⟩ := ⟨by simp, rfl, Nat.zero_le _⟩
  have counted : Counted cfg m := reached.invariant (Counted cfg) initial
    fun _ _ _ counted free taken => counted_apply counted free taken
  refine ⟨counted.counted ▸ counted.bounded, counted.counted, fun index state job => ?_, fun index => ?_⟩
  · obtain ⟨after, done, -⟩ : ∃ after, serviceSetState index state job m = some after ∧ _ :=
      counted_serviceSetState counted
    simp [done]
  · obtain ⟨after, done, -⟩ : ∃ after, serviceDone index m = some after ∧ _ :=
      counted_serviceDone counted
    simp [done]

end

namespace Examples

def oneByOne : Config := { plain with accept := true, maxConnections := 1 }

def streamPath : UnixPath := ⟨.ofString "/run/stream", by decide, by decide⟩

def streams : List Listen :=
  [.socket ⟨.unix streamPath, sockStream⟩ rfl (by intro _ _ netlink; cases netlink)]

def next (change : Change) (m : Connections) : Connections := (apply oneByOne change m).getD m

def accepting : Connections :=
  next (.socket ans .start 0 0) (next (.load true) ⟨loadedSocket streams, []⟩)

def serving : Connections := next (.socket ans (.traffic 0 (.input true)) 0 7) accepting

def reloaded : Connections :=
  next (.load true) (next (.reload streams network duplicates ⟨true, true, ans.ports⟩) serving)

def overfull : Connections := next (.socket ans (.traffic 0 (.input true)) 1 8) reloaded

theorem accepting_reached :
    Steps.Reached ⟨loadedSocket streams, []⟩ (apply oneByOne) NoneHeld accepting :=
  .step (.socket ans .start 0 0) (next (.load true) ⟨loadedSocket streams, []⟩) accepting
    (.step (.load true) _ _ .start (by intro _ _ _ _ reload; cases reload) rfl)
    (by intro _ _ _ _ reload; cases reload) rfl

theorem serving_reached : Steps.Reached ⟨loadedSocket streams, []⟩ (apply oneByOne) NoneHeld serving :=
  .step (.socket ans (.traffic 0 (.input true)) 0 7) accepting serving accepting_reached
    (by intro _ _ _ _ reload; cases reload) rfl

theorem serving_counted :
    serving.services.countP Instance.holds ≤ oneByOne.maxConnections ∧
    serving.socket.nConnections = serving.services.countP Instance.holds ∧
    (∀ index state job, serviceSetState index state job serving ≠ none) ∧
    ∀ index, serviceDone index serving ≠ none :=
  connections_counted serving_reached

theorem serving_freely :
    Steps.Reached ⟨loadedSocket streams, []⟩ (apply oneByOne) (fun _ _ => True) serving :=
  .step (.socket ans (.traffic 0 (.input true)) 0 7) accepting serving
    (.step (.socket ans .start 0 0) (next (.load true) ⟨loadedSocket streams, []⟩) accepting
      (.step (.load true) _ _ .start trivial rfl) trivial rfl) trivial rfl

def forgotten : Connections :=
  next (.reload streams network duplicates ⟨true, true, ans.ports⟩) serving

theorem overfull_reached :
    Steps.Reached ⟨loadedSocket streams, []⟩ (apply oneByOne) (fun _ _ => True) overfull :=
  .step (.socket ans (.traffic 0 (.input true)) 1 8) reloaded overfull
    (.step (.load true) forgotten reloaded
      (.step (.reload streams network duplicates ⟨true, true, ans.ports⟩) serving forgotten
        serving_freely trivial rfl) trivial rfl) trivial rfl

theorem reload_forgets_connections :
    Steps.Reached ⟨loadedSocket streams, []⟩ (apply oneByOne) (fun _ _ => True) overfull ∧
    overfull.socket.nConnections = 1 ∧ overfull.services.countP Instance.holds = 2 ∧
    oneByOne.maxConnections = 1 :=
  ⟨overfull_reached, by decide, by decide, rfl⟩

end Examples

end Systemd.Sockets
