import Systemd.Sockets.Manned

set_option autoImplicit false

namespace Systemd.Sockets

/-- What can happen to a socket unit: an event, or a reload of the manager, after which the unit file
may name other ports. -/
inductive Step where
  | event (ans : Answers) (event : Event)
  | reload (listens : List Listen) (network : Network) (duplicates : Duplicates) (fds : Finset Nat)
      (ans : ColdplugAnswers)

-- If the unit cannot be serialized the manager goes on with it as it is.
def take (cfg : Config) : Step -> Socket -> Option Socket
  | .event ans event, s => dispatched cfg (ans, event) s
  | .reload listens network duplicates fds ans, s =>
    match socketSerialize network duplicates s fds with
    | .ok (items, fds) =>
      some (socketColdplug ans
        (socketDeserialize cfg network items ⟨loadedSocket listens, fds⟩).socket).1
    | .error .failed => some s
    | .error .aborted => none

def Undisturbed (cfg : Config) (step : Step) (s : Socket) : Prop :=
  ∀ ans index accepted port, step = .event ans (.traffic index (.input accepted)) ->
    s.state = .listening -> s.ports[index]? = some port -> port.watched = true ->
    ans.stopPending = true -> (cfg.accept && port.listen.canAccept) = true

structure Listens (s : Socket) : Prop where
  opened : s.state = .startPost ∨ s.state = .running -> AllOpen s.ports
  ready : s.state = .listening -> ∀ port ∈ s.ports, port.Ready

section

variable {cfg : Config} {ans : Answers}

theorem listens_other {s : Socket} (startPost : s.state ≠ .startPost) (running : s.state ≠ .running)
    (listening : s.state ≠ .listening) : Listens s where
  opened := fun here => (here.elim startPost running).elim
  ready := fun here => absurd here listening

theorem listens_setState {run : Run} {state : SocketState} (startPost : state ≠ .startPost)
    (running : state ≠ .running) (listening : state ≠ .listening) :
    Listens (socketSetState state run).socket := by
  have same : (socketSetState state run).socket.state = state := (setState_eq state run.socket).1
  apply listens_other
  · rwa [same]
  · rwa [same]
  · rwa [same]

theorem listens_open {run : Run} {state : SocketState} (kept : state = .startPost ∨ state = .running)
    (allOpen : AllOpen run.socket.ports) : Listens (socketSetState state run).socket := by
  rcases kept with rfl | rfl
  · exact ⟨fun _ => allOpen_unwatch allOpen, fun here => by cases here⟩
  · exact ⟨fun _ => allOpen_unwatch allOpen, fun here => by cases here⟩

theorem listens_listening {run : Run} (ready : ∀ port ∈ run.socket.ports, port.Ready) :
    Listens (socketSetState .listening run).socket where
  opened := by
    rintro (here | here)
    · cases here
    · cases here
  ready := fun _ => ready

theorem passes_listens : Passes cfg ans (fun _ => True) (fun run => Listens run.socket) where
  flags := fun _ _ _ _ => trivial
  prepared := fun _ _ _ => trivial
  dead := by
    rintro run state (rfl | rfl) -
    · exact listens_setState (by simp) (by simp) (by simp)
    · exact listens_setState (by simp) (by simp) (by simp)
  stopping := by
    rintro run state pid (rfl | rfl) - -
    · exact listens_setState (by simp) (by simp) (by simp)
    · exact listens_setState (by simp) (by simp) (by simp)
  final := fun run _ _ => listens_setState (by simp) (by simp) (by simp)

variable (success : Bool) (run : Run)

theorem listens_enterStopPre : Listens (socketEnterStopPre cfg ans success run).socket :=
  passes_listens.enterStopPre success trivial

theorem listens_enterStopPost : Listens (socketEnterStopPost cfg ans success run).socket :=
  passes_listens.enterStopPost success trivial

theorem listens_enterDead : Listens (socketEnterDead success run).socket := by
  unfold socketEnterDead
  dsimp only
  split
  · exact listens_setState (by simp) (by simp) (by simp)
  · exact listens_setState (by simp) (by simp) (by simp)

theorem listens_enterSignal {state : SocketState} (startPost : state ≠ .startPost)
    (running : state ≠ .running) (listening : state ≠ .listening) (success : Bool) (run : Run) :
    Listens (socketEnterSignal cfg ans state success run).socket := by
  unfold socketEnterSignal
  split
  · refine enterSignalThen_cases (B := fun run => Listens run.socket) (fun _ => ?_) fun success' => ?_
    · exact listens_setState startPost running listening
    · exact listens_enterStopPost success' _
  · refine enterSignalThen_cases (B := fun run => Listens run.socket) (fun _ => ?_) fun success' => ?_
    · exact listens_setState startPost running listening
    · exact listens_enterDead success' _

theorem listens_enterListening {run : Run} (allOpen : AllOpen run.socket.ports) :
    Listens (socketEnterListening cfg ans run).socket := by
  unfold socketEnterListening
  split
  · rename_i ports watched
    exact listens_listening (socketWatchFds_ready allOpen watched)
  · exact listens_enterStopPre false _

theorem listens_enterStartPost : Listens (socketEnterStartPost cfg ans run).socket := by
  unfold socketEnterStartPost
  split
  · rename_i ports opened
    have allOpen := socketOpenFds_open opened
    refine enterControl_cases (B := fun run => Listens run.socket) (fun pid _ => ?_) ?_ ?_
    · exact listens_open (.inl rfl) allOpen
    · exact listens_enterListening allOpen
    · exact listens_enterStopPre false _
  · exact listens_enterStopPre false _

theorem listens_enterStartPre : Listens (socketEnterStartPre cfg ans run).socket := by
  refine enterControl_cases (B := fun run => Listens run.socket) (fun pid _ => ?_) ?_ ?_
  · exact listens_setState (by simp) (by simp) (by simp)
  · exact listens_enterStartPost _
  · exact listens_enterDead false _

theorem listens_enterRunning {connection : Bool} {run : Run} (listens : Listens run.socket)
    (here : run.socket.state = .listening) (calm : ans.stopPending = true -> connection = true) :
    Listens (socketEnterRunning cfg ans connection run).socket := by
  have allOpen : AllOpen run.socket.ports := fun port mem => (listens.ready here port mem).1
  unfold socketEnterRunning
  dsimp only
  split
  · rename_i pending
    have taken : connection = true := by
      apply calm
      simpa [here, SocketState.active, UnitActiveState.isInactiveOrDeactivating] using pending
    rw [if_pos taken]
    exact listens
  · split
    · split
      · exact listens_open (.inr rfl) allOpen
      · exact listens_enterStopPre false _
    · split
      · exact listens
      · split
        · exact listens_enterStopPre false _
        · split
          · split
            · exact ⟨listens.opened, listens.ready⟩
            · exact listens_enterStopPre false _
          · exact listens_enterStopPre false _

theorem Listens.like {s t : Socket} (listens : Listens s) (like : Like s t) : Listens t where
  opened := by
    rw [like.state, like.ports]
    exact listens.opened
  ready := by
    rw [like.state, like.ports]
    exact listens.ready

theorem listens_ended {before run : Run} (listens : Listens before.socket)
    (ended : Ended cfg ans before run) : Listens run.socket := by
  cases ended with
  | startPost here => exact listens_enterStartPost before
  | listening here => exact listens_enterListening (listens.opened (.inl here))
  | stopPre => exact listens_enterStopPre false before
  | stopPost success => exact listens_enterStopPost success before
  | final => exact listens_enterSignal (by simp) (by simp) (by simp) false before
  | dead success => exact listens_enterDead success before

theorem listens_dispatch {event : Event} {s : Socket} {run : Run} (listens : Listens s)
    (undisturbed : Undisturbed cfg (.event ans event) s)
    (handled : dispatch cfg ans event s = some run) : Listens run.socket := by
  cases handled_dispatch handled with
  | same => exact listens
  | start asleep => exact listens_enterStartPre _
  | stopStarting starting => exact listens_enterSignal (by simp) (by simp) (by simp) true _
  | stop up => exact listens_enterStopPre true _
  | next pid code status run like quiet there => exact listens.like like
  | exited pid code status before run like quiet ended => exact listens_ended (listens.like like) ended
  | timedOut state next =>
    rcases next with ⟨-, rfl⟩ | ⟨-, rfl⟩ | ⟨-, rfl⟩ | ⟨-, rfl⟩
    all_goals exact listens_enterSignal (by simp) (by simp) (by simp) false _
  | timerStopPre here => exact listens_enterStopPre false _
  | timerStopPost here => exact listens_enterStopPost false _
  | timerDead => exact listens_enterDead false _
  | traffic index accepted connection port here found watched taken =>
    refine listens_enterRunning listens here fun pending => ?_
    rw [taken]
    exact undisturbed ans index accepted port rfl here found watched pending
  | refused index traffic => exact listens_enterStopPre false _
  | serviceDead here => exact listens_enterListening (listens.opened (.inr here))
  | reset here =>
    have reset : Listens (socketSetState .dead ⟨s, false⟩).socket :=
      listens_setState (by simp) (by simp) (by simp)
    exact ⟨reset.opened, reset.ready⟩
  | resetFlag => exact ⟨listens.opened, listens.ready⟩

theorem listens_dead {s : Socket} (dead : s.state = .dead) : Listens s :=
  listens_other (by simp [dead]) (by simp [dead]) (by simp [dead])

theorem listens_coldplugWatch {ans : PortAnswers} {state : SocketState} {s : Socket}
    (dead : s.state = .dead)
    (opened : state = .startPost ∨ state = .running ∨ state = .listening -> AllOpen s.ports) :
    Listens (coldplugWatch ans state s).1 := by
  unfold coldplugWatch
  split
  · rename_i listening
    have allOpen := opened (.inr (.inr listening))
    split
    · rename_i ports watched
      rw [listening]
      have entered : Listens (socketSetState .listening ⟨{ s with ports := ports }, false⟩).socket :=
        listens_listening (socketWatchFds_ready allOpen watched)
      exact entered
    · exact listens_dead dead
  · rename_i silent
    by_cases kept : state = .startPost ∨ state = .running
    · have allOpen : AllOpen s.ports :=
        opened (kept.elim .inl fun running => .inr (.inl running))
      have entered : Listens (socketSetState state ⟨s, false⟩).socket := listens_open kept allOpen
      exact entered
    · obtain ⟨startPost, running⟩ := not_or.mp kept
      have entered : Listens (socketSetState state ⟨s, false⟩).socket :=
        listens_setState startPost running silent
      exact entered

theorem listens_coldplugOpen {ans : PortAnswers} {state : SocketState} {s : Socket}
    (dead : s.state = .dead) : Listens (coldplugOpen ans state s).1 := by
  unfold coldplugOpen
  split
  · split
    · rename_i ports opened
      exact listens_coldplugWatch (by exact dead) fun _ => socketOpenFds_open opened
    · exact listens_dead dead
  · rename_i keeps
    refine listens_coldplugWatch dead fun kept => ?_
    rcases kept with rfl | rfl | rfl <;> exact absurd rfl keeps

theorem listens_coldplug {ans : ColdplugAnswers} {s : Socket} (dead : s.state = .dead) :
    Listens (socketColdplug ans s).1 := by
  unfold socketColdplug
  dsimp only
  split
  · exact listens_dead dead
  · split
    · split
      · exact listens_dead dead
      · split
        · exact listens_coldplugOpen (by exact dead)
        · exact listens_dead dead
    · exact listens_coldplugOpen dead

theorem listens_take {step : Step} {s t : Socket} (listens : Listens s)
    (undisturbed : Undisturbed cfg step s) (taken : take cfg step s = some t) : Listens t := by
  cases step with
  | event ans event =>
    obtain ⟨run, handled, rfl⟩ := Option.map_eq_some_iff.mp taken
    exact listens_dispatch listens undisturbed handled
  | reload names network duplicates fds ans =>
    simp only [take] at taken
    split at taken
    · rename_i items fds' serialized
      obtain ⟨ports, restored⟩ :
          ∃ ports, (socketDeserialize cfg network items ⟨loadedSocket names, fds'⟩).socket =
            { restoredSocket cfg s names with ports := ports } :=
        deserialize_serialized serialized names fds'
      cases taken
      exact listens_coldplug (by rw [restored]; rfl)
    · cases taken
      exact listens
    · cases taken

theorem listening_ready {listens : List Listen} {s : Socket}
    (reached : Steps.Reached (loadedSocket listens) (take cfg) (Undisturbed cfg) s)
    (here : s.state = .listening) : ∀ port ∈ s.ports, port.fd.isSome = true ∧ port.watched = true := by
  have inv : Listens s := reached.invariant Listens (listens_dead rfl)
    fun _ _ _ listens undisturbed taken => listens_take listens undisturbed taken
  exact inv.ready here

end

namespace Examples

def plain : Config := { cfg with execCommand := fun _ => [] }

def hurried : Answers := { ans with stopPending := true }

def waiting : Socket := after plain ans .start (loadedSocket listens)

def deaf : Socket := after plain hurried (.traffic 0 (.input false)) waiting

theorem waiting_reached :
    Steps.Reached (loadedSocket listens) (take plain) (Undisturbed plain) waiting :=
  .step (.event ans .start) _ waiting .start (by intro _ _ _ _ traffic; cases traffic) rfl

theorem waiting_ready : waiting.state = .listening ∧
    ∀ port ∈ waiting.ports, port.fd.isSome = true ∧ port.watched = true :=
  ⟨rfl, listening_ready waiting_reached rfl⟩

theorem deaf_reached :
    Steps.Reached (loadedSocket listens) (take plain) (fun _ _ => True) deaf :=
  .step (.event hurried (.traffic 0 (.input false))) waiting deaf
    (.step (.event ans .start) _ waiting .start trivial rfl) trivial rfl

theorem suppressed_traffic_closes :
    Steps.Reached (loadedSocket listens) (take plain) (fun _ _ => True) deaf ∧
    deaf.state = .listening ∧ deaf.ports.length = 1 ∧
    ∀ port ∈ deaf.ports, port.fd = none ∧ port.watched = false := by
  refine ⟨deaf_reached, rfl, rfl, ?_⟩
  intro port mem
  have only : deaf.ports = [loadedPort (.fifo (.ofString "/run/fifo"))] := rfl
  rw [only, List.mem_singleton] at mem
  rw [mem]
  exact ⟨rfl, rfl⟩

end Examples

end Systemd.Sockets
