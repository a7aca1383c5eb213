import Systemd.Shared.Reached
import Systemd.Sockets.Handled
import Systemd.Sockets.Reload

set_option autoImplicit false

namespace Systemd.Sockets

open Option

open Serialization (ItemKey parsePid_printNat)

def dispatched (cfg : Config) (step : Answers × Event) (s : Socket) : Option Socket :=
  (dispatch cfg step.1 step.2 s).map Run.socket

/-- The control group has a process left as FINAL_SIGTERM is sent only if the control process is still
there, that is when it has taken too long. -/
def Accompanied (cfg : Config) (step : Answers × Event) (s : Socket) : Prop :=
  cfg.killMode = .controlGroup -> (step.1.kill .finalSigterm).group = true ->
    step.2 = .timer ∧ (s.state = .startPre ∨ s.state = .stopPost)

def Manned (s : Socket) : Prop := s.state.controlled = true -> 0 < s.controlPid

section

variable {cfg : Config} {ans : Answers}

theorem setState_eq (state : SocketState) (s : Socket) :
    (s.setState state).state = state ∧
    (s.setState state).controlPid = if state.controlled then s.controlPid else 0 := by
  unfold Socket.setState Socket.keepFds Socket.keepWatches Socket.keepControl
  cases state <;> exact ⟨rfl, rfl⟩

variable {run : Run} {state : SocketState} {s : Socket} {listens : List Listen}

theorem manned_setState (there : state.controlled = true -> 0 < run.socket.controlPid) :
    Manned (socketSetState state run).socket := by
  obtain ⟨same, pid⟩ := setState_eq state run.socket
  intro controlled
  change (run.socket.setState state).state.controlled = true at controlled
  change 0 < (run.socket.setState state).controlPid
  rw [same] at controlled
  rw [pid, if_pos controlled]
  exact there controlled

theorem kill_waits (alone : cfg.killMode = .controlGroup -> (ans.kill state).group = false)
    (waiting : killProcesses cfg ans state s = some true) : 0 < s.controlPid := by
  unfold killProcesses at waiting
  cases mode : cfg.killMode with
  | nothing => simp [mode] at waiting
  | process =>
    simp only [mode, some.injEq, Bool.and_eq_true, decide_eq_true_eq] at waiting
    exact waiting.1
  | controlGroup =>
    simp only [mode, alone mode, Bool.or_false, ite_none_right_eq_some, some.injEq,
      Bool.and_eq_true, decide_eq_true_eq] at waiting
    exact waiting.2.1

theorem passes_manned (alone : cfg.killMode = .controlGroup -> (ans.kill .finalSigterm).group = false) :
    Passes cfg ans (fun _ => True) (fun run => Manned run.socket) where
  flags := fun _ _ _ _ => trivial
  prepared := fun _ _ _ => trivial
  dead := by
    rintro run state (rfl | rfl) -
    · exact manned_setState (by simp [SocketState.controlled])
    · exact manned_setState (by simp [SocketState.controlled])
  stopping := fun run state pid _ pos _ => manned_setState fun _ => pos
  final := fun run waiting _ => manned_setState fun _ => kill_waits alone waiting

theorem manned_enterDead (success : Bool) (run : Run) : Manned (socketEnterDead success run).socket := by
  unfold socketEnterDead
  refine manned_setState fun controlled => ?_
  split at controlled
  · cases controlled
  · cases controlled

theorem manned_signal {success : Bool} {next : Bool -> Run -> Run} (there : 0 < run.socket.controlPid)
    (continued : ∀ success' run', Manned (next success' run').socket) :
    Manned (enterSignalThen cfg ans state success next run).socket :=
  enterSignalThen_cases (B := fun run => Manned run.socket)
    (fun _ => manned_setState fun _ => there) fun success' => continued success' _

section

variable (alone : cfg.killMode = .controlGroup -> (ans.kill .finalSigterm).group = false)

include alone

theorem manned_enterListening (run : Run) : Manned (socketEnterListening cfg ans run).socket := by
  unfold socketEnterListening
  split
  · exact manned_setState (by simp [SocketState.controlled])
  · exact (passes_manned alone).enterStopPre false trivial

theorem manned_enterStartPost (run : Run) : Manned (socketEnterStartPost cfg ans run).socket := by
  unfold socketEnterStartPost
  split
  · refine enterControl_cases (B := fun run => Manned run.socket) (fun pid pos => ?_) ?_ ?_
    · exact manned_setState fun _ => pos
    · exact manned_enterListening alone _
    · exact (passes_manned alone).enterStopPre false trivial
  · exact (passes_manned alone).enterStopPre false trivial

theorem manned_enterStartPre (run : Run) : Manned (socketEnterStartPre cfg ans run).socket := by
  refine enterControl_cases (B := fun run => Manned run.socket) (fun pid pos => ?_) ?_ ?_
  · exact manned_setState fun _ => pos
  · exact manned_enterStartPost alone _
  · exact manned_enterDead false _

variable {run : Run}

theorem manned_stopSignal (stops : state = .stopPreSigterm ∨ state = .stopPreSigkill) (success : Bool)
    (there : 0 < run.socket.controlPid) :
    Manned (socketEnterSignal cfg ans state success run).socket := by
  unfold socketEnterSignal
  rw [if_pos stops]
  exact manned_signal there fun success' _ => (passes_manned alone).enterStopPost success' trivial

theorem manned_final (success : Bool) (run : Run) :
    Manned (socketEnterSignal cfg ans .finalSigterm success run).socket := by
  unfold socketEnterSignal
  rw [if_neg (by simp)]
  exact (passes_manned alone).enterFinal success trivial

theorem manned_enterRunning (connection : Bool) (manned : Manned run.socket) :
    Manned (socketEnterRunning cfg ans connection run).socket := by
  unfold socketEnterRunning
  dsimp only
  split
  · split
    · exact manned
    · split
      · exact manned
      · exact (passes_manned alone).enterStopPre false trivial
  · split
    · split
      · exact manned_setState (by simp [SocketState.controlled])
      · exact (passes_manned alone).enterStopPre false trivial
    · split
      · exact manned
      · split
        · exact (passes_manned alone).enterStopPre false trivial
        · split
          · split
            · exact manned
            · exact (passes_manned alone).enterStopPre false trivial
          · exact (passes_manned alone).enterStopPre false trivial

theorem manned_ended {before : Run} (ended : Ended cfg ans before run) : Manned run.socket := by
  cases ended with
  | startPost here => exact manned_enterStartPost alone before
  | listening here => exact manned_enterListening alone before
  | stopPre => exact (passes_manned alone).enterStopPre false trivial
  | stopPost success => exact (passes_manned alone).enterStopPost success trivial
  | final => exact manned_final alone false before
  | dead success => exact manned_enterDead success before

end

theorem manned_finalSignal (state : SocketState) (success : Bool) (there : 0 < run.socket.controlPid) :
    Manned (enterFinalSignal cfg ans state success run).socket :=
  manned_signal there fun success' run' => manned_enterDead success' run'

theorem Manned.there (manned : Manned s) (here : s.state = state)
    (controlled : state.controlled = true) : 0 < s.controlPid :=
  manned (by rw [here]; exact controlled)

theorem manned_dispatch {event : Event} (manned : Manned s)
    (accompanied : Accompanied cfg (ans, event) s)
    (handled : dispatch cfg ans event s = some run) : Manned run.socket := by
  have alone : (event = .timer -> s.state ≠ .startPre ∧ s.state ≠ .stopPost) ->
      cfg.killMode = .controlGroup -> (ans.kill .finalSigterm).group = false := by
    intro other mode
    by_contra found
    obtain ⟨timer, startPre | stopPost⟩ := accompanied mode (by simpa using found)
    · exact (other timer).1 startPre
    · exact (other timer).2 stopPost
  cases handled_dispatch handled with
  | same => exact manned
  | start asleep => exact manned_enterStartPre (alone (by simp)) _
  | stopStarting starting =>
    have there : 0 < s.controlPid := by
      rcases starting with here | here
      · exact manned.there here rfl
      · exact manned.there here rfl
    exact manned_stopSignal (alone (by simp)) (.inl rfl) true there
  | stop up => exact (passes_manned (alone (by simp))).enterStopPre true trivial
  | next pid code status run like quiet there => exact fun _ => there
  | exited pid code status before run like quiet ended => exact manned_ended (alone (by simp)) ended
  | timedOut state next =>
    rcases next with ⟨here, rfl⟩ | ⟨here, rfl⟩ | ⟨here | here, rfl⟩ | ⟨here, rfl⟩
    · exact manned_stopSignal (alone fun _ => by simp [here]) (.inl rfl) false (manned.there here rfl)
    · exact manned_stopSignal (alone fun _ => by simp [here]) (.inr rfl) false (manned.there here rfl)
    · exact manned_finalSignal .finalSigterm false (manned.there here rfl)
    · exact manned_finalSignal .finalSigterm false (manned.there here rfl)
    · exact manned_finalSignal .finalSigkill false (manned.there here rfl)
  | timerStopPre here =>
    exact (passes_manned (alone fun _ => by simp [here])).enterStopPre false trivial
  | timerStopPost here =>
    refine (passes_manned (alone fun _ => ?_)).enterStopPost false trivial
    rcases here with here | here <;> simp [here]
  | timerDead => exact manned_enterDead false _
  | traffic index accepted connection port here found watched taken =>
    exact manned_enterRunning (alone (by simp)) connection manned
  | refused index traffic => exact (passes_manned (alone (by simp))).enterStopPre false trivial
  | serviceDead here => exact manned_enterListening (alone (by simp)) _
  | reset here =>
    have reset : Manned (socketSetState .dead ⟨s, false⟩).socket :=
      manned_setState (by simp [SocketState.controlled])
    exact reset
  | resetFlag => exact manned

theorem manned_reached
    (reached : Steps.Reached (loadedSocket listens) (dispatched cfg) (Accompanied cfg) s) :
    Manned s := by
  refine reached.invariant Manned (by simp [Manned, loadedSocket, SocketState.controlled]) ?_
  rintro ⟨ans, event⟩ s t manned accompanied taken
  obtain ⟨run, handled, rfl⟩ := map_eq_some_iff.mp taken
  exact manned_dispatch manned accompanied handled

theorem coldplugWatch_ne_badMessage (ans : PortAnswers) (state : SocketState) (s : Socket) :
    (coldplugWatch ans state s).2 ≠ some .badMessage := by
  unfold coldplugWatch
  split
  · split
    · simp
    · simp
  · simp

theorem coldplugOpen_ne_badMessage (ans : PortAnswers) (state : SocketState) (s : Socket) :
    (coldplugOpen ans state s).2 ≠ some .badMessage := by
  unfold coldplugOpen
  split
  · split
    · exact coldplugWatch_ne_badMessage ans state _
    · simp
  · exact coldplugWatch_ne_badMessage ans state s

theorem coldplug_badMessage {ans : ColdplugAnswers}
    (missed : (socketColdplug ans s).2 = some .badMessage) :
    s.deserializedState.controlled = true ∧ s.controlPid ≤ 0 := by
  unfold socketColdplug at missed
  dsimp only at missed
  split at missed
  · cases missed
  · split at missed
    · rename_i controlled
      split at missed
      · rename_i gone
        exact ⟨controlled, gone⟩
      · split at missed
        · exact absurd missed (coldplugOpen_ne_badMessage _ _ _)
        · cases missed
    · exact absurd missed (coldplugOpen_ne_badMessage _ _ _)

theorem reached_restores
    (reached : Steps.Reached (loadedSocket listens) (dispatched cfg) (Accompanied cfg) s)
    {network : Network} {duplicates : Duplicates} {fds fds' : Finset Nat}
    {items : List (ItemKey × CString)}
    (serialized : socketSerialize network duplicates s fds = .ok (items, fds'))
    (ans : ColdplugAnswers) :
    (s.state.controlled = true -> 0 < s.controlPid) ∧
    (socketColdplug ans
      (socketDeserialize cfg network items ⟨loadedSocket listens, fds'⟩).socket).2 ≠
        some .badMessage := by
  have manned := manned_reached reached
  refine ⟨manned, fun missed => ?_⟩
  obtain ⟨controlled, gone⟩ := coldplug_badMessage missed
  obtain ⟨ports, restored⟩ :
      ∃ ports, (socketDeserialize cfg network items ⟨loadedSocket listens, fds'⟩).socket =
        { restoredSocket cfg s listens with ports := ports } :=
    deserialize_serialized serialized listens fds'
  rw [restored] at controlled gone
  have there := manned controlled
  simp only [restoredSocket, if_pos there] at gone
  exact Int32.not_le.mpr there gone

end

namespace Examples

def cfg : Config where
  accept := false
  maxConnections := 64
  killMode := .controlGroup
  sendSigkill := true
  execCommand := fun
    | .startPre => [⟨["/usr/bin/prepare"], false⟩]
    | _ => []

def network : Network where
  inetNtop := fun _ => .ofString "127.0.0.1"
  inetPton := fun _ => none
  inet6Ntop := fun _ => .ofString "::1"
  inet6Pton := fun _ => none
  ifNametoindex := fun _ => 0
  ipv6IsSupported := true

def listens : List Listen := [.fifo (.ofString "/run/fifo")]

theorem answers_positive : (0 : Int32) < 100 := by decide

def ans : Answers where
  spawn := fun _ => .forked 100 answers_positive
  kill := fun _ => ⟨true, false, true, true⟩
  ports := ⟨true, fun _ => some 5, fun _ => true⟩
  serviceGood := true
  stopPending := false
  startPending := false
  addName := true
  setSocketFd := true
  addJob := true

-- A process that was started by the command is still there.
def crowded : Answers := { ans with kill := fun _ => ⟨true, true, true, true⟩ }

def duplicates : Duplicates where
  copy := fun fds fd => if fd + 10 ∈ fds ∨ 2 ^ 31 ≤ fd + 10 then none else some (fd + 10)
  unused := by
    intro fds fd number copied
    simp only [ite_none_left_eq_some, not_or, some.injEq] at copied
    exact copied.2 ▸ copied.1.1
  small := by
    intro fds fd number copied
    simp only [ite_none_left_eq_some, not_or, not_le, some.injEq] at copied
    exact copied.2 ▸ copied.1.2

def after (cfg : Config) (ans : Answers) (event : Event) (s : Socket) : Socket :=
  ((dispatch cfg ans event s).map Run.socket).getD s

def starting : Socket := after cfg ans .start (loadedSocket listens)

def listening : Socket := after cfg ans (.sigchld 100 1 0) starting

def lingering : Socket := after cfg crowded .stop listening

theorem starting_reached :
    Steps.Reached (loadedSocket listens) (dispatched cfg) (Accompanied cfg) starting :=
  .step (ans, .start) _ starting .start (by intro _ found; cases found) rfl

def startingItems : List (ItemKey × CString) := stateItems starting

theorem starting_serialized : socketSerialize network duplicates starting ∅ = .ok (startingItems, ∅) := rfl

theorem starting_restores :
    (starting.state.controlled = true -> 0 < starting.controlPid) ∧
    (socketColdplug ⟨true, true, ans.ports⟩
      (socketDeserialize cfg network startingItems ⟨loadedSocket listens, ∅⟩).socket).2 ≠
        some .badMessage :=
  reached_restores starting_reached starting_serialized ⟨true, true, ans.ports⟩

theorem listening_reached :
    Steps.Reached (loadedSocket listens) (dispatched cfg) (fun _ _ => True) listening :=
  .step (ans, .sigchld 100 1 0) starting listening
    (.step (ans, .start) _ starting .start trivial rfl) trivial rfl

theorem lingering_reached :
    Steps.Reached (loadedSocket listens) (dispatched cfg) (fun _ _ => True) lingering :=
  .step (crowded, .stop) listening lingering listening_reached trivial rfl

def lingeringItems : List (ItemKey × CString) := stateItems lingering

theorem lingering_not_restored :
    Steps.Reached (loadedSocket listens) (dispatched cfg) (fun _ _ => True) lingering ∧
    lingering.state = .finalSigterm ∧ lingering.controlPid = 0 ∧
    socketSerialize network duplicates lingering ∅ = .ok (lingeringItems, ∅) ∧
    (socketColdplug ⟨true, true, ans.ports⟩
      (socketDeserialize cfg network lingeringItems ⟨loadedSocket listens, ∅⟩).socket).2 =
        some .badMessage :=
  ⟨lingering_reached, rfl, rfl, rfl, by rw [lingeringItems, deserialize_stateItems]; decide⟩

end Examples

end Systemd.Sockets
