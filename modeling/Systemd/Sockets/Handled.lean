import Systemd.Sockets.Machine

set_option autoImplicit false

namespace Systemd.Sockets

structure Like (s t : Socket) : Prop where
  state : t.state = s.state
  ports : t.ports = s.ports
  nAccepted : t.nAccepted = s.nAccepted
  nConnections : t.nConnections = s.nConnections

inductive Ended (cfg : Config) (ans : Answers) (before : Run) : Run -> Prop where
  | startPost (here : before.socket.state = .startPre) :
      Ended cfg ans before (socketEnterStartPost cfg ans before)
  | listening (here : before.socket.state = .startPost) :
      Ended cfg ans before (socketEnterListening cfg ans before)
  | stopPre : Ended cfg ans before (socketEnterStopPre cfg ans false before)
  | stopPost (success : Bool) :
      Ended cfg ans before (socketEnterStopPost cfg ans success before)
  | final : Ended cfg ans before (socketEnterSignal cfg ans .finalSigterm false before)
  | dead (success : Bool) : Ended cfg ans before (socketEnterDead success before)

inductive Handled (cfg : Config) (ans : Answers) (s : Socket) : Event -> Run -> Prop where
  | same (event : Event) : Handled cfg ans s event ⟨s, false⟩
  | start (asleep : s.state = .dead ∨ s.state = .failed) :
      Handled cfg ans s .start
        (socketEnterStartPre cfg ans ⟨{ s with failure := false }, false⟩)
  | stopStarting (starting : s.state = .startPre ∨ s.state = .startPost) :
      Handled cfg ans s .stop (socketEnterSignal cfg ans .stopPreSigterm true ⟨s, false⟩)
  | stop (up : s.state = .listening ∨ s.state = .running) :
      Handled cfg ans s .stop (socketEnterStopPre cfg ans true ⟨s, false⟩)
  | next (pid code status : Int32) (run : Run) (like : Like s run.socket)
      (quiet : run.connected = false) (there : 0 < run.socket.controlPid) :
      Handled cfg ans s (.sigchld pid code status) run
  | exited (pid code status : Int32) (before run : Run) (like : Like s before.socket)
      (quiet : before.connected = false) (ended : Ended cfg ans before run) :
      Handled cfg ans s (.sigchld pid code status) run
  | timedOut (state : SocketState)
      (next : s.state = .stopPre ∧ state = .stopPreSigterm ∨
        s.state = .stopPreSigterm ∧ state = .stopPreSigkill ∨
        (s.state = .startPre ∨ s.state = .stopPost) ∧ state = .finalSigterm ∨
        s.state = .finalSigterm ∧ state = .finalSigkill) :
      Handled cfg ans s .timer (socketEnterSignal cfg ans state false ⟨s.disarm, false⟩)
  | timerStopPre (here : s.state = .startPost) :
      Handled cfg ans s .timer (socketEnterStopPre cfg ans false ⟨s.disarm, false⟩)
  | timerStopPost (here : s.state = .stopPreSigterm ∨ s.state = .stopPreSigkill) :
      Handled cfg ans s .timer (socketEnterStopPost cfg ans false ⟨s.disarm, false⟩)
  | timerDead : Handled cfg ans s .timer (socketEnterDead false ⟨s.disarm, false⟩)
  | traffic (index : Nat) (accepted connection : Bool) (port : SocketPort)
      (here : s.state = .listening) (found : s.ports[index]? = some port) (watched : port.watched = true)
      (taken : connection = (cfg.accept && port.listen.canAccept)) :
      Handled cfg ans s (.traffic index (.input accepted))
        (socketEnterRunning cfg ans connection ⟨s, false⟩)
  | refused (index : Nat) (traffic : Traffic) :
      Handled cfg ans s (.traffic index traffic) (socketEnterStopPre cfg ans false ⟨s, false⟩)
  | serviceDead (here : s.state = .running) :
      Handled cfg ans s .serviceDead (socketEnterListening cfg ans ⟨s, false⟩)
  | reset (here : s.state = .failed) : Handled cfg ans s .resetFailed
      ((socketSetState .dead ⟨s, false⟩).update fun s => { s with failure := false })
  | resetFlag : Handled cfg ans s .resetFailed ⟨{ s with failure := false }, false⟩

section

variable {cfg : Config} {ans : Answers}

variable {run : Run} {s : Socket}

theorem ended_runNext {success : Bool} {before : Run}
    (handled : socketRunNext cfg ans success before = some run) :
    ∃ before', Like before.socket before'.socket ∧ before'.connected = before.connected ∧
      (0 < before'.socket.controlPid ∧ run = before' ∨ Ended cfg ans before' run) := by
  unfold socketRunNext at handled
  split at handled
  · rename_i command rest id _ _
    unfold socketSpawn at handled
    cases answer : ans.spawn id with
    | forked pid pos =>
      rw [answer] at handled
      cases handled
      refine ⟨_, ?_, ?_, .inl ⟨?_, rfl⟩⟩
      · exact ⟨rfl, rfl, rfl, rfl⟩
      · rfl
      · exact pos
    | failed =>
      rw [answer] at handled
      dsimp only at handled
      split at handled
      · cases handled
        refine ⟨_, ?_, ?_, .inr .stopPre⟩
        · exact ⟨rfl, rfl, rfl, rfl⟩
        · rfl
      · cases handled
        refine ⟨_, ?_, ?_, .inr (.dead false)⟩
        · exact ⟨rfl, rfl, rfl, rfl⟩
        · rfl
      · cases handled
        refine ⟨_, ?_, ?_, .inr .final⟩
        · exact ⟨rfl, rfl, rfl, rfl⟩
        · rfl
  · cases handled

theorem ended_controlGone {success : Bool} {before : Run}
    (handled : controlGone cfg ans success before = some run) : Ended cfg ans before run := by
  unfold controlGone at handled
  cases here : before.socket.state with
  | startPre =>
    rw [here] at handled
    dsimp only at handled
    split at handled
    · cases handled
      exact .startPost here
    · cases handled
      exact .final
  | startPost =>
    rw [here] at handled
    dsimp only at handled
    split at handled
    · cases handled
      exact .listening here
    · cases handled
      exact .stopPre
  | stopPre | stopPreSigterm | stopPreSigkill =>
    rw [here] at handled
    cases handled
    exact .stopPost success
  | stopPost | finalSigterm | finalSigkill =>
    rw [here] at handled
    cases handled
    exact .dead success
  | dead | listening | running | failed =>
    rw [here] at handled
    cases handled

theorem handled_sigchld {pid code status : Int32}
    (handled : socketSigchldEvent cfg ans pid code status ⟨s, false⟩ = some run) :
    Handled cfg ans s (.sigchld pid code status) run := by
  unfold socketSigchldEvent at handled
  dsimp only at handled
  split at handled
  · cases handled
    exact .same _
  · split at handled
    · obtain ⟨before, like, quiet, ⟨there, rfl⟩ | ended⟩ := ended_runNext handled
      · exact .next pid code status run
          ⟨like.state, like.ports, like.nAccepted, like.nConnections⟩ quiet there
      · exact .exited pid code status before run
          ⟨like.state, like.ports, like.nAccepted, like.nConnections⟩ quiet ended
    · refine .exited pid code status _ run ?_ ?_ (ended_controlGone handled)
      · exact ⟨rfl, rfl, rfl, rfl⟩
      · rfl

theorem handled_timer (handled : socketTimerEvent cfg ans ⟨s.disarm, false⟩ = some run) :
    Handled cfg ans s .timer run := by
  generalize before : Run.mk s.disarm false = run' at handled
  have same : run'.socket.state = s.state := by
    rw [← before]
    rfl
  unfold socketTimerEvent at handled
  rw [same] at handled
  cases here : s.state with
  | startPre | stopPost =>
    rw [here] at handled
    cases handled
    rw [← before]
    exact .timedOut .finalSigterm (by simp [here])
  | startPost =>
    rw [here] at handled
    cases handled
    rw [← before]
    exact .timerStopPre here
  | stopPre =>
    rw [here] at handled
    cases handled
    rw [← before]
    exact .timedOut .stopPreSigterm (by simp [here])
  | stopPreSigterm =>
    rw [here] at handled
    dsimp only at handled
    split at handled
    · cases handled
      rw [← before]
      exact .timedOut .stopPreSigkill (by simp [here])
    · cases handled
      rw [← before]
      exact .timerStopPost (.inl here)
  | stopPreSigkill =>
    rw [here] at handled
    cases handled
    rw [← before]
    exact .timerStopPost (.inr here)
  | finalSigterm =>
    rw [here] at handled
    dsimp only at handled
    split at handled
    · cases handled
      rw [← before]
      exact .timedOut .finalSigkill (by simp [here])
    · cases handled
      rw [← before]
      exact .timerDead
  | finalSigkill =>
    rw [here] at handled
    cases handled
    rw [← before]
    exact .timerDead
  | dead | listening | running | failed =>
    rw [here] at handled
    cases handled

theorem handled_start (handled : socketStart cfg ans ⟨s, false⟩ = some run) :
    Handled cfg ans s .start run := by
  unfold socketStart at handled
  dsimp only at handled
  cases here : s.state with
  | stopPre | stopPreSigterm | stopPreSigkill | stopPost | finalSigterm | finalSigkill | startPre
  | startPost =>
    rw [here] at handled
    cases handled
    exact .same _
  | dead | failed =>
    rw [here] at handled
    dsimp only at handled
    split at handled
    · cases handled
      exact .start (by simp [here])
    · cases handled
      exact .same _
  | listening | running =>
    rw [here] at handled
    dsimp only at handled
    split at handled
    · cases handled
    · cases handled
      exact .same _

theorem handled_stop (handled : socketStop cfg ans ⟨s, false⟩ = some run) :
    Handled cfg ans s .stop run := by
  unfold socketStop at handled
  dsimp only at handled
  cases here : s.state with
  | stopPre | stopPreSigterm | stopPreSigkill | stopPost | finalSigterm | finalSigkill =>
    rw [here] at handled
    cases handled
    exact .same _
  | startPre | startPost =>
    rw [here] at handled
    cases handled
    exact .stopStarting (by simp [here])
  | listening | running =>
    rw [here] at handled
    cases handled
    exact .stop (by simp [here])
  | dead | failed =>
    rw [here] at handled
    cases handled

theorem handled_traffic {index : Nat} {port : SocketPort} (found : s.ports[index]? = some port)
    (watched : port.watched = true) (traffic : Traffic) :
    Handled cfg ans s (.traffic index traffic) (socketFdEvent cfg ans port traffic ⟨s, false⟩) := by
  unfold socketFdEvent
  split
  · exact .same _
  · rename_i here
    have here : s.state = .listening := not_not.mp here
    cases traffic with
    | unexpected => exact .refused index _
    | input accepted =>
      dsimp only
      split
      · rename_i taken
        split
        · exact .traffic index accepted true port here found watched taken.symm
        · exact .refused index _
      · rename_i left
        exact .traffic index accepted false port here found watched (by simpa using left)

theorem handled_dispatch {event : Event} (handled : dispatch cfg ans event s = some run) :
    Handled cfg ans s event run := by
  cases event with
  | start =>
    simp only [dispatch] at handled
    split at handled
    · cases handled
      exact .same _
    · exact handled_start handled
  | stop =>
    simp only [dispatch] at handled
    split at handled
    · cases handled
      exact .same _
    · exact handled_stop handled
  | sigchld pid code status =>
    simp only [dispatch] at handled
    split at handled
    · exact handled_sigchld handled
    · cases handled
      exact .same _
  | timer =>
    simp only [dispatch] at handled
    split at handled
    · exact handled_timer handled
    · cases handled
      exact .same _
  | traffic index traffic =>
    simp only [dispatch] at handled
    split at handled
    · rename_i port found
      split at handled
      · rename_i watched
        cases handled
        exact handled_traffic found watched traffic
      · cases handled
        exact .same _
    · cases handled
      exact .same _
  | serviceDead =>
    cases handled
    unfold socketNotifyServiceDead
    split
    · rename_i here
      exact .serviceDead here
    · exact .same _
  | resetFailed =>
    cases handled
    unfold socketResetFailed
    split
    · rename_i here
      exact .reset here
    · exact .resetFlag

end

end Systemd.Sockets
