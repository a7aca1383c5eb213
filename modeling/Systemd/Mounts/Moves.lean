import Systemd.Mounts.Machine

set_option autoImplicit false

namespace Systemd.Mounts

open Services (KillMode isCleanExit)
open Sockets (SpawnAnswer KillAnswer)

inductive Place where
  | up
  | down
  | busy
  deriving DecidableEq

def MountState.place : MountState -> Place
  | .mounted => .up
  | .dead | .failed => .down
  | _ => .busy

variable (state : MountState)

theorem place_busy : state.place = .busy ↔ state.controlled = true := by
  cases state <;> decide

theorem place_up : state.place = .up ↔ state = .mounted := by
  cases state <;> decide

theorem place_down : state.place = .down ↔ state = .dead ∨ state = .failed := by
  cases state <;> decide

def Agrees (place : Place) (known : Bool) : Prop :=
  (place = .up -> known = true) ∧ (place = .down -> known = false)

structure SameTable (m after : Mount) : Prop where
  known : after.fromProcSelfMountinfo = m.fromProcSelfMountinfo
  mounted : after.isMounted = m.isMounted
  new : after.justMounted = m.justMounted
  changed : after.justChanged = m.justChanged

theorem SameTable.refl (m : Mount) : SameTable m m :=
  ⟨rfl, rfl, rfl, rfl⟩

def Sound (m : Mount) : Prop :=
  m.controlPid = 0 ↔ m.state.place ≠ .busy

structure Moved (m : Mount) (place : Place) (after : Mount) : Prop where
  place : after.state.place = place
  sound : Sound after
  table : SameTable m after

theorem Moved.stays {m : Mount} (sound : Sound m) : Moved m m.state.place m :=
  ⟨rfl, sound, SameTable.refl m⟩

section moves

variable {m : Mount} {run : Run} {cfg : Config} {ans : Answers}

theorem setState_moved {after : Mount} (same : SameTable m after) (state : MountState)
    (pid : state.controlled = true -> after.controlPid ≠ 0) :
    Moved m state.place (after.setState state) := by
  cases controlled : state.controlled with
  | true =>
    have busy := (place_busy state).mpr controlled
    have running := pid controlled
    constructor
    case place => simp [Mount.setState, controlled]
    case sound => simp [Sound, Mount.setState, controlled, busy, running]
    case table => simpa [Mount.setState, controlled] using ⟨same.1, same.2, same.3, same.4⟩
  | false =>
    have idle : state.place ≠ .busy := by simp [place_busy, controlled]
    constructor
    case place => simp [Mount.setState, controlled, Mount.disarm, Mount.unwatchControlPid]
    case sound =>
      simp [Sound, Mount.setState, controlled, Mount.disarm, Mount.unwatchControlPid, idle]
    case table =>
      simpa [Mount.setState, controlled, Mount.disarm, Mount.unwatchControlPid] using
        ⟨same.1, same.2, same.3, same.4⟩

theorem mountSetState_moved (run : Run) (same : SameTable m run.mount) (state : MountState)
    (pid : state.controlled = true -> run.mount.controlPid ≠ 0) :
    Moved m state.place (mountSetState state run).mount :=
  setState_moved same state pid

theorem mountEnterDead_moved (run : Run) (same : SameTable m run.mount) (success : Bool) :
    Moved m .down (mountEnterDead success run).mount := by
  have after : SameTable m (run.update (.withResult success)).mount :=
    ⟨same.1, same.2, same.3, same.4⟩
  rw [mountEnterDead]
  cases (run.update (.withResult success)).mount.failure with
  | true => exact mountSetState_moved _ after .failed (by simp [MountState.controlled])
  | false => exact mountSetState_moved _ after .dead (by simp [MountState.controlled])

theorem mountEnterMounted_moved (run : Run) (same : SameTable m run.mount) (success : Bool) :
    Moved m .up (mountEnterMounted success run).mount :=
  mountSetState_moved (run.update (.withResult success))
    ⟨same.1, same.2, same.3, same.4⟩ .mounted (by simp [MountState.controlled])

theorem enterKnown_moved (run : Run) (same : SameTable m run.mount) (success : Bool) :
    Moved m (if m.fromProcSelfMountinfo then .up else .down) (enterKnown success run).mount := by
  rw [enterKnown, same.known]
  cases m.fromProcSelfMountinfo with
  | true => exact mountEnterMounted_moved run same success
  | false => exact mountEnterDead_moved run same success

theorem remountFailed_moved (run : Run) (same : SameTable m run.mount) :
    Moved m .up (remountFailed run).mount :=
  mountEnterMounted_moved (run.update fun m => { m with reloadFailure := true })
    ⟨same.1, same.2, same.3, same.4⟩ true

def Waits (cfg : Config) (ans : Answers) (state : MountState) (m : Mount) : Prop :=
  killProcesses cfg ans state m = some true ∧ (ans.kill state).timer = true

variable {state : MountState}

variable (cfg ans) in
theorem mountEnterSignal_moved (run : Run) (same : SameTable m run.mount)
    (pid : run.mount.controlPid ≠ 0) (controlled : state.controlled = true) (success : Bool) :
    (Waits cfg ans state run.mount ->
      Moved m .busy (mountEnterSignal cfg ans state success run).mount) ∧
    (¬Waits cfg ans state run.mount ->
      Moved m (if state = .remountingSigterm ∨ state = .remountingSigkill then .up else .down)
        (mountEnterSignal cfg ans state success run).mount) := by
  have after : SameTable m (run.update (.withResult success)).mount :=
    ⟨same.1, same.2, same.3, same.4⟩
  have answer : killProcesses cfg ans state (run.update (.withResult success)).mount =
      killProcesses cfg ans state run.mount := rfl
  have next (result : Bool) :
      Moved m (if state = .remountingSigterm ∨ state = .remountingSigkill then .up else .down)
        ((if state = .remountingSigterm ∨ state = .remountingSigkill then mountEnterMounted
          else mountEnterDead) result (run.update (.withResult success))).mount := by
    by_cases remounting : state = .remountingSigterm ∨ state = .remountingSigkill
    next =>
      rw [if_pos remounting, if_pos remounting]
      exact mountEnterMounted_moved _ after result
    next =>
      rw [if_neg remounting, if_neg remounting]
      exact mountEnterDead_moved _ after result
  rw [mountEnterSignal]
  simp only [answer]
  cases killed : killProcesses cfg ans state run.mount with
  | none => exact ⟨fun waits => by simp [Waits, killed] at waits, fun _ => next false⟩
  | some waiting =>
    cases waiting with
    | false => exact ⟨fun waits => by simp [Waits, killed] at waits, fun _ => next true⟩
    | true =>
      cases timer : (ans.kill state).timer with
      | false => exact ⟨fun waits => by simp [Waits, timer] at waits, fun _ => next false⟩
      | true =>
        refine ⟨fun _ => ?_, fun leaves => absurd ⟨killed, timer⟩ leaves⟩
        rw [← (place_busy state).mpr controlled]
        exact mountSetState_moved ((run.update (.withResult success)).update .arm)
          ⟨same.1, same.2, same.3, same.4⟩ state fun _ => pid

variable (ans) in
theorem enterControl_moved (run : Run) (same : SameTable m run.mount) (id : MountExecCommand)
    {failed : Run -> Run} {place : Place} (controlled : state.controlled = true)
    (fails : ∀ run : Run, SameTable m run.mount -> Moved m place (failed run).mount) :
    (ans.spawn id ≠ .failed -> Moved m .busy (enterControl ans id state failed run).mount) ∧
    (ans.spawn id = .failed -> Moved m place (enterControl ans id state failed run).mount) := by
  have begun : SameTable m
      (run.update fun m => { m.unwatchControlPid with controlCommandId := some id }).mount :=
    ⟨same.1, same.2, same.3, same.4⟩
  rw [enterControl]
  generalize run.update (fun m => { m.unwatchControlPid with controlCommandId := some id }) = run at begun
  cases spawned : ans.spawn id with
  | failed =>
    rw [mountSpawn, spawned]
    refine ⟨fun runs => absurd rfl runs, fun _ => fails (run.update .disarm) ?_⟩
    exact ⟨begun.1, begun.2, begun.3, begun.4⟩
  | forked pid pos =>
    have running : pid ≠ 0 := by
      rintro rfl
      exact absurd pos (by decide)
    have watched : SameTable m
        ((run.update .arm).update fun m => { m with controlPid := pid }).mount :=
      ⟨begun.1, begun.2, begun.3, begun.4⟩
    rw [mountSpawn, spawned, ← (place_busy state).mpr controlled]
    exact ⟨fun _ => mountSetState_moved _ watched state fun _ => running, fun fails => by cases fails⟩

end moves

end Systemd.Mounts
