import Systemd.Mounts.Follow

set_option autoImplicit false

namespace Systemd.Mounts

open Option

open Services (isCleanExit)

instance (cfg : Config) (ans : Answers) (state : MountState) (m : Mount) :
    Decidable (Waits cfg ans state m) :=
  inferInstanceAs (Decidable (_ ∧ _))

def Answers.forks (ans : Answers) (id : MountExecCommand) : Bool :=
  match ans.spawn id with
  | .forked _ _ => true
  | .failed => false

def ended (failure : Bool) : MountState :=
  if failure then .failed else .dead

def left (m : Mount) (failure : Bool) : MountState :=
  if m.fromProcSelfMountinfo then .mounted else ended failure

def exited (success : Bool) (m : Mount) : Option MountState :=
  match m.state with
  | .mounting | .mountingDone | .mountingSigkill | .mountingSigterm =>
    some (if success then .mounted else left m true)
  | .remounting | .remountingSigkill | .remountingSigterm => some (left m (m.failure || !success))
  | .unmounting | .unmountingSigkill | .unmountingSigterm =>
    some (if success then ended m.failure else left m true)
  | .dead | .mounted | .failed => none

def elapsed (cfg : Config) (ans : Answers) (m : Mount) : Option MountState :=
  match signalled cfg m.state with
  | some state =>
    some (if Waits cfg ans state m then state
      else if state = .remountingSigkill then .mounted
      else .failed)
  | none =>
    match m.state with
    | .remounting => some .mounted
    | .dead | .mounted | .failed => none
    | _ => some (left m true)

def stoppable : MountState -> Bool
  | .mounting | .mountingDone | .mounted | .remounting | .remountingSigterm | .remountingSigkill => true
  | _ => false

def told (cfg : Config) (ans : Answers) (m : Mount) : UnitEvent -> Option MountState
  | .start condition =>
    if m.state.place = .down ∧ condition = true then
      some (if (cfg.fromFragment || m.fromEtcFstab) && ans.forks .mount then .mounting
        else .failed)
    else none
  | .stop =>
    if stoppable m.state then
      some (if ans.forks .unmount then .unmounting else .mounted)
    else none
  | .reload =>
    if m.state = .mounted then
      some (if (cfg.fromFragment || m.fromEtcFstab) && ans.forks .remount then .remounting
        else .mounted)
    else none
  | .sigchld pid code status =>
    if 0 < pid ∧ pid = m.controlPid then exited (isCleanExit code status) m else none
  | .timer => if m.timer then elapsed cfg ans m else none
  | .resetFailed => if m.state = .failed then some .dead else none

def tableTold (m : Mount) : Option MountState :=
  if m.isMounted = false then
    some (if m.state = .mounted then ended m.failure else m.state)
  else if m.justMounted || m.justChanged then
    some (match m.state with
      | .dead | .failed => .mounted
      | .mounting => .mountingDone
      | state => state)
  else none

def Tells (m : Mount) (run : Run) (state : Option MountState) : Prop :=
  run.mount.state = state.getD m.state ∧ run.calls.map StateCall.new = state.toList

section tells

variable {m : Mount} {run : Run} {cfg : Config} {ans : Answers}

theorem Tells.stays : Tells m { mount := m } none :=
  ⟨rfl, rfl⟩

theorem mountSetState_tells (run : Run) (quiet : run.calls = []) (state : MountState) :
    Tells m (mountSetState state run) (some state) := by
  constructor
  · cases controlled : state.controlled <;>
      simp [mountSetState, Mount.setState, controlled, Mount.disarm, Mount.unwatchControlPid]
  · simp [mountSetState, quiet]

theorem mountEnterDead_tells (run : Run) (quiet : run.calls = []) (success : Bool) :
    Tells m (mountEnterDead success run) (some (ended (run.mount.failure || !success))) :=
  mountSetState_tells (run.update (.withResult success)) quiet _

theorem mountEnterMounted_tells (run : Run) (quiet : run.calls = []) (success : Bool) :
    Tells m (mountEnterMounted success run) (some .mounted) :=
  mountSetState_tells (run.update (.withResult success)) quiet _

theorem enterKnown_tells (run : Run) (quiet : run.calls = []) (success : Bool) :
    Tells m (enterKnown success run) (some (left run.mount (run.mount.failure || !success))) := by
  rw [enterKnown, left]
  cases run.mount.fromProcSelfMountinfo with
  | true => exact mountEnterMounted_tells run quiet success
  | false => exact mountEnterDead_tells run quiet success

variable (ans) in
theorem enterControl_tells (run : Run) (quiet : run.calls = []) (id : MountExecCommand) (state : MountState)
    {failed : Run -> Run} {otherwise : MountState}
    (fails : ∀ run : Run, run.calls = [] -> Tells m (failed run) (some otherwise)) :
    Tells m (enterControl ans id state failed run)
      (some (if ans.forks id then state else otherwise)) := by
  have begun :
      (run.update fun m => { m.unwatchControlPid with controlCommandId := some id }).calls = [] :=
    quiet
  rw [enterControl]
  generalize run.update (fun m => { m.unwatchControlPid with controlCommandId := some id }) = run at begun
  rw [mountSpawn, Answers.forks]
  cases ans.spawn id with
  | failed => exact fails (run.update .disarm) begun
  | forked pid pos =>
    exact mountSetState_tells ((run.update .arm).update fun m => { m with controlPid := pid }) begun
      state

variable (cfg ans) in
theorem mountEnterSignal_tells (run : Run) (quiet : run.calls = []) (state : MountState) :
    Tells m (mountEnterSignal cfg ans state false run)
      (some (if Waits cfg ans state run.mount then state
        else if state = .remountingSigterm ∨ state = .remountingSigkill then .mounted
        else .failed)) := by
  have next (success : Bool) :
      Tells m ((if state = .remountingSigterm ∨ state = .remountingSigkill then mountEnterMounted
          else mountEnterDead) success (run.update (.withResult false)))
        (some (if state = .remountingSigterm ∨ state = .remountingSigkill then .mounted
          else .failed)) := by
    by_cases remounting : state = .remountingSigterm ∨ state = .remountingSigkill
    next =>
      rw [if_pos remounting, if_pos remounting]
      exact mountEnterMounted_tells (run.update (.withResult false)) quiet success
    next =>
      rw [if_neg remounting, if_neg remounting]
      have dead := mountEnterDead_tells (m := m) (run.update (.withResult false)) quiet success
      simpa [Run.update, Mount.withResult, ended] using dead
  have answer : killProcesses cfg ans state (run.update (.withResult false)).mount =
      killProcesses cfg ans state run.mount := rfl
  simp only [mountEnterSignal, answer]
  cases killed : killProcesses cfg ans state run.mount with
  | none => simpa [Waits, killed] using next false
  | some waiting =>
    cases waiting with
    | false => simpa [Waits, killed] using next true
    | true =>
      cases timer : (ans.kill state).timer with
      | false => simpa [Waits, timer] using next false
      | true =>
        have told := mountSetState_tells (m := m)
          ((run.update (.withResult false)).update .arm) quiet state
        simpa [Waits, killed, timer] using told

variable (cfg ans) in
theorem mountEnterMounting_tells (run : Run) (quiet : run.calls = []) :
    Tells m (mountEnterMounting cfg ans run)
      (some (if (cfg.fromFragment || run.mount.fromEtcFstab) && ans.forks .mount then .mounting
        else .failed)) := by
  have dead (run : Run) (quiet : run.calls = []) :
      Tells m (mountEnterDead false run) (some .failed) := by
    simpa [ended] using mountEnterDead_tells (m := m) run quiet false
  rw [mountEnterMounting]
  cases cfg.fromFragment || run.mount.fromEtcFstab with
  | false => exact dead (run.update fun m => { m with controlCommandId := some .mount }) quiet
  | true => simpa using enterControl_tells ans run quiet .mount .mounting dead

variable (cfg ans) in
theorem mountEnterRemounting_tells (run : Run) (quiet : run.calls = []) :
    Tells m (mountEnterRemounting cfg ans true run)
      (some (if (cfg.fromFragment || run.mount.fromEtcFstab) && ans.forks .remount then .remounting
        else .mounted)) := by
  have fails (run : Run) (quiet : run.calls = []) : Tells m (remountFailed run) (some .mounted) :=
    mountEnterMounted_tells (run.update fun m => { m with reloadFailure := true }) quiet true
  have same : (run.update (.withResult true)).mount.fromEtcFstab = run.mount.fromEtcFstab := rfl
  rw [mountEnterRemounting, same]
  cases cfg.fromFragment || run.mount.fromEtcFstab with
  | false =>
    exact fails ((run.update (.withResult true)).update fun m =>
      { m with controlCommandId := some .remount }) quiet
  | true =>
    simpa using enterControl_tells ans (run.update (.withResult true)) quiet .remount .remounting fails

theorem start_tells (condition : Bool) (dispatched : dispatch cfg ans (.start condition) m = some run) :
    Tells m run (told cfg ans m (.start condition)) := by
  obtain ⟨⟨after, reply⟩, begun, rfl⟩ := map_eq_some_iff.mp dispatched
  rw [unitStart] at begun
  split_ifs at begun with active unmet
  next =>
    have up : m.state.place ≠ .down := by
      intro down
      obtain dead | failed := (place_down m.state).mp down
      next => simp [dead, MountState.active, UnitActiveState.isActiveOrReloading] at active
      next => simp [failed, MountState.active, UnitActiveState.isActiveOrReloading] at active
    cases begun
    simpa [told, up] using Tells.stays
  next =>
    cases begun
    simpa [told, unmet.2] using Tells.stays
  next =>
    cases state : m.state <;>
      simp only [mountStart, state, some.injEq, Prod.mk.injEq, reduceCtorEq] at begun
    case dead | failed =>
      have met : condition = true := by simpa [state, MountState.active] using unmet
      have entered := mountEnterMounting_tells (m := m) cfg ans
        ((Run.mk m []).update fun m => { m with failure := false }) rfl
      have same : ((Run.mk m []).update fun m => { m with failure := false }).mount.fromEtcFstab =
          m.fromEtcFstab := rfl
      rw [same] at entered
      rw [← begun.1]
      simpa [told, state, MountState.place, met] using entered
    all_goals
      rw [← begun.1]
      simpa [told, state, MountState.place] using Tells.stays

theorem stop_tells (dispatched : dispatch cfg ans .stop m = some run) :
    Tells m run (told cfg ans m .stop) := by
  obtain ⟨⟨after, reply⟩, begun, rfl⟩ := map_eq_some_iff.mp dispatched
  have entered : Tells m (mountEnterUnmounting ans true { mount := m })
      (some (if ans.forks .unmount then .unmounting else .mounted)) :=
    enterControl_tells ans ((Run.mk m []).update (.withResult true)) rfl .unmount .unmounting
      fun run quiet => mountEnterMounted_tells run quiet false
  rw [unitStop] at begun
  split_ifs at begun with inactive
  next =>
    cases begun
    cases state : m.state <;>
      simp only [state, MountState.active, UnitActiveState.isInactiveOrFailed] at inactive
    case dead | failed => simpa [told, stoppable, state] using Tells.stays
    all_goals simp at inactive
  next =>
    cases state : m.state <;>
      simp only [mountStop, state, some.injEq, Prod.mk.injEq, reduceCtorEq] at begun
    case mounting | mountingDone | mounted | remounting | remountingSigterm | remountingSigkill =>
      rw [← begun.1]
      simpa [told, stoppable, state] using entered
    all_goals
      rw [← begun.1]
      simpa [told, stoppable, state] using Tells.stays

theorem reload_tells (dispatched : dispatch cfg ans .reload m = some run) :
    Tells m run (told cfg ans m .reload) := by
  obtain ⟨⟨after, reply⟩, begun, rfl⟩ := map_eq_some_iff.mp dispatched
  rw [unitReload] at begun
  split_ifs at begun with reloading inactive
  next =>
    have up : m.state ≠ .mounted := by
      intro mounted
      simp [mounted, MountState.active] at reloading
    cases begun
    simpa [told, up] using Tells.stays
  next =>
    have up : m.state ≠ .mounted := by
      intro mounted
      simp [mounted, MountState.active] at inactive
    cases begun
    simpa [told, up] using Tells.stays
  next =>
    cases state : m.state <;>
      simp only [mountReload, state, some.injEq, Prod.mk.injEq, reduceCtorEq] at begun
    case mountingDone =>
      rw [← begun.1]
      simpa [told, state] using Tells.stays
    case mounted =>
      rw [← begun.1]
      simpa [told, state] using mountEnterRemounting_tells (m := m) cfg ans { mount := m } rfl

theorem controlGone_tells {success : Bool} {before after : Run} (quiet : before.calls = [])
    (gone : controlGone success before = some after) (failure : before.mount.failure = (m.failure || !success))
    (known : before.mount.fromProcSelfMountinfo = m.fromProcSelfMountinfo)
    (state : before.mount.state = m.state) : Tells m after (exited success m) := by
  have failed := enterKnown_tells (m := m) before quiet false
  have remounted := enterKnown_tells (m := m)
    (before.update fun m => { m with reloadFailure := !success }) quiet true
  have dead := mountEnterDead_tells (m := m) before quiet true
  rw [controlGone, state] at gone
  cases mounting : m.state <;> simp only [mounting, reduceCtorEq] at gone
  all_goals
    cases gone
    cases success
  all_goals first
    | exact by simpa [exited, mounting, left, known, failure] using failed
    | exact by simpa [exited, mounting, left, known, failure, Run.update] using remounted
    | exact by simpa [exited, mounting] using mountEnterMounted_tells (m := m) before quiet true
    | exact by simpa [exited, mounting, failure] using dead

theorem sigchld_tells {pid code status : Int32}
    (dispatched : dispatch cfg ans (.sigchld pid code status) m = some run) :
    Tells m run (told cfg ans m (.sigchld pid code status)) := by
  simp only [dispatch, mountSigchldEvent] at dispatched
  split_ifs at dispatched with pos other
  next =>
    cases dispatched
    simpa [told, other] using Tells.stays
  next =>
    have mine : pid = m.controlPid := not_not.mp other
    rw [told, if_pos ⟨pos, mine⟩]
    exact controlGone_tells rfl dispatched rfl rfl rfl
  next =>
    cases dispatched
    simpa [told, pos] using Tells.stays

theorem timer_tells (dispatched : dispatch cfg ans .timer m = some run) :
    Tells m run (told cfg ans m .timer) := by
  simp only [dispatch] at dispatched
  split_ifs at dispatched with armed
  next =>
    rw [told, if_pos armed]
    obtain ⟨target, signals, ordinary, rfl⟩ | ⟨remounting, rfl⟩ | ⟨silent, ordinary, rfl⟩ :=
      mountTimerEvent_cases dispatched
    next =>
      have signals : signalled cfg m.state = some target := signals
      have plain := (signalled_controlled signals).2
      have entered := mountEnterSignal_tells (m := m) cfg ans { mount := m.disarm } rfl target
      have waits : Waits cfg ans target m.disarm ↔ Waits cfg ans target m := Iff.rfl
      simpa only [elapsed, signals, plain, waits, false_or] using entered
    next =>
      have remounting : m.state = .remounting := remounting
      have entered : Tells m (remountFailed { mount := m.disarm }) (some .mounted) :=
        mountEnterMounted_tells ((Run.mk m.disarm []).update fun m => { m with reloadFailure := true }) rfl
          true
      simpa [elapsed, remounting, signalled] using entered
    next =>
      have silent : signalled cfg m.state = none := silent
      have entered : Tells m (enterKnown false { mount := m.disarm }) (some (left m true)) := by
        simpa [left, Mount.disarm] using enterKnown_tells (m := m) { mount := m.disarm } rfl false
      rw [elapsed, silent]
      cases state : m.state with
      | dead => simp [mountTimerEvent, Mount.disarm, state] at dispatched
      | mounted => simp [mountTimerEvent, Mount.disarm, state] at dispatched
      | failed => simp [mountTimerEvent, Mount.disarm, state] at dispatched
      | remounting => exact absurd state ordinary
      | _ => exact entered
  next =>
    cases dispatched
    simpa [told, armed] using Tells.stays

theorem resetFailed_tells (dispatched : dispatch cfg ans .resetFailed m = some run) :
    Tells m run (told cfg ans m .resetFailed) := by
  cases dispatched
  by_cases failed : m.state = .failed
  next =>
    have reset := mountSetState_tells (m := m) { mount := m } rfl .dead
    simpa [told, mountResetFailed, failed, Tells, Run.update] using reset
  next => simp [told, mountResetFailed, failed, Tells, Run.update]

theorem dispatch_tells {event : UnitEvent} (dispatched : dispatch cfg ans event m = some run) :
    Tells m run (told cfg ans m event) := by
  cases event with
  | start condition => exact start_tells condition dispatched
  | stop => exact stop_tells dispatched
  | reload => exact reload_tells dispatched
  | sigchld pid code status => exact sigchld_tells dispatched
  | timer => exact timer_tells dispatched
  | resetFailed => exact resetFailed_tells dispatched

theorem followTable_tells (m : Mount) : Tells m (followTable m) (tableTold m) := by
  have dead := mountEnterDead_tells (m := m) { mount := { m with fromProcSelfMountinfo := false } } rfl true
  have kept (after : Mount) := mountSetState_tells (m := m) { mount := after } rfl m.state
  have mounted := mountEnterMounted_tells (m := m) { mount := m } rfl true
  have done := mountSetState_tells (m := m) { mount := m } rfl .mountingDone
  rw [followTable, tableTold]
  split_ifs with absent up new
  next => simpa [up] using dead
  next =>
    cases state : m.state with
    | mounted => exact absurd state up
    | _ => simpa [state] using kept { m with fromProcSelfMountinfo := false }
  next =>
    cases state : m.state with
    | dead => exact mounted
    | failed => exact mounted
    | mounting => exact done
    | _ => simpa [state] using kept m
  next => exact Tells.stays

end tells

end Systemd.Mounts
