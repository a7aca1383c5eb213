import Systemd.Mounts.Listing
import Systemd.Mounts.Moves
import Systemd.Shared.Reached

set_option autoImplicit false

namespace Systemd.Mounts

open Option

open Services (isCleanExit)

def signalled (cfg : Config) : MountState -> Option MountState
  | .mounting | .mountingDone => some .mountingSigterm
  | .unmounting => some .unmountingSigterm
  | .mountingSigterm => if cfg.sendSigkill then some .mountingSigkill else none
  | .remountingSigterm => if cfg.sendSigkill then some .remountingSigkill else none
  | .unmountingSigterm => if cfg.sendSigkill then some .unmountingSigkill else none
  | _ => none

def Mounting (state : MountState) : Prop :=
  state = .mounting ∨ state = .mountingDone ∨ state = .mountingSigterm ∨ state = .mountingSigkill

def Unmounting (state : MountState) : Prop :=
  state = .unmounting ∨ state = .unmountingSigterm ∨ state = .unmountingSigkill

/-- The unit does not take a result for granted that the table contradicts: the exit of a process that
counts as clean, an umount that cannot be run, a remount that takes too long, or that there is no
process to wait for. -/
def UnitRegular (cfg : Config) (ans : Answers) (m : Mount) : UnitEvent -> Prop
  | .stop =>
    m.state.place ≠ .down -> ¬Unmounting m.state -> m.state ≠ .mountingSigterm ->
      m.state ≠ .mountingSigkill -> ans.spawn .unmount = .failed ->
      m.fromProcSelfMountinfo = true
  | .sigchld pid code status =>
    0 < pid -> pid = m.controlPid -> isCleanExit code status = true ->
      (Mounting m.state -> m.fromProcSelfMountinfo = true) ∧
        (Unmounting m.state -> m.fromProcSelfMountinfo = false)
  | .timer =>
    m.timer = true ->
      (m.state = .remounting -> m.fromProcSelfMountinfo = true) ∧
        ∀ state, signalled cfg m.state = some state -> ¬Waits cfg ans state m ->
          m.fromProcSelfMountinfo = decide (state = .remountingSigkill)
  | .start _ | .reload | .resetFailed => True

section

variable {cfg : Config} {ans : Answers} {m : Mount} {run : Run}

def Leads (cfg : Config) (ans : Answers) (m : Mount) (event : UnitEvent) (after : Mount) : Prop :=
  ∃ place, Moved m place after ∧
    (Agrees m.state.place m.fromProcSelfMountinfo ->
      (UnitRegular cfg ans m event ↔ Agrees place m.fromProcSelfMountinfo))

variable {event : UnitEvent} {known : Bool} {state : MountState}

theorem leads_stays (sound : Sound m)
    (regular : Agrees m.state.place m.fromProcSelfMountinfo -> UnitRegular cfg ans m event) :
    Leads cfg ans m event m :=
  ⟨m.state.place, Moved.stays sound, fun agrees => ⟨fun _ => agrees, fun _ => regular agrees⟩⟩

theorem agrees_up : Agrees .up known ↔ known = true := by
  simp [Agrees]

theorem agrees_down : Agrees .down known ↔ known = false := by
  simp [Agrees]

theorem agrees_busy : Agrees .busy known := by
  simp [Agrees]

theorem leads_moved {place : Place} {after : Mount} (moved : Moved m place after)
    (regular : UnitRegular cfg ans m event)
    (agrees : Agrees m.state.place m.fromProcSelfMountinfo -> Agrees place m.fromProcSelfMountinfo) :
    Leads cfg ans m event after :=
  ⟨place, moved, fun before => ⟨fun _ => agrees before, fun _ => regular⟩⟩

variable (cfg ans) in
theorem mountEnterMounting_moved (run : Run) (same : SameTable m run.mount) :
    ∃ place, (place = .busy ∨ place = .down) ∧
      Moved m place (mountEnterMounting cfg ans run).mount := by
  rw [mountEnterMounting]
  cases cfg.fromFragment || run.mount.fromEtcFstab with
  | false =>
    rw [if_neg Bool.false_ne_true]
    exact ⟨.down, Or.inr rfl, mountEnterDead_moved
      (run.update fun m => { m with controlCommandId := some .mount })
      ⟨same.1, same.2, same.3, same.4⟩ false⟩
  | true =>
    have entered := enterControl_moved ans run same .mount (rfl : MountState.mounting.controlled = true)
      fun run same => mountEnterDead_moved run same false
    by_cases spawned : ans.spawn .mount = .failed
    next => exact ⟨.down, Or.inr rfl, entered.2 spawned⟩
    next => exact ⟨.busy, Or.inl rfl, entered.1 spawned⟩

variable (cfg ans) in
theorem mountEnterRemounting_moved (run : Run) (same : SameTable m run.mount) (success : Bool) :
    ∃ place, (place = .busy ∨ place = .up) ∧
      Moved m place (mountEnterRemounting cfg ans success run).mount := by
  have after : SameTable m (run.update (.withResult success)).mount :=
    ⟨same.1, same.2, same.3, same.4⟩
  rw [mountEnterRemounting]
  cases cfg.fromFragment || (run.update (.withResult success)).mount.fromEtcFstab with
  | false =>
    rw [if_neg Bool.false_ne_true]
    exact ⟨.up, Or.inr rfl, remountFailed_moved
      ((run.update (.withResult success)).update fun m => { m with controlCommandId := some .remount })
      ⟨same.1, same.2, same.3, same.4⟩⟩
  | true =>
    have entered := enterControl_moved ans _ after .remount
      (rfl : MountState.remounting.controlled = true) fun run same => remountFailed_moved run same
    by_cases spawned : ans.spawn .remount = .failed
    next => exact ⟨.up, Or.inr rfl, entered.2 spawned⟩
    next => exact ⟨.busy, Or.inl rfl, entered.1 spawned⟩

theorem mountStart_cases {reply : Reply} (begun : mountStart cfg ans { mount := m } = some (run, reply)) :
    run.mount = m ∨ m.state.place = .down ∧
      run = mountEnterMounting cfg ans
        ((Run.mk m []).update fun m => { m with failure := false }) := by
  cases state : m.state <;> simp only [mountStart, state, some.injEq, Prod.mk.injEq, reduceCtorEq] at begun
  all_goals first
    | exact Or.inl (begun.1 ▸ rfl)
    | exact Or.inr ⟨rfl, begun.1.symm⟩

theorem start_leads (condition : Bool) (sound : Sound m)
    (dispatched : dispatch cfg ans (.start condition) m = some run) :
    Leads cfg ans m (.start condition) run.mount := by
  obtain ⟨⟨after, reply⟩, begun, rfl⟩ := map_eq_some_iff.mp dispatched
  rw [unitStart] at begun
  split_ifs at begun
  next => cases begun; exact leads_stays sound fun _ => trivial
  next => cases begun; exact leads_stays sound fun _ => trivial
  next =>
    obtain same | ⟨down, rfl⟩ := mountStart_cases begun
    next => rw [same]; exact leads_stays sound fun _ => trivial
    next =>
      obtain ⟨place, left, moved⟩ := mountEnterMounting_moved (m := m) cfg ans
        ((Run.mk m []).update fun m => { m with failure := false })
        ⟨rfl, rfl, rfl, rfl⟩
      refine leads_moved moved trivial fun agrees => ?_
      obtain rfl | rfl := left
      next => exact agrees_busy
      next => rwa [down] at agrees

theorem reload_leads (sound : Sound m) (dispatched : dispatch cfg ans .reload m = some run) :
    Leads cfg ans m .reload run.mount := by
  obtain ⟨⟨after, reply⟩, begun, rfl⟩ := map_eq_some_iff.mp dispatched
  rw [unitReload] at begun
  split_ifs at begun
  next => cases begun; exact leads_stays sound fun _ => trivial
  next => cases begun; exact leads_stays sound fun _ => trivial
  next =>
    cases state : m.state <;> simp only [mountReload, state, some.injEq, Prod.mk.injEq, reduceCtorEq] at begun
    case mountingDone =>
      rw [← begun.1]
      exact leads_stays sound fun _ => trivial
    case mounted =>
      rw [← begun.1]
      obtain ⟨place, left, moved⟩ := mountEnterRemounting_moved (m := m) cfg ans { mount := m } (SameTable.refl m) true
      refine leads_moved moved trivial fun agrees => ?_
      obtain rfl | rfl := left
      next => exact agrees_busy
      next => simpa [state, MountState.place] using agrees

theorem resetFailed_leads (sound : Sound m) (dispatched : dispatch cfg ans .resetFailed m = some run) :
    Leads cfg ans m .resetFailed run.mount := by
  cases dispatched
  by_cases failed : m.state = .failed
  next =>
    have moved : Moved m .down (mountResetFailed { mount := m }).mount := by
      have dead := mountSetState_moved { mount := m } (SameTable.refl m) .dead
        (by simp [MountState.controlled])
      simp only [mountResetFailed, failed, if_true]
      exact ⟨dead.place, dead.sound, ⟨dead.table.1, dead.table.2, dead.table.3, dead.table.4⟩⟩
    refine leads_moved moved trivial fun agrees => ?_
    simpa [failed, MountState.place] using agrees
  next =>
    have moved : Moved m m.state.place (mountResetFailed { mount := m }).mount := by
      simp only [mountResetFailed, failed, if_false]
      exact ⟨rfl, sound, ⟨rfl, rfl, rfl, rfl⟩⟩
    exact leads_moved moved trivial id

theorem mountStop_cases {reply : Reply} (begun : mountStop ans { mount := m } = some (run, reply)) :
    run.mount = m ∧ m.state.place = .busy ∧
        (Unmounting m.state ∨ m.state = .mountingSigterm ∨ m.state = .mountingSigkill) ∨
      run = mountEnterUnmounting ans true { mount := m } ∧ m.state.place ≠ .down ∧
        ¬Unmounting m.state ∧ m.state ≠ .mountingSigterm ∧ m.state ≠ .mountingSigkill := by
  cases state : m.state <;>
    simp only [mountStop, state, some.injEq, Prod.mk.injEq, reduceCtorEq] at begun
  all_goals first
    | exact Or.inl ⟨begun.1 ▸ rfl, rfl, by simp [Unmounting]⟩
    | exact Or.inr ⟨begun.1.symm, by simp [MountState.place, Unmounting]⟩

theorem stop_leads (sound : Sound m) (dispatched : dispatch cfg ans .stop m = some run) :
    Leads cfg ans m .stop run.mount := by
  obtain ⟨⟨after, reply⟩, begun, rfl⟩ := map_eq_some_iff.mp dispatched
  have entered := enterControl_moved ans ((Run.mk m []).update (.withResult true)) (m := m)
    ⟨rfl, rfl, rfl, rfl⟩ .unmount (rfl : MountState.unmounting.controlled = true)
    fun run same => mountEnterMounted_moved run same false
  have unmounts (busy : m.state.place ≠ .down) (mounting : ¬Unmounting m.state)
      (term : m.state ≠ .mountingSigterm) (kill : m.state ≠ .mountingSigkill) :
      Leads cfg ans m .stop (mountEnterUnmounting ans true { mount := m }).mount := by
    by_cases spawned : ans.spawn .unmount = .failed
    next =>
      refine ⟨.up, entered.2 spawned, fun _ => ?_⟩
      simp [UnitRegular, busy, mounting, term, kill, spawned, agrees_up]
    next =>
      refine ⟨.busy, entered.1 spawned, fun _ => ?_⟩
      simp [UnitRegular, spawned, agrees_busy]
  rw [unitStop] at begun
  split_ifs at begun with inactive
  next =>
    cases begun
    refine leads_stays sound fun _ down => ?_
    cases state : m.state <;> simp_all [MountState.active, UnitActiveState.isInactiveOrFailed, MountState.place]
  next =>
    obtain ⟨same, -, already⟩ | ⟨rfl, busy, mounting, term, kill⟩ := mountStop_cases begun
    next =>
      rw [same]
      refine leads_stays sound fun _ _ mounting term kill => ?_
      obtain unmounting | sigterm | sigkill := already
      next => exact absurd unmounting mounting
      next => exact absurd sigterm term
      next => exact absurd sigkill kill
    next => exact unmounts busy mounting term kill

theorem controlGone_moved {success : Bool} {before after : Run} (same : SameTable m before.mount)
    (state : before.mount.state = m.state) (gone : controlGone success before = some after) :
    (success = true ∧ Mounting m.state ∧ Moved m .up after.mount) ∨
      (success = true ∧ Unmounting m.state ∧ Moved m .down after.mount) ∨
      (¬(success = true ∧ (Mounting m.state ∨ Unmounting m.state)) ∧
        Moved m (if m.fromProcSelfMountinfo then .up else .down) after.mount) := by
  have known (success : Bool) := enterKnown_moved before same success
  have remounted := enterKnown_moved (before.update fun m => { m with reloadFailure := !success })
    ⟨same.1, same.2, same.3, same.4⟩ true
  rw [controlGone, state] at gone
  cases mounting : m.state <;> simp only [mounting, reduceCtorEq] at gone
  all_goals
    cases gone
    cases success
  all_goals first
    | exact Or.inr (Or.inr ⟨by simp, known false⟩)
    | exact Or.inr (Or.inr ⟨by simp [Mounting, Unmounting], remounted⟩)
    | exact Or.inl ⟨rfl, by simp [Mounting], mountEnterMounted_moved before same true⟩
    | exact Or.inr (Or.inl ⟨rfl, by simp [Unmounting], mountEnterDead_moved before same true⟩)

theorem agrees_known (known : Bool) : Agrees (if known then .up else .down) known := by
  cases known <;> simp [Agrees]

theorem mounting_unmounting (mounting : Mounting state) : ¬Unmounting state := by
  obtain rfl | rfl | rfl | rfl := mounting <;> simp [Unmounting]

theorem sigchld_leads {pid code status : Int32} (sound : Sound m)
    (dispatched : dispatch cfg ans (.sigchld pid code status) m = some run) :
    Leads cfg ans m (.sigchld pid code status) run.mount := by
  simp only [dispatch, mountSigchldEvent] at dispatched
  split_ifs at dispatched with pos other
  next =>
    cases dispatched
    exact leads_stays sound fun _ _ mine => absurd mine other
  next =>
    have mine : pid = m.controlPid := not_not.mp other
    obtain ⟨clean, mounting, moved⟩ | ⟨clean, unmounting, moved⟩ | ⟨asks, moved⟩ :=
      controlGone_moved (m := m) ⟨rfl, rfl, rfl, rfl⟩ rfl dispatched
    next =>
      refine ⟨.up, moved, fun _ => ?_⟩
      have busy := mounting_unmounting mounting
      simp [UnitRegular, pos, ← mine, clean, mounting, busy, agrees_up]
    next =>
      refine ⟨.down, moved, fun _ => ?_⟩
      have busy : ¬Mounting m.state := fun mounting => mounting_unmounting mounting unmounting
      simp [UnitRegular, pos, ← mine, clean, unmounting, busy, agrees_down]
    next =>
      refine leads_moved moved (fun _ _ clean => ?_) fun _ => agrees_known _
      exact ⟨fun mounting => absurd ⟨clean, Or.inl mounting⟩ asks,
        fun unmounting => absurd ⟨clean, Or.inr unmounting⟩ asks⟩
  next =>
    cases dispatched
    exact leads_stays sound fun _ now => absurd now pos

theorem signalled_controlled {target : MountState} (signals : signalled cfg state = some target) :
    target.controlled = true ∧ target ≠ .remountingSigterm := by
  cases state <;> simp only [signalled, reduceCtorEq, some.injEq, ite_none_right_eq_some] at signals
  all_goals first
    | exact signals ▸ ⟨rfl, by decide⟩
    | exact signals.2 ▸ ⟨rfl, by decide⟩

theorem mountTimerEvent_cases {before after : Run} (elapsed : mountTimerEvent cfg ans before = some after) :
    (∃ target, signalled cfg before.mount.state = some target ∧ before.mount.state ≠ .remounting ∧
        after = mountEnterSignal cfg ans target false before) ∨
      (before.mount.state = .remounting ∧ after = remountFailed before) ∨
      (signalled cfg before.mount.state = none ∧ before.mount.state ≠ .remounting ∧
        after = enterKnown false before) := by
  rw [mountTimerEvent] at elapsed
  cases state : before.mount.state <;> simp only [state, reduceCtorEq] at elapsed
  all_goals
    cases elapsed
    cases sigkill : cfg.sendSigkill <;> simp [signalled, sigkill]

theorem timer_leads (sound : Sound m) (dispatched : dispatch cfg ans .timer m = some run) :
    Leads cfg ans m .timer run.mount := by
  simp only [dispatch] at dispatched
  split_ifs at dispatched with armed
  next =>
    have same : SameTable m m.disarm := ⟨rfl, rfl, rfl, rfl⟩
    have idle : signalled cfg m.disarm.state = signalled cfg m.state := rfl
    obtain ⟨target, signals, ordinary, rfl⟩ | ⟨remounting, rfl⟩ | ⟨silent, ordinary, rfl⟩ :=
      mountTimerEvent_cases dispatched
    next =>
      obtain ⟨controlled, plain⟩ := signalled_controlled signals
      have busy : m.state.place = .busy := by
        cases state : m.state <;> simp_all [signalled, MountState.place, Mount.disarm]
      have running : m.controlPid ≠ 0 := by
        intro gone
        exact (sound.mp gone) busy
      have entered := mountEnterSignal_moved cfg ans { mount := m.disarm } same running controlled
        false
      have waits : Waits cfg ans target m.disarm ↔ Waits cfg ans target m := Iff.rfl
      by_cases waiting : Waits cfg ans target m
      next =>
        refine leads_moved (entered.1 waiting) (fun _ => ⟨?_, ?_⟩) fun _ => agrees_busy
        next => exact fun remounting => absurd remounting ordinary
        next =>
          intro state again leaves
          rw [idle] at signals
          cases signals.symm.trans again
          exact absurd waiting leaves
      next =>
        refine ⟨_, entered.2 waiting, fun _ => ?_⟩
        rw [idle] at signals
        have ordinary : m.state ≠ .remounting := ordinary
        by_cases sigkill : target = .remountingSigkill
        next =>
          subst sigkill
          simp [UnitRegular, armed, ordinary, signals, waiting, agrees_up]
        next =>
          simp [UnitRegular, armed, ordinary, signals, waiting, sigkill, plain, agrees_down]
    next =>
      refine ⟨.up, remountFailed_moved { mount := m.disarm } same, fun _ => ?_⟩
      have remounting : m.state = .remounting := remounting
      simp [UnitRegular, armed, remounting, signalled, agrees_up]
    next =>
      have ordinary : m.state ≠ .remounting := ordinary
      have silent : signalled cfg m.state = none := silent
      refine leads_moved (enterKnown_moved { mount := m.disarm } same false) ?_ fun _ => agrees_known _
      simp [UnitRegular, ordinary, silent]
  next =>
    cases dispatched
    exact leads_stays sound fun _ now => absurd now armed

theorem dispatch_leads (sound : Sound m) (dispatched : dispatch cfg ans event m = some run) :
    Leads cfg ans m event run.mount := by
  cases event with
  | start condition => exact start_leads condition sound dispatched
  | stop => exact stop_leads sound dispatched
  | reload => exact reload_leads sound dispatched
  | sigchld pid code status => exact sigchld_leads sound dispatched
  | timer => exact timer_leads sound dispatched
  | resetFailed => exact resetFailed_leads sound dispatched

end

end Systemd.Mounts
