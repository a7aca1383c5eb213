import Systemd.Engine.JobType

set_option autoImplicit false

namespace Systemd.Triggers

inductive TimerState where
  | dead
  | waiting
  | running
  | elapsed
  | failed
  deriving DecidableEq

def TimerState.active : TimerState -> UnitActiveState
  | .dead => .inactive
  | .waiting | .running | .elapsed => .active
  | .failed => .failed

inductive TimerBase where
  | active
  | boot
  | startup
  | unitActive
  | unitInactive
  deriving DecidableEq

def TimerBase.onUnit : TimerBase -> Bool
  | .unitActive | .unitInactive => true
  | .active | .boot | .startup => false

structure TimerValue where
  value : UInt64
  nextElapse : UInt64 := 0
  base : TimerBase
  disabled : Bool := false
  deriving DecidableEq

structure Timer (U : Type) where
  values : List TimerValue
  nextElapse : UInt64 := 18446744073709551615
  state : TimerState := .dead
  deserializedState : TimerState := .dead
  unit : Option U := none
  watch : Option UInt64 := none
  failure : Bool := false
  deriving DecidableEq

/-- The monotonic timestamps timer_enter_waiting reads: the present, when the timer itself was
started, when the manager was, and when the unit left and entered the inactive state. -/
structure Clocks where
  now : UInt64
  inactiveExit : UInt64
  startup : UInt64
  unitInactiveExit : UInt64
  unitInactiveEnter : UInt64

structure TimerAnswers where
  watch : Bool
  unitLoaded : Bool
  stopPending : Bool
  addJob : Bool

-- none stands for a value that is passed over, since the unit was never in that state.
def Clocks.base (clocks : Clocks) (state : TimerState) : TimerBase -> Option UInt64
  | .active => some (if state.active = .active then clocks.inactiveExit else clocks.now)
  | .boot => some 0
  | .startup => some clocks.startup
  | .unitActive => if clocks.unitInactiveExit ≤ 0 then none else some clocks.unitInactiveExit
  | .unitInactive => if clocks.unitInactiveEnter ≤ 0 then none else some clocks.unitInactiveEnter

def TimerValue.elapse (clocks : Clocks) (state : TimerState) (initial : Bool) (v : TimerValue) :
    TimerValue × Option UInt64 :=
  if v.disabled then
    (v, none)
  else
    match clocks.base state v.base with
    | none => (v, none)
    | some base =>
      let elapse := base + v.value
      if !initial && elapse < clocks.now then
        ({ v with nextElapse := elapse, disabled := true }, none)
      else
        ({ v with nextElapse := elapse }, some elapse)

def earliest : Option UInt64 -> Option UInt64 -> Option UInt64
  | next, none => next
  | none, some elapse => some elapse
  | some next, some elapse => some (min next elapse)

def elapseValues (clocks : Clocks) (state : TimerState) (initial : Bool) :
    Option UInt64 -> List TimerValue -> List TimerValue × Option UInt64
  | next, [] => ([], next)
  | next, v :: rest =>
    let (v, elapse) := v.elapse clocks state initial
    let (rest, next) := elapseValues clocks state initial (earliest next elapse) rest
    (v :: rest, next)

section

variable {U : Type}

def timerSetState (state : TimerState) (t : Timer U) : Timer U :=
  { t with state := state, watch := if state = .waiting then t.watch else none }

def timerEnterDead (success : Bool) (t : Timer U) : Timer U :=
  let t := { t with failure := t.failure || !success }
  timerSetState (if t.failure then .failed else .dead) t

def timerEnterWaiting (clocks : Clocks) (ans : TimerAnswers) (initial : Bool) (t : Timer U) :
    Timer U :=
  let (values, found) := elapseValues clocks t.state initial none t.values
  let t := { t with values := values }
  match found with
  | none => timerSetState .elapsed t
  | some next =>
    let t := { t with nextElapse := next }
    let delay := if clocks.now < next then next - clocks.now else 0
    if ans.watch then
      timerSetState .waiting { t with watch := some delay }
    else
      timerEnterDead false t

def timerEnterRunning (ans : TimerAnswers) (t : Timer U) : Timer U :=
  if ans.stopPending then
    t
  else if ans.addJob then
    timerSetState .running t
  else
    timerEnterDead false t

-- none stands for a failing assertion, the flag for whether the timer was started.
def timerStart (clocks : Clocks) (ans : TimerAnswers) (t : Timer U) : Option (Timer U × Bool) :=
  if t.state ≠ .dead ∧ t.state ≠ .failed then
    none
  else if ans.unitLoaded then
    some (timerEnterWaiting clocks ans true { t with failure := false }, true)
  else
    some (t, false)

def timerStop (t : Timer U) : Option (Timer U) :=
  if t.state ≠ .waiting ∧ t.state ≠ .running ∧ t.state ≠ .elapsed then
    none
  else
    some (timerEnterDead true t)

def timerTimerEvent (ans : TimerAnswers) (t : Timer U) : Timer U :=
  if t.state = .waiting then timerEnterRunning ans t else t

def timerColdplug (clocks : Clocks) (ans : TimerAnswers) (t : Timer U) : Option (Timer U) :=
  if t.state ≠ .dead then
    none
  else if t.deserializedState = t.state then
    some t
  else if t.deserializedState = .waiting then
    some (timerEnterWaiting clocks ans false t)
  else
    some (timerSetState t.deserializedState t)

def timerResetFailed (t : Timer U) : Timer U :=
  let t := if t.state = .failed then timerSetState .dead t else t
  { t with failure := false }

def TimerValue.reenable (v : TimerValue) : TimerValue :=
  if v.base.onUnit then { v with disabled := false } else v

-- The part of timer_unit_notify for one timer of the unit.
def timerUnitNotified (clocks : Clocks) (ans : TimerAnswers) (ns : UnitActiveState)
    (t : Timer U) : Timer U :=
  let t := { t with values := t.values.map .reenable }
  match t.state with
  | .waiting | .elapsed => timerEnterWaiting clocks ans false t
  | .running => if ns.isInactiveOrFailed then timerEnterWaiting clocks ans false t else t
  | .dead | .failed => t

@[simp] theorem timerSetState_state (state : TimerState) (t : Timer U) :
    (timerSetState state t).state = state := rfl

@[simp] theorem timerSetState_unit (state : TimerState) (t : Timer U) :
    (timerSetState state t).unit = t.unit := rfl

@[simp] theorem timerEnterDead_unit (success : Bool) (t : Timer U) :
    (timerEnterDead success t).unit = t.unit := rfl

variable (clocks : Clocks) (ans : TimerAnswers) (ns : UnitActiveState) (t : Timer U)

@[simp] theorem timerEnterDead_failure : (timerEnterDead false t).state = .failed := by
  simp [timerEnterDead]

@[simp] theorem timerEnterWaiting_unit (initial : Bool) (t : Timer U) :
    (timerEnterWaiting clocks ans initial t).unit = t.unit := by
  unfold timerEnterWaiting
  dsimp only
  split
  next => rfl
  next => split <;> rfl

theorem timerEnterWaiting_state (initial : Bool) (t : Timer U) :
    (timerEnterWaiting clocks ans initial t).state = .waiting ∨
      (timerEnterWaiting clocks ans initial t).state = .elapsed ∨
        (timerEnterWaiting clocks ans initial t).state = .failed := by
  unfold timerEnterWaiting
  dsimp only
  split
  next => simp
  next => split <;> simp

@[simp] theorem timerUnitNotified_unit : (timerUnitNotified clocks ans ns t).unit = t.unit := by
  unfold timerUnitNotified
  dsimp only
  split
  next => simp
  next => simp
  next => split <;> simp
  next => rfl
  next => rfl

theorem timerUnitNotified_left (left : t.state ≠ .running) :
    (timerUnitNotified clocks ans ns t).state ≠ .running := by
  have entered := timerEnterWaiting_state clocks ans false
    { t with values := t.values.map .reenable }
  unfold timerUnitNotified
  dsimp only
  split
  next => rcases entered with state | state | state <;> simp [state]
  next => rcases entered with state | state | state <;> simp [state]
  next running => exact absurd running left
  next => exact left
  next => exact left

theorem timerUnitNotified_leaves (stopped : ns.isInactiveOrFailed = true) :
    (timerUnitNotified clocks ans ns t).state ≠ .running := by
  have entered := timerEnterWaiting_state clocks ans false
    { t with values := t.values.map .reenable }
  by_cases running : t.state = .running
  next =>
    simp only [timerUnitNotified, running, stopped, if_true]
    rcases entered with state | state | state <;> simp_all
  next => exact timerUnitNotified_left clocks ans ns t running

end

end Systemd.Triggers
