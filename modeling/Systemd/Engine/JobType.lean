import Mathlib.Data.Fintype.Basic

set_option autoImplicit false

namespace Systemd

inductive JobType where
  | start
  | verifyActive
  | stop
  | reload
  | reloadOrStart
  | restart
  | tryRestart
  deriving DecidableEq

instance : Fintype JobType where
  elems := {.start, .verifyActive, .stop, .reload, .reloadOrStart, .restart, .tryRestart}
  complete := by intro type; cases type <;> decide

inductive JobState where
  | waiting
  | running
  deriving DecidableEq

inductive JobMode where
  | fail
  | replace
  | isolate
  | ignoreDependencies
  | ignoreRequirements
  deriving DecidableEq

inductive JobResult where
  | done
  | canceled
  | timeout
  | failed
  | dependency
  | skipped
  deriving DecidableEq

inductive UnitActiveState where
  | active
  | reloading
  | inactive
  | failed
  | activating
  | deactivating
  deriving DecidableEq

instance : Fintype UnitActiveState where
  elems := {.active, .reloading, .inactive, .failed, .activating, .deactivating}
  complete := by intro state; cases state <;> decide

namespace UnitActiveState

def isActiveOrReloading (state : UnitActiveState) : Bool :=
  state == .active || state == .reloading

def isActiveOrActivating (state : UnitActiveState) : Bool :=
  state == .active || state == .activating || state == .reloading

def isInactiveOrDeactivating (state : UnitActiveState) : Bool :=
  state == .inactive || state == .failed || state == .deactivating

def isInactiveOrFailed (state : UnitActiveState) : Bool :=
  state == .inactive || state == .failed

end UnitActiveState

def typesMatch (a b c d : JobType) : Bool :=
  (a == c && b == d) || (a == d && b == c)

-- `none` is the -EEXIST return, which leaves the caller's type as it was.
def jobTypeMerge (a b : JobType) : Option JobType :=
  if a = b then some a
  else if typesMatch a b .start .verifyActive then some .start
  else if typesMatch a b .start .reload ||
      typesMatch a b .start .reloadOrStart ||
      typesMatch a b .verifyActive .reloadOrStart ||
      typesMatch a b .reload .reloadOrStart then some .reloadOrStart
  else if typesMatch a b .start .restart ||
      typesMatch a b .start .tryRestart ||
      typesMatch a b .verifyActive .restart ||
      typesMatch a b .reload .restart ||
      typesMatch a b .reloadOrStart .restart ||
      typesMatch a b .reloadOrStart .tryRestart ||
      typesMatch a b .restart .tryRestart then some .restart
  else if typesMatch a b .verifyActive .reload then some .reload
  else if typesMatch a b .verifyActive .tryRestart ||
      typesMatch a b .reload .tryRestart then some .tryRestart
  else none

def jobTypeIsMergeable (a b : JobType) : Bool :=
  (jobTypeMerge a b).isSome

def jobTypeIsSuperset (a b : JobType) : Bool :=
  a == b ||
    match a with
    | .start => b == .verifyActive
    | .reload => b == .verifyActive
    | .reloadOrStart => b == .reload || b == .start || b == .verifyActive
    | .restart =>
      b == .start || b == .verifyActive || b == .reload || b == .reloadOrStart || b == .tryRestart
    | .tryRestart => b == .verifyActive || b == .reload
    | .verifyActive | .stop => false

def jobTypeIsConflicting (a b : JobType) : Bool :=
  (a == .stop) != (b == .stop)

def jobTypeIsRedundant (a : JobType) (b : UnitActiveState) : Bool :=
  match a with
  | .start | .verifyActive => b == .active || b == .reloading
  | .stop => b == .inactive || b == .failed
  | .reload => b == .reloading
  | .reloadOrStart => b == .activating || b == .reloading
  | .restart | .tryRestart => b == .activating

variable (a b : JobType)

theorem jobTypeIsSuperset_refl : jobTypeIsSuperset a a = true := by
  simp [jobTypeIsSuperset]

theorem jobTypeIsSuperset_trans (c : JobType) (upper : jobTypeIsSuperset a b = true)
    (lower : jobTypeIsSuperset b c = true) : jobTypeIsSuperset a c = true := by
  revert a b c
  decide

theorem jobTypeMerge_superset (t : JobType) (merged : jobTypeMerge a b = some t) :
    jobTypeIsSuperset t a = true ∧ jobTypeIsSuperset t b = true := by
  revert a b t
  decide

theorem jobTypeMerge_isSome_iff :
    (jobTypeMerge a b).isSome = true ↔ jobTypeIsConflicting a b = false := by
  revert a b
  decide

theorem jobTypeIsMergeable_iff : jobTypeIsMergeable a b = true ↔ jobTypeIsConflicting a b = false :=
  jobTypeMerge_isSome_iff a b

end Systemd
