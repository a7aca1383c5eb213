import Systemd.Triggers.PathUnit
import Systemd.Triggers.Timer
import Systemd.Units.Registry

set_option autoImplicit false

namespace Systemd.Triggers

open Function

-- The names of a unit have been found valid, so they have a dot.
def unitNameChangeSuffix (name suffix : CString) : CString :=
  .ofBuffer (name.bytes.take ((strrchr name.bytes '.'.toUInt8).getD 0) ++ suffix.bytes)

structure Times where
  inactiveExit : UInt64 := 0
  inactiveEnter : UInt64 := 0
  activeEnter : UInt64 := 0
  activeExit : UInt64 := 0

def Times.stamp (now : UInt64) (os ns : UnitActiveState) (times : Times) : Times :=
  let times :=
    if os.isInactiveOrFailed && !ns.isInactiveOrFailed then { times with inactiveExit := now }
    else if !os.isInactiveOrFailed && ns.isInactiveOrFailed then { times with inactiveEnter := now }
    else times
  if !os.isActiveOrReloading && ns.isActiveOrReloading then { times with activeEnter := now }
  else if os.isActiveOrReloading && !ns.isActiveOrReloading then { times with activeExit := now }
  else times

structure World (U : Type) where
  registry : Registry U
  nReloading : Nat
  startup : UInt64
  times : U -> Times
  timer : U -> Timer U
  path : U -> PathUnit U
  started : U -> Nat

/-- What is answered while one timer is notified, and the time at which its own state is reported. -/
structure TimerVisit where
  now : UInt64
  reported : UInt64
  answers : TimerAnswers

/-- What is answered while one path is notified, and while its own state is reported: to the timers
that have the path as their unit. -/
structure PathVisit where
  answers : PathAnswers
  reported : UInt64
  timers : CString -> TimerVisit

/-- The answers for one unit_notify, by the name of the unit that led to the timer or path. -/
structure Visits where
  reported : UInt64
  timers : CString -> TimerVisit
  paths : CString -> PathVisit

namespace World

variable {U : Type} [DecidableEq U]

-- The suffix of a name is the type of its unit, so TIMER() and PATH() do not fail.
def lookup (w : World U) (type : UnitType) (name : CString) : Option U :=
  (w.registry.units.get (unitNameChangeSuffix name type.suffix)).filter fun t =>
    w.registry.type t = some type ∧ w.registry.loadState t = .loaded

def stamp (w : World U) (u : U) (now : UInt64) (os ns : UnitActiveState) : World U :=
  { w with times := update w.times u ((w.times u).stamp now os ns) }

def clocks (w : World U) (t u : U) (now : UInt64) : Clocks where
  now := now
  inactiveExit := (w.times t).inactiveExit
  startup := w.startup
  unitInactiveExit := (w.times u).inactiveExit
  unitInactiveEnter := (w.times u).inactiveEnter

-- A timer reports its own state as well. No timer heeds that, and no path does, since it is never
-- UNIT_INACTIVE.
def timerNotified (w : World U) (visit : TimerVisit) (u : U) (ns : UnitActiveState) (t : U) :
    World U :=
  let timer := timerUnitNotified (w.clocks t u visit.now) visit.answers ns (w.timer t)
  let w' := { w with timer := update w.timer t timer }
  w'.stamp t visit.reported (w.timer t).state.active timer.state.active

def timerVisited (visits : CString -> TimerVisit) (u : U) (ns : UnitActiveState) (w : World U)
    (name : CString) : World U :=
  match w.lookup .timer name with
  | none => w
  | some t => if (w.timer t).unit = some u then w.timerNotified (visits name) u ns t else w

def timerUnitNotify (visits : CString -> TimerVisit) (u : U) (ns : UnitActiveState) (w : World U) :
    World U :=
  if w.registry.type u = some .timer then w
  else (Registry.setMembers (w.registry.names u)).foldl (timerVisited visits u ns) w

-- unit_notify for a path, which timers may have as their unit.
def pathReported (w : World U) (visit : PathVisit) (p : U) (os ns : UnitActiveState) : World U :=
  if w.nReloading = 0 then
    timerUnitNotify visit.timers p ns (w.stamp p visit.reported os ns)
  else
    w

def pathRun (w : World U) (p : U) : PathRun U where
  path := w.path p
  started := w.started p

def pathNotified (w : World U) (visit : PathVisit) (ns : UnitActiveState) (p : U) : World U :=
  let run := pathUnitNotified visit.answers ns (w.pathRun p)
  let w' :=
    { w with
      path := update w.path p run.path
      started := update w.started p run.started }
  if run.notified then
    w'.pathReported visit p (w.path p).state.active run.path.state.active
  else
    w'

def pathVisited (visits : CString -> PathVisit) (u : U) (ns : UnitActiveState) (w : World U)
    (name : CString) : World U :=
  match w.lookup .path name with
  | none => w
  | some p => if (w.path p).unit = some u then w.pathNotified (visits name) ns p else w

def pathUnitNotify (visits : CString -> PathVisit) (u : U) (ns : UnitActiveState) (w : World U) :
    World U :=
  if w.registry.type u = some .path then w
  else (Registry.setMembers (w.registry.names u)).foldl (pathVisited visits u ns) w

-- unit_notify as far as timers and paths are concerned.
def unitNotify (visits : Visits) (w : World U) (u : U) (os ns : UnitActiveState) : World U :=
  if w.nReloading = 0 then
    pathUnitNotify visits.paths u ns
      (timerUnitNotify visits.timers u ns (w.stamp u visits.reported os ns))
  else
    w

end World

end Systemd.Triggers
