import Systemd.Basic.Words
import Systemd.Services.Events
import Systemd.Shared.Reached
import Systemd.Units.Path

set_option autoImplicit false

namespace Systemd.NotifySocket

open Services

inductive Errno where
  | eio
  deriving DecidableEq

def solSocket : Int32 := 1

def scmCredentials : Int32 := 2

-- CMSG_LEN(sizeof(struct ucred))
def credentialsLen : Nat := 28

structure Control where
  msgControllen : Nat
  cmsgLevel : Int32
  cmsgType : Int32
  cmsgLen : Nat
  pid : Int32

def Control.hasCredentials (c : Control) : Bool :=
  !(c.msgControllen < credentialsLen || c.cmsgLevel != solSocket || c.cmsgType != scmCredentials ||
    c.cmsgLen != credentialsLen)

/-- A message in the notification socket. `group` and `answers` are what the rest of the system says
when it is read: the control group of the sender, and the answers to the unit that it is for. -/
structure Datagram where
  bytes : List UInt8
  fits : bytes.length ≤ 4095
  control : Control
  group : Option CString
  answers : Answers

def Datagram.tags (d : Datagram) : List CString :=
  (strvSplit (.ofBuffer d.bytes) ("\n\r".toList.map Char.toUInt8)).map CString.ofBuffer

variable {U : Type}

structure Bonding (U : Type) where
  unit : Option U
  ours : Bool

/-- The units of a manager, as far as processes lead to them. Of all types only services take
notifications. -/
structure Units (U : Type) where
  config : U -> Option Config
  service : U -> Service
  watchPids : Int32 -> Option U
  cgroupBondings : CString -> List (Bonding U)

structure Delivery (U : Type) where
  unit : U
  pid : Int32
  tags : List CString
  deriving DecidableEq

/-- `queue` is what waits in the socket, and `delivered` are the calls of notify_message() so far. -/
structure Manager (U : Type) where
  units : Units U
  queue : List Datagram
  delivered : List (Delivery U)

-- The groups above a group, up to the first that has units.
def bondingsAbove (bondings : CString -> List (Bonding U)) : Nat -> CString -> List (Bonding U)
  | 0, _ => []
  | fuel + 1, group =>
    match strrchr group.bytes '/'.toUInt8 with
    | none | some 0 => []
    | some slash =>
      let above := CString.ofBuffer (group.bytes.take slash)
      if (bondings above).isEmpty then bondingsAbove bondings fuel above else bondings above

def cgroupUnitByPid (units : Units U) (pid : Int32) (group : Option CString) : Option U :=
  if pid ≤ 1 then none
  else
    match group with
    | none => none
    | some group =>
      let l := units.cgroupBondings group
      let l := if l.isEmpty then bondingsAbove units.cgroupBondings group.bytes.length group else l
      l.findSome? fun b => if b.ours then b.unit else none

def unitByPid (units : Units U) (pid : Int32) (group : Option CString) : Option U :=
  (units.watchPids pid).or (cgroupUnitByPid units pid group)

section

variable [DecidableEq U]

-- hashmap_put() does not replace an entry, and hashmap_remove_value() removes only that of the unit.
def Units.setService (units : Units U) (u : U) (s : Service) : Units U :=
  { units with
    service := Function.update units.service u s
    watchPids := fun pid =>
      if pid ∈ s.watched then (units.watchPids pid).or (some u)
      else if pid ∈ (units.service u).watched ∧ units.watchPids pid = some u then none
      else units.watchPids pid }

def notifyMessage (m : Manager U) (u : U) (d : Datagram) : Manager U :=
  match m.units.config u with
  | none => m
  | some config =>
    let run := serviceNotifyMessage config d.answers d.control.pid d.tags ⟨m.units.service u, []⟩
    { m with
      units := m.units.setService u run.service
      delivered := m.delivered ++ [⟨u, d.control.pid, d.tags⟩] }

-- The messages are read from the front of the queue until it is empty or the loop is left.
def receiveAll : List Datagram -> Manager U -> Manager U × Option Errno
  | [], m => ({ m with queue := [] }, none)
  | d :: rest, m =>
    if d.bytes.length ≤ 0 then ({ m with queue := rest }, some .eio)
    else if !d.control.hasCredentials then receiveAll rest m
    else
      match unitByPid m.units d.control.pid d.group with
      | none => receiveAll rest m
      | some u => receiveAll rest (notifyMessage m u d)

def managerProcessNotifyFd (m : Manager U) : Manager U × Option Errno := receiveAll m.queue m

/-- A turn of the loop of manager_dispatch_sigchld(). waitid() is interrupted, or it finds a process
that has ended; messages may arrive before the socket is read. -/
inductive Turn where
  | interrupted
  | ended (pid : Int32) (group : Option CString) (arriving : List Datagram) (reaped : Option (Int32 × Int32))
      (answers : Answers)

structure Flush (U : Type) where
  before : Manager U
  after : Manager U
  result : Option Errno

-- none: an assertion of the unit fails.
def sigchldEvent (m : Manager U) (u : U) (pid code status : Int32) (answers : Answers) :
    Option (Manager U) :=
  let units := { m.units with watchPids := Function.update m.units.watchPids pid none }
  match units.config u with
  | none => some { m with units := units }
  | some config =>
    (handle config answers (.sigchld pid code status) ⟨units.service u, []⟩).map fun run =>
      { m with units := units.setService u run.service }

def reapChild (m : Manager U) (u : Option U) (pid : Int32) (reaped : Option (Int32 × Int32))
    (answers : Answers) : Option (Manager U) :=
  match reaped, u with
  | some (code, status), some u =>
    if code ≠ cldExited ∧ code ≠ cldKilled ∧ code ≠ cldDumped then some m
    else sigchldEvent m u pid code status answers
  | _, _ => some m

/-- The manager, the calls that have been made for the notification socket, and the result if one of
them has made the loop return. -/
structure Loop (U : Type) where
  manager : Manager U
  flushes : List (Flush U)
  returned : Option Errno

def flush (l : Loop U) (arriving : List Datagram) : Loop U :=
  let before := { l.manager with queue := l.manager.queue ++ arriving }
  let (after, result) := managerProcessNotifyFd before
  ⟨after, l.flushes ++ [⟨before, after, result⟩], result⟩

def managerDispatchSigchld : List Turn -> Loop U -> Option (Loop U)
  | [], l => some l
  | .interrupted :: rest, l => managerDispatchSigchld rest l
  | .ended pid group arriving reaped answers :: rest, l =>
    let l := flush l arriving
    if l.returned.isSome then some l
    else
      match reapChild l.manager (unitByPid l.manager.units pid group) pid reaped answers with
      | none => none
      | some m => managerDispatchSigchld rest { l with manager := m }

/-- What the loop of the manager is woken up by. The file descriptors for messages and signals are
never in another state than EPOLLIN. -/
inductive Event (U : Type) where
  | notify
  | sigchld (turns : List Turn)
  -- Everything else. It leaves the socket to its senders.
  | elsewhere (units : Units U)
  | arrive (d : Datagram)

def processEvent (l : Loop U) : Event U -> Option (Loop U)
  | .notify => some (flush l [])
  | .sigchld turns => managerDispatchSigchld turns l
  | .elsewhere units => some { l with manager := { l.manager with units := units } }
  | .arrive d => some { l with manager := { l.manager with queue := l.manager.queue ++ [d] } }

def take (event : Event U) (l : Loop U) : Option (Loop U) :=
  if l.returned.isSome then none else processEvent l event

def hear (m : Manager U) (d : Datagram) : Manager U :=
  if d.control.hasCredentials then
    match unitByPid m.units d.control.pid d.group with
    | none => m
    | some u => notifyMessage m u d
  else m

def Flush.Complete (f : Flush U) : Prop :=
  f.result = none ∧ f.after = f.before.queue.foldl hear { f.before with queue := [] }

def GoesOn (l : Loop U) : Prop := l.returned = none ∧ ∀ f ∈ l.flushes, f.Complete

end

def readInTurns : List Turn -> List Datagram -> List Datagram
  | [], _ => []
  | .interrupted :: rest, queue => readInTurns rest queue
  | .ended _ _ arriving _ _ :: rest, queue => queue ++ arriving ++ readInTurns rest []

def Event.reads (l : Loop U) : Event U -> List Datagram
  | .notify => l.manager.queue
  | .sigchld turns => readInTurns turns l.manager.queue
  | .elsewhere _ | .arrive _ => []

def Filled (event : Event U) (l : Loop U) : Prop := ∀ d ∈ event.reads l, d.bytes ≠ []

end Systemd.NotifySocket

namespace Systemd.NotifySocket

open Services

variable {U : Type} [DecidableEq U]

variable (m : Manager U) (queue : List Datagram)

@[simp] theorem notifyMessage_queue (u : U) (d : Datagram) : (notifyMessage m u d).queue = m.queue := by
  unfold notifyMessage
  split
  · rfl
  · rfl

theorem notifyMessage_setQueue (u : U) (d : Datagram) :
    notifyMessage { m with queue := queue } u d = { notifyMessage m u d with queue := queue } := by
  unfold notifyMessage
  cases m.units.config u with
  | none => rfl
  | some config => rfl

theorem hear_setQueue (d : Datagram) :
    hear { m with queue := queue } d = { hear m d with queue := queue } := by
  unfold hear
  cases credentials : d.control.hasCredentials with
  | false => rfl
  | true =>
    cases unitByPid m.units d.control.pid d.group with
    | none => rfl
    | some u => exact notifyMessage_setQueue m queue u d

@[simp] theorem hear_queue (d : Datagram) : (hear m d).queue = m.queue := by
  unfold hear
  split
  · split
    · rfl
    · exact notifyMessage_queue m _ d
  · rfl

theorem hearAll_queue : (queue.foldl hear m).queue = m.queue :=
  List.foldlRecOn (motive := fun m' : Manager U => m'.queue = m.queue) queue hear rfl
    fun m' same d _ => (hear_queue m' d).trans same

theorem receiveAll_cons {d : Datagram} (filled : d.bytes ≠ []) (rest : List Datagram) (m : Manager U) :
    receiveAll (d :: rest) m = receiveAll rest (hear m d) := by
  have long : ¬ d.bytes.length ≤ 0 := by simpa using filled
  rw [receiveAll, if_neg long]
  unfold hear
  cases credentials : d.control.hasCredentials with
  | false => simp
  | true => cases unitByPid m.units d.control.pid d.group <;> simp

theorem receiveAll_filled (filled : ∀ d ∈ queue, d.bytes ≠ []) (m : Manager U) :
    receiveAll queue m = (queue.foldl hear { m with queue := [] }, none) := by
  induction queue generalizing m with
  | nil => rfl
  | cons d rest ih =>
    rw [receiveAll_cons (filled d (by simp)), ih fun d mem => filled d (List.mem_cons_of_mem _ mem),
      List.foldl_cons, hear_setQueue m [] d]

theorem receiveAll_empty (empty : ∃ d ∈ queue, d.bytes = []) (m : Manager U) :
    (receiveAll queue m).2 = some .eio := by
  induction queue generalizing m with
  | nil => simp at empty
  | cons d rest ih =>
    by_cases here : d.bytes = []
    · simp [receiveAll, here]
    · rw [receiveAll_cons here]
      obtain ⟨d', mem, empty⟩ := empty
      rcases List.mem_cons.mp mem with rfl | later
      · exact absurd empty here
      · exact ih ⟨d', later, empty⟩ _

variable {l : Loop U}

theorem flush_goesOn (goesOn : GoesOn l) (arriving : List Datagram) :
    GoesOn (flush l arriving) ↔ ∀ d ∈ l.manager.queue ++ arriving, d.bytes ≠ [] := by
  constructor
  · intro after d mem empty
    have failed := receiveAll_empty (l.manager.queue ++ arriving) ⟨d, mem, empty⟩
      { l.manager with queue := l.manager.queue ++ arriving }
    exact absurd (after.1.symm.trans failed) (by simp)
  · intro filled
    have all := receiveAll_filled (l.manager.queue ++ arriving) filled
      { l.manager with queue := l.manager.queue ++ arriving }
    refine ⟨congrArg Prod.snd all, fun f mem => ?_⟩
    rcases List.mem_append.mp mem with old | new
    · exact goesOn.2 f old
    · obtain rfl := List.mem_singleton.mp new
      exact ⟨congrArg Prod.snd all, congrArg Prod.fst all⟩

theorem flush_queue {arriving : List Datagram}
    (filled : ∀ d ∈ l.manager.queue ++ arriving, d.bytes ≠ []) :
    (flush l arriving).manager.queue = [] := by
  have all := receiveAll_filled (l.manager.queue ++ arriving) filled
    { l.manager with queue := l.manager.queue ++ arriving }
  exact (congrArg (fun result => result.1.queue) all).trans (hearAll_queue _ _)

theorem reapChild_queue {m m' : Manager U} {u : Option U} {pid : Int32}
    {reaped : Option (Int32 × Int32)} {answers : Answers}
    (done : reapChild m u pid reaped answers = some m') : m'.queue = m.queue := by
  unfold reapChild sigchldEvent at done
  split at done
  · split at done
    · rw [← Option.some.inj done]
    · simp only at done
      split at done
      · rw [← Option.some.inj done]
      · obtain ⟨run, _, rfl⟩ := Option.map_eq_some_iff.mp done
        rfl
  · rw [← Option.some.inj done]

theorem managerDispatchSigchld_goesOn (turns : List Turn) {l' : Loop U} (goesOn : GoesOn l)
    (dispatched : managerDispatchSigchld turns l = some l') :
    GoesOn l' ↔ ∀ d ∈ readInTurns turns l.manager.queue, d.bytes ≠ [] := by
  induction turns generalizing l with
  | nil =>
    rw [← Option.some.inj dispatched]
    simpa [readInTurns] using goesOn
  | cons turn rest ih =>
    cases turn with
    | interrupted => exact ih goesOn dispatched
    | ended pid group arriving reaped answers =>
      have first := flush_goesOn goesOn arriving
      simp only [managerDispatchSigchld] at dispatched
      by_cases filled : ∀ d ∈ l.manager.queue ++ arriving, d.bytes ≠ []
      · have going := first.mpr filled
        have running : ¬ (flush l arriving).returned.isSome = true := by simp [going.1]
        rw [if_neg running] at dispatched
        cases reaping : reapChild (flush l arriving).manager
            (unitByPid (flush l arriving).manager.units pid group) pid reaped answers with
        | none => simp [reaping] at dispatched
        | some m =>
          simp only [reaping] at dispatched
          have later := ih (l := { flush l arriving with manager := m }) going dispatched
          have queue : m.queue = [] := (reapChild_queue reaping).trans (flush_queue filled)
          rw [later, queue, readInTurns]
          refine ⟨fun each d mem => ?_, fun each d mem => each d (List.mem_append_right _ mem)⟩
          exact (List.mem_append.mp mem).elim (filled d) (each d)
      · have failed := mt first.mp filled
        have returned : (flush l arriving).returned.isSome = true := by
          have empty : ∃ d ∈ l.manager.queue ++ arriving, d.bytes = [] := by
            push Not at filled
            exact filled
          exact Option.isSome_iff_exists.mpr ⟨_, receiveAll_empty _ empty _⟩
        rw [if_pos returned] at dispatched
        obtain rfl := Option.some.inj dispatched
        refine iff_of_false failed fun each => filled fun d mem => ?_
        exact each d (List.mem_append_left _ mem)

theorem take_goesOn {l' : Loop U} (goesOn : GoesOn l) (event : Event U)
    (taken : take event l = some l') : GoesOn l' ↔ Filled event l := by
  simp only [take, goesOn.1, Option.isSome_none, Bool.false_eq_true, if_false] at taken
  cases event with
  | notify =>
    obtain rfl := Option.some.inj taken
    exact (flush_goesOn goesOn []).trans (by rw [List.append_nil]; rfl)
  | sigchld turns => exact managerDispatchSigchld_goesOn turns goesOn taken
  | elsewhere units =>
    obtain rfl := Option.some.inj taken
    exact iff_of_true goesOn (by simp [Filled, Event.reads])
  | arrive d =>
    obtain rfl := Option.some.inj taken
    exact iff_of_true goesOn (by simp [Filled, Event.reads])

/-- The messages do not make the loop return, and all of them are read and passed on, exactly as long as
none that is read is empty. -/
theorem messages_passed_on (run : List (Event U)) :
    Steps.Throughout take GoesOn run ⟨m, [], none⟩ ↔ Steps.EachStep take Filled run ⟨m, [], none⟩ :=
  Steps.throughout_iff (fun _ goesOn => goesOn)
    (fun event _ _ goesOn taken filled => (take_goesOn goesOn event taken).mpr filled)
    (fun event _ _ goesOn taken later => (take_goesOn goesOn event taken).mp later)
    run ⟨rfl, by simp⟩

theorem someClock_runs : Serialization.DualTimestamp.isSet ⟨1, 1⟩ = true := rfl

def someAnswers : Answers where
  clock := ⟨1, 1⟩
  clockRuns := someClock_runs
  spawn := fun _ => .failed
  kill := fun _ => ⟨false, false, false, true, true⟩
  watchTimer := true
  watchPid := true
  pidFile := none
  cgroupPid := 0
  cgroupGood := false
  alive := fun _ => true
  alien := fun _ => false
  jobPending := false
  addJob := true

def emptyDatagram : Datagram where
  bytes := []
  fits := Nat.zero_le _
  control := ⟨credentialsLen, solSocket, scmCredentials, credentialsLen, 500⟩
  group := none
  answers := someAnswers

def noUnits : Manager Unit where
  units :=
    { config := fun _ => none
      service := fun _ => {}
      watchPids := fun _ => none
      cgroupBondings := fun _ => [] }
  queue := []
  delivered := []

/-- recvmsg() returns 0 for it, which is taken for an error of the socket. -/
theorem empty_message_stops :
    ¬ ∀ (m : Manager Unit) (run : List (Event Unit)), Steps.Throughout take GoesOn run ⟨m, [], none⟩ := by
  intro always
  have ends : ([Event.arrive emptyDatagram, .notify].foldlM (fun l event => take event l)
      (⟨noUnits, [], none⟩ : Loop Unit)).any (fun l => l.returned = some .eio) = true := by
    decide
  obtain ⟨last, ran, failed⟩ := (Option.any_eq_true _ _).mp ends
  have goesOn := (always noUnits _).last ran
  rw [goesOn.1] at failed
  cases of_decide_eq_true failed

end Systemd.NotifySocket
