import Systemd.Mounts.Answered

set_option autoImplicit false

namespace Systemd.Automounts

open Mounts Option

def StartQueued (s : System) : Prop :=
  ∃ job, s.job = some job ∧ job.type = .start

/-- A request that is not answered yet has a start job of the mount unit to wait for, or the mount
command, unless the automount unit has not got it or is down. -/
def Remembered (s : System) : Prop :=
  s.automount.state = .running -> s.automount.tokens ≠ [] ->
    StartQueued s ∨ s.mount.state = .mounting ∨ s.mount.state = .mountingDone

def Handled (s : System) : Prop :=
  s.automount.state ≠ .running ∨ s.automount.tokens = [] ∨ s.mount.state = .mounting ∨
    s.mount.state = .mountingDone

theorem remembered_iff (s : System) : Remembered s ↔ Handled s ∨ StartQueued s := by
  rw [Remembered, Handled]
  tauto

def Attends : Event -> System -> Prop
  | .fdEvent (.missingDirect _ .other _), s =>
    s.stopQueued = true ∨ s.mount.state = .mounting ∨ s.mount.state = .mountingDone ∨ StartQueued s
  | .fdEvent (.missingDirect _ .autofs (some _)), s =>
    s.stopQueued = true ∨ s.mount.state = .mounting ∨ s.mount.state = .mountingDone ∨
      ∀ job, s.job = some job -> job.type = .start ∨ job.type = .verifyActive ∨ job.type = .stop
  | .installJob type _, s => Handled s ∨ type = .start ∨ type = .verifyActive
  | .dropJob, s => Handled s
  | .runJob _ condition, s =>
    Handled s ∨ ∀ job, s.job = some job -> job.state = .waiting ->
      condition = true ∧ s.mount.state.active.isActiveOrReloading = false
  | _, _ => True

section follows

variable {s : System} {m : Mount} {run : Run}

theorem announced (state : MountState) :
    ready state = true ∨ failing state = true ∨ state = .mounting ∨ state = .mountingDone := by
  cases state <;> simp [ready, failing]

theorem hear_handled (s : System) (call : StateCall) :
    (hear true s call).automount.tokens = [] ∨ call.new = .mounting ∨ call.new = .mountingDone := by
  obtain up | fails | mounting := announced call.new
  next => exact Or.inl (by simp [hear, mountNotifyAutomount, up, automountSendReady])
  next =>
    have down : ready call.new = false := by cases new : call.new <;> simp [ready, failing, new] at fails ⊢
    exact Or.inl (by simp [hear, mountNotifyAutomount, down, fails, automountSendReady])
  next => exact Or.inr mounting

theorem follow_handled {state : MountState} (tells : Tells m run (some state)) :
    Handled (follow true s run) := by
  obtain ⟨same, calls⟩ := tells
  obtain ⟨call, heard, rfl⟩ := List.map_eq_singleton_iff.mp calls
  have same : run.mount.state = call.new := same
  rw [follow, heard]
  obtain none | mounting := hear_handled s call
  next => exact Or.inr (Or.inl none)
  next => exact Or.inr (Or.inr (by simpa [same] using mounting))

theorem follow_quiet (tells : Tells m run none) : follow true s run = { s with mount := run.mount } := by
  have quiet : run.calls = [] := by simpa using tells.2
  rw [follow, quiet]
  rfl

theorem follow_remembered {told : Option MountState} (remembered : Remembered s)
    (tells : Tells m run told) (same : m.state = s.mount.state) : Remembered (follow true s run) := by
  cases told with
  | some state => exact (remembered_iff _).mpr (Or.inl (follow_handled tells))
  | none =>
    have stays : run.mount.state = s.mount.state := tells.1.trans same
    rw [follow_quiet tells]
    simpa [Remembered, StartQueued, stays] using remembered

theorem follow_stays {told : Option MountState} (handled : Handled s)
    (tells : Tells m run told) (same : m.state = s.mount.state) : Handled (follow true s run) := by
  cases told with
  | some state => exact follow_handled tells
  | none =>
    have stays : run.mount.state = s.mount.state := tells.1.trans same
    rw [follow_quiet tells]
    simpa [Handled, stays] using handled

end follows

section automounts

variable {s : System}

theorem unmountAutofs_state (opened : Bool) (s : System) :
    (unmountAutofs opened s).automount.state = s.automount.state := by
  rw [unmountAutofs]
  split_ifs
  next => cases opened <;> rfl
  next => rfl

theorem automountSetState_state (state : AutomountState) (s : System) :
    (automountSetState true state s).automount.state = state := by
  rw [automountSetState]
  split_ifs
  next => rfl
  next => exact unmountAutofs_state true _

theorem remembered_other (other : s.automount.state ≠ .running) : Remembered s :=
  fun running => absurd running other

theorem automountEnterDead_remembered (success : Bool) (s : System) :
    Remembered (automountEnterDead true success s) := by
  apply remembered_other
  rw [automountEnterDead, automountSetState_state]
  split_ifs <;> simp

theorem installJob_start (s : System) (several : Bool) :
    StartQueued (installJob .start several s) ↔
      ∀ job, s.job = some job -> job.type = .start ∨ job.type = .verifyActive ∨ job.type = .stop := by
  rw [installJob, StartQueued]
  cases installed : s.job with
  | none => simp [replaceJob]
  | some job =>
    cases type : job.type <;> cases several <;>
      simp [type, installed, jobTypeMerge, typesMatch, replaceJob, inherit]

theorem installJob_kept (queued : StartQueued s) (type : JobType) (several : Bool) :
    StartQueued (installJob type several s) ↔ type = .start ∨ type = .verifyActive := by
  obtain ⟨job, installed, start⟩ := queued
  rw [installJob, StartQueued, installed]
  cases type <;> cases several <;>
    simp [start, installed, jobTypeMerge, typesMatch, replaceJob, inherit]

theorem installJob_handled (type : JobType) (several : Bool) :
    Handled (installJob type several s) ↔ Handled s := by
  obtain ⟨automount, mount⟩ := installJob_frame type several s
  rw [Handled, Handled, automount, mount]

end automounts

section exact

variable {cfg : Config} {s next : System}

theorem enterRunning_exact (token : UInt32) (live : s.automount.state.live = true)
    (held : s.automount.tokens ≠ []) (stat : Stat) (start : Option Bool) :
    Remembered (automountEnterRunning true token stat start s) ↔
      Attends (.fdEvent (.missingDirect token stat start)) s := by
  have dead : Remembered (automountEnterDead true false s) := automountEnterDead_remembered false s
  cases queued : s.stopQueued with
  | true =>
    have none : Remembered (automountSendReady true false s) := fun _ held => absurd rfl held
    simp only [automountEnterRunning, live, queued, Bool.not_true, Bool.or_true, if_true]
    refine iff_of_true none ?_
    cases stat <;> cases start <;> simp [Attends, queued]
  | false =>
    simp only [automountEnterRunning, live, queued, Bool.not_true, Bool.or_false, Bool.false_eq_true,
      if_false]
    cases stat with
    | failed => exact iff_of_true dead trivial
    | other =>
      have running : Remembered (automountSetState true .running s) ↔
          StartQueued s ∨ s.mount.state = .mounting ∨ s.mount.state = .mountingDone :=
        ⟨fun remembered => remembered rfl held, fun waits _ _ => waits⟩
      rw [running, Attends]
      simp [queued]
      tauto
    | autofs =>
      cases start with
      | none => exact iff_of_true dead trivial
      | some several =>
        obtain ⟨automount, mount⟩ := installJob_frame .start several s
        have held : (installJob .start several s).automount.tokens ≠ [] := by rwa [automount]
        have running (asked : UInt32 -> Option JobId) :
            Remembered (automountSetState true .running
              { installJob .start several s with asked := asked }) ↔
              StartQueued (installJob .start several s) ∨ s.mount.state = .mounting ∨
                s.mount.state = .mountingDone := by
          rw [← mount]
          exact ⟨fun remembered => remembered rfl held, fun waits _ _ => waits⟩
        rw [running, installJob_start, Attends]
        simp [queued]
        tauto

theorem fdEvent_exact {packet : Packet} (taken : automountFdEvent true packet s = some next)
    (remembered : Remembered s) : Remembered next ↔ Attends (.fdEvent packet) s := by
  simp only [automountFdEvent] at taken
  split_ifs at taken with live
  cases packet with
  | invalid =>
    cases taken
    exact iff_of_true (automountEnterDead_remembered false s) trivial
  | unknown =>
    cases taken
    exact iff_of_true remembered trivial
  | missingDirect token stat start =>
    simp only at taken
    split_ifs at taken
    cases taken
    have live : s.automount.state.live = true := by simpa using live
    have entered := enterRunning_exact token (s := { s with
      automount := { s.automount with tokens := token :: s.automount.tokens }
      received := token :: s.received }) live (List.cons_ne_nil token _) stat start
    rw [entered]
    cases stat <;> cases start <;> rfl

theorem startJob_exact {ans : Answers} {condition : Bool} {job : MountJob} {run : Run} {reply : Reply}
    (installed : s.job = some job) (waiting : job.state = .waiting) (handled : ¬Handled s)
    (called : unitStart cfg ans condition { mount := s.mount } = some (run, reply)) :
    Remembered (jobRunEnd job.id (replyErrno reply)
        (follow true { s with job := some { job with type := .start, state := .running } } run)) ↔
      Attends (.runJob ans condition) s := by
  have begun : s.mount.state ≠ .mounting ∧ s.mount.state ≠ .mountingDone := by
    constructor <;> exact fun mounting => handled (by simp [Handled, mounting])
  -- The job is finished although nothing was done.
  have done (unmet : ¬(condition = true ∧ s.mount.state.active.isActiveOrReloading = false)) :
      Remembered (jobRunEnd job.id (some .ealready)
          (follow true { s with job := some { job with type := .start, state := .running } }
            { mount := s.mount })) ↔
        Attends (.runJob ans condition) s := by
    rw [follow_quiet Tells.stays, remembered_iff]
    refine iff_of_false ?_ ?_
    next =>
      rintro (again | ⟨other, same, -⟩)
      next => exact handled again
      next => simp [jobRunEnd, jobReturned, jobFinish] at same
    next =>
      rintro (again | meets)
      next => exact handled again
      next => exact unmet (meets job installed waiting)
  have tells : Tells s.mount run (told cfg ans s.mount (.start condition)) :=
    start_tells condition (map_eq_some_iff.mpr ⟨(run, reply), called, rfl⟩)
  rw [unitStart] at called
  split_ifs at called with active unmet
  next =>
    cases called
    exact done fun met => by simp [met.2] at active
  next =>
    cases called
    exact done fun met => by simp [met.1] at unmet
  next =>
    have activating : s.mount.state.active ≠ .activating := by
      cases state : s.mount.state <;> simp [MountState.active, state] at begun ⊢
    have met : condition = true := by simpa [activating] using unmet
    have inactive : s.mount.state.active.isActiveOrReloading = false := by simpa using active
    refine iff_of_true ((remembered_iff _).mpr ?_) (Or.inr fun _ _ _ => ⟨met, inactive⟩)
    by_cases down : s.mount.state.place = .down
    next =>
      rw [told, if_pos ⟨down, met⟩] at tells
      exact Or.inl (follow_handled tells)
    next =>
      have again : reply = .eagain := by
        cases state : s.mount.state <;>
          simp [mountStart, state, MountState.place, MountState.active,
            UnitActiveState.isActiveOrReloading] at called down begun inactive
        all_goals exact called.2.symm
      rw [told, if_neg fun both => down both.1] at tells
      rw [follow_quiet tells, again]
      exact Or.inr ⟨{ job with type := .start, state := .waiting }, by
        simp [jobRunEnd, replyErrno, jobReturned], rfl⟩

theorem jobRun_exact {ans : Answers} {condition : Bool}
    (taken : jobRunAndInvalidate cfg true ans condition s = some next)
    (remembered : Remembered s) : Remembered next ↔ Attends (.runJob ans condition) s := by
  rw [jobRunAndInvalidate] at taken
  cases installed : s.job with
  | none => simp [installed] at taken
  | some job =>
    simp only [installed] at taken
    split_ifs at taken with waiting
    next =>
      cases taken
      refine iff_of_true remembered (Or.inr fun other same state => ?_)
      rw [installed] at same
      exact absurd (some.inj same ▸ state) waiting
    next =>
      have waiting : job.state = .waiting := by simpa using waiting
      by_cases handled : Handled s
      next =>
        refine iff_of_true ((remembered_iff next).mpr (Or.inl ?_)) (Or.inl handled)
        rcases operates : operation job.type s.mount.state.active with ⟨type, step⟩
        simp only [operates] at taken
        cases step with
        | returned result => exact some.inj taken ▸ handled
        | settled errno => exact some.inj taken ▸ handled
        | call op waits =>
          obtain ⟨⟨run, reply⟩, called, rfl⟩ := map_eq_some_iff.mp taken
          exact follow_stays
            (s := { s with job := some { job with type := type, state := .running } }) handled
            (dispatch_tells (unitCall_dispatch called)) rfl
      next =>
        obtain ⟨other, queued, start⟩ := ((remembered_iff s).mp remembered).resolve_left handled
        cases installed.symm.trans queued
        simp only [operation, start] at taken
        obtain ⟨⟨run, reply⟩, called, rfl⟩ := map_eq_some_iff.mp taken
        exact startJob_exact installed waiting handled called

theorem take_exact {event : Event} (taken : take cfg true event s = some next)
    (remembered : Remembered s) : Remembered next ↔ Attends event s := by
  cases event with
  | fdEvent packet => exact fdEvent_exact taken remembered
  | startAutomount refused set =>
    refine iff_of_true ?_ trivial
    have started : automountStart true refused set s = some next := taken
    rw [automountStart] at started
    split_ifs at started
    next => exact some.inj started ▸ remembered
    next =>
      cases started
      rw [automountEnterWaiting]
      split_ifs
      next =>
        apply remembered_other
        rw [automountSetState_state]
        simp
      next => exact automountEnterDead_remembered false _
  | stopAutomount =>
    cases taken
    refine iff_of_true ?_ trivial
    rw [automountStop]
    split_ifs
    next => exact automountEnterDead_remembered true s
    next => exact remembered
  | resetFailed =>
    cases taken
    refine iff_of_true ?_ trivial
    rw [automountResetFailed]
    split_ifs
    next =>
      apply remembered_other
      simp only [automountSetState_state]
      simp
    next => exact remembered
  | stopQueued queued =>
    cases taken
    exact iff_of_true remembered trivial
  | installJob type several =>
    cases taken
    rw [remembered_iff, installJob_handled, Attends]
    obtain handled | queued := (remembered_iff s).mp remembered
    next => exact iff_of_true (Or.inl handled) (Or.inl handled)
    next => rw [installJob_kept queued]
  | dropJob =>
    cases taken
    have dropped : ¬StartQueued { s with job := none } := by
      rintro ⟨_, installed, _⟩
      cases installed
    rw [remembered_iff, or_iff_left dropped]
    rfl
  | runJob ans condition => exact jobRun_exact taken remembered
  | unitEvent ans event =>
    obtain ⟨run, dispatched, rfl⟩ := map_eq_some_iff.mp taken
    exact iff_of_true (follow_remembered remembered (dispatch_tells dispatched) rfl) trivial
  | mountFdEvent lines readable =>
    cases taken
    refine iff_of_true ?_ trivial
    have same := described_state true true lines s.mount
    rw [mountFdEvent]
    cases readable with
    | false => simpa [Remembered, StartQueued, resetFlags, same] using remembered
    | true => exact follow_remembered remembered (followTable_tells _) same

end exact

/-- No request is forgotten in a run, as long as the autofs mount can be opened, if and only if a start
job is queued for each of them that is neither cancelled, replaced nor taken for done. -/
theorem requests_remembered (cfg : Config) (fstab mountinfo : List MountLine) (run : List Event) :
    Steps.Throughout (take cfg true) Remembered run (booted fstab mountinfo) ↔
      Steps.EachStep (take cfg true) Attends run (booted fstab mountinfo) := by
  have kept (event : Event) (s next : System) (remembered : Remembered s)
      (taken : take cfg true event s = some next) (attends : Attends event s) : Remembered next :=
    (take_exact taken remembered).mpr attends
  have survived (event : Event) (s next : System) (remembered : Remembered s)
      (taken : take cfg true event s = some next) (later : Remembered next) : Attends event s :=
    (take_exact taken remembered).mp later
  have initial : Remembered (booted fstab mountinfo) := fun running => by cases running
  exact Steps.throughout_iff (fun _ remembered => remembered) kept survived run initial

/-- A request that comes in when /srv has just been mounted is never answered. -/
theorem late_request_forgotten :
    ¬∀ (cfg : Config) (fstab mountinfo : List MountLine) (run : List Event),
      Steps.Throughout (take cfg true) Remembered run (booted fstab mountinfo) := by
  intro all
  let events : List Event :=
    [.startAutomount false true, .fdEvent (.missingDirect 1 .autofs (some false)), .runJob srvAnswers true,
      .unitEvent srvAnswers (.sigchld 100 1 0), .fdEvent (.missingDirect 2 .other (some false))]
  let ran := events.foldlM (fun s event => take srvConfig true event s) (booted [] [])
  obtain ⟨s, reached⟩ : ∃ s, ran = some s := ⟨_, rfl⟩
  have given : ran.map (fun s => (s.automount.state, s.automount.tokens, s.job, s.mount.state)) =
      some (.running, [2], none, .mounted) := by decide
  rw [reached] at given
  have given := some.inj given
  simp only [Prod.mk.injEq] at given
  obtain ⟨running, held, idle, mounted⟩ := given
  obtain ⟨job, installed, -⟩ | mounting | done := (all srvConfig [] [] events).last reached running (by simp [held])
  next => simp [idle] at installed
  next => simp [mounted] at mounting
  next => simp [mounted] at done

end Systemd.Automounts
