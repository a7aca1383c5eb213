import Systemd.Mounts.Automount
import Systemd.Mounts.Followed
import Systemd.Mounts.Told

set_option autoImplicit false

namespace Systemd.Automounts

open Mounts List Option

def MountJob.begun (job : MountJob) : Bool :=
  job.state = .running && job.type ≠ .restart && job.type ≠ .tryRestart

def attempted (asked : Option JobId) (job : Option MountJob) : Bool :=
  match asked, job with
  | none, _ => false
  | some _, none => true
  | some id, some job => job.id ≠ id || job.begun

def Answer.Truthful (answer : Answer) : Prop :=
  if answer.ready then answer.mount = .mounted ∨ answer.mount = .remounting
  else
    answer.automount = .dead ∨ answer.automount = .failed ∨ answer.stopQueued = true ∨
      attempted answer.asked answer.job = true ∧
        answer.mount.active.isInactiveOrDeactivating = true

instance (answer : Answer) : Decidable answer.Truthful :=
  inferInstanceAs (Decidable (if answer.ready then _ else _))

structure Truthful (s : System) : Prop where
  once : (s.answers.map Answer.token).Nodup
  truthful : ∀ answer ∈ s.answers, answer.Truthful

inductive Action where
  | event (opened : Bool) (event : Event)
  | reload (opened : Bool) (reload : Reload)

def act (cfg : Config) : Action -> System -> Option System
  | .event opened event, s => take cfg opened event s
  | .reload opened reload, s => managerReload opened reload s

def booted (fstab mountinfo : List MountLine) : System where
  mount := (mountColdplug (described true false mountinfo (described false false fstab {}))).mount

def Settled (s : System) : Prop :=
  s.automount.state.live = false ∨ s.stopQueued = true ∨
    ∀ token ∈ s.automount.tokens, attempted (s.asked token) s.job = true

def Spares (cfg : Config) : Action -> System -> Prop
  | .event true (.unitEvent ans event), s =>
    ∀ state, told cfg ans s.mount event = some state -> failing state = true -> Settled s
  | .event true (.mountFdEvent lines true), s =>
    ∀ state, tableTold (described true true lines s.mount) = some state -> failing state = true ->
      Settled s
  | .event true (.runJob ans condition), s =>
    ∀ job type op waits, s.job = some job -> job.state = .waiting ->
      operation job.type s.mount.state.active = (type, .call op waits) ->
      ∀ state, told cfg ans s.mount (unitEvent condition op) = some state ->
        failing state = true ->
        Settled { s with job := some { job with type := type, state := .running } }
  | .reload true _, s => s.automount.pipe = true -> s.automount.tokens = []
  | _, _ => True

def Plain (state : MountState) : Prop :=
  state ≠ .remountingSigterm ∧ state ≠ .remountingSigkill

structure Honest (s : System) : Prop where
  once : (s.answers.map Answer.token ++ s.automount.tokens).Nodup
  received : ∀ token ∈ s.answers.map Answer.token ++ s.automount.tokens, token ∈ s.received
  truthful : ∀ answer ∈ s.answers, answer.Truthful
  piped : s.automount.state.live = true -> s.automount.pipe = true
  plain : Plain s.mount.state

theorem Honest.holds {s : System} (honest : Honest s) : Truthful s :=
  ⟨(nodup_append.mp honest.once).1, honest.truthful⟩

section states

variable {cfg : Config} {ans : Answers} {m : Mount} {state : MountState}

theorem failing_inactive (plain : Plain state) (fails : failing state = true) :
    state.active.isInactiveOrDeactivating = true := by
  cases state with
  | remountingSigterm => exact absurd rfl plain.1
  | remountingSigkill => exact absurd rfl plain.2
  | _ => first | rfl | cases fails

theorem ended_plain (failure : Bool) : Plain (ended failure) := by
  cases failure <;> simp [Plain, ended]

theorem left_plain (m : Mount) (failure : Bool) : Plain (left m failure) := by
  rw [left]
  split_ifs
  next => simp [Plain]
  next => exact ended_plain failure

theorem elapsed_plain (plain : Plain m.state) (tells : elapsed cfg ans m = some state) :
    Plain state := by
  rw [elapsed] at tells
  cases signals : signalled cfg m.state with
  | some target =>
    have ordinary : target ≠ .remountingSigkill := by
      rintro rfl
      cases before : m.state <;> simp [signalled, before] at signals
      exact plain.1 before
    rw [signals] at tells
    cases tells
    split_ifs
    next => exact ⟨(signalled_controlled signals).2, ordinary⟩
    next => simp [Plain]
  | none =>
    rw [signals] at tells
    cases before : m.state <;> simp only [before, reduceCtorEq, some.injEq] at tells
    case remounting => simp [← tells, Plain]
    all_goals exact tells ▸ left_plain m true

theorem told_plain {event : UnitEvent} (plain : Plain m.state)
    (tells : told cfg ans m event = some state) : Plain state := by
  cases event with
  | start condition =>
    obtain ⟨-, rfl⟩ := ite_none_right_eq_some.mp tells |>.imp_right some.inj
    split_ifs <;> simp [Plain]
  | stop =>
    obtain ⟨-, rfl⟩ := ite_none_right_eq_some.mp tells |>.imp_right some.inj
    split_ifs <;> simp [Plain]
  | reload =>
    obtain ⟨-, rfl⟩ := ite_none_right_eq_some.mp tells |>.imp_right some.inj
    split_ifs <;> simp [Plain]
  | sigchld pid code status =>
    obtain ⟨-, exits⟩ := ite_none_right_eq_some.mp tells
    rw [exited] at exits
    cases before : m.state <;> simp only [before, reduceCtorEq, some.injEq] at exits
    all_goals subst exits
    case remounting | remountingSigterm | remountingSigkill => exact left_plain m _
    all_goals
      split_ifs
      next => first | exact ended_plain _ | simp [Plain]
      next => exact left_plain m true
  | timer =>
    obtain ⟨-, elapses⟩ := ite_none_right_eq_some.mp tells
    exact elapsed_plain plain elapses
  | resetFailed =>
    obtain ⟨-, rfl⟩ := ite_none_right_eq_some.mp tells |>.imp_right some.inj
    simp [Plain]

theorem tableTold_plain (plain : Plain m.state) (tells : tableTold m = some state) : Plain state := by
  rw [tableTold] at tells
  split_ifs at tells with absent up
  next => exact some.inj tells ▸ ended_plain m.failure
  next => exact some.inj tells ▸ plain
  next =>
    cases before : m.state <;> rw [before] at tells plain <;> cases tells
    all_goals first
      | exact plain
      | simp [Plain]

theorem described_state (fromProcSelfMountinfo setFlags : Bool) (lines : List MountLine) (m : Mount) :
    (described fromProcSelfMountinfo setFlags lines m).state = m.state := by
  induction lines generalizing m with
  | nil => rfl
  | cons line rest ih =>
    rw [described, foldl_cons]
    refine (ih _).trans ?_
    cases fromProcSelfMountinfo <;> rfl

end states

section parts

variable {opened : Bool} {s : System}

theorem Honest.frame {after : System} (honest : Honest s) (automount : after.automount = s.automount)
    (ans : after.answers = s.answers) (received : after.received = s.received)
    (plain : Plain after.mount.state) : Honest after where
  once := by simpa [automount, ans] using honest.once
  received := by simpa [automount, ans, received] using honest.received
  truthful := by simpa [ans] using honest.truthful
  piped := by simpa [automount] using honest.piped
  plain := plain

theorem automountSendReady_honest {success : Bool} (honest : Honest s)
    (truthful : opened = true -> ∀ token ∈ s.automount.tokens, (s.answer success token).Truthful) :
    Honest (automountSendReady opened success s) := by
  cases opened with
  | false => exact honest
  | true =>
    have tokens : (s.automount.tokens.map (s.answer success)).map Answer.token =
        s.automount.tokens := by
      rw [List.map_map]
      exact List.map_id _
    constructor
    case once => simpa [automountSendReady, tokens] using honest.once
    case received => simpa [automountSendReady, tokens] using honest.received
    case truthful =>
      intro answer given
      obtain before | now := mem_append.mp given
      next => exact honest.truthful answer before
      next =>
        obtain ⟨token, held, rfl⟩ := mem_map.mp now
        exact truthful rfl token held
    case piped => exact honest.piped
    case plain => exact honest.plain

theorem answer_down (down : s.automount.state.live = false) (token : UInt32) :
    (s.answer false token).Truthful := by
  cases state : s.automount.state with
  | dead => exact Or.inl state
  | failed => exact Or.inr (Or.inl state)
  | waiting => simp [state, AutomountState.live] at down
  | running => simp [state, AutomountState.live] at down

theorem unmountAutofs_honest (honest : Honest s) (down : s.automount.state.live = false) :
    Honest (unmountAutofs opened s) := by
  rw [unmountAutofs]
  split_ifs
  next =>
    have sent : Honest (automountSendReady opened false s) :=
      automountSendReady_honest honest fun _ token _ => answer_down down token
    have same : (automountSendReady opened false s).automount.state = s.automount.state := by
      cases opened <;> rfl
    refine ⟨sent.once, sent.received, sent.truthful, fun live => ?_, sent.plain⟩
    rw [← same] at down
    exact absurd live (by simp [down])
  next => exact honest

theorem automountSetState_honest {state : AutomountState} (honest : Honest s)
    (piped : state.live = true -> s.automount.pipe = true) :
    Honest (automountSetState opened state s) := by
  have changed : ∀ live : state.live = false ∨ s.automount.pipe = true,
      Honest { s with automount := { s.automount with state := state } } := by
    intro live
    refine ⟨honest.once, honest.received, honest.truthful, fun up => ?_, honest.plain⟩
    exact live.resolve_left (by simp [show state.live = true from up])
  rw [automountSetState]
  split_ifs with live
  next => exact changed (Or.inr (piped live))
  next =>
    have down : state.live = false := by simpa using live
    have freed : Honest (unmountAutofs opened
        { s with automount := { s.automount with state := state } }) :=
      unmountAutofs_honest (changed (Or.inl down)) down
    exact freed.frame rfl rfl rfl freed.plain

theorem automountEnterDead_honest (honest : Honest s) (success : Bool) :
    Honest (automountEnterDead opened success s) := by
  have down (failure : Bool) :
      (if failure then AutomountState.failed else AutomountState.dead).live = false := by
    cases failure <;> rfl
  refine automountSetState_honest ⟨honest.once, honest.received, honest.truthful, honest.piped,
    honest.plain⟩ fun live => ?_
  rw [down] at live
  cases live

theorem installJob_frame (type : JobType) (several : Bool) (s : System) :
    (installJob type several s).automount = s.automount ∧
      (installJob type several s).mount = s.mount := by
  rw [installJob]
  cases s.job with
  | none => exact ⟨rfl, rfl⟩
  | some job =>
    simp only
    split_ifs
    next => exact ⟨rfl, rfl⟩
    next => split <;> exact ⟨rfl, rfl⟩

section

variable (honest : Honest s)
include honest

theorem installJob_honest (type : JobType) (several : Bool) : Honest (installJob type several s) := by
  rw [installJob]
  cases s.job with
  | none => exact honest.frame rfl rfl rfl honest.plain
  | some job =>
    simp only
    split_ifs
    next => exact honest
    next => split <;> exact honest.frame rfl rfl rfl honest.plain

theorem automountEnterRunning_honest {token : UInt32} (stat : Stat) (start : Option Bool) :
    Honest (automountEnterRunning opened token stat start s) := by
  have dead : Honest (automountEnterDead opened false s) := automountEnterDead_honest honest false
  simp only [automountEnterRunning]
  split_ifs with stopping
  next =>
    refine automountSendReady_honest honest fun _ token _ => ?_
    cases live : s.automount.state.live with
    | false => exact answer_down live token
    | true =>
      have queued : s.stopQueued = true := by simpa [live] using stopping
      exact Or.inr (Or.inr (Or.inl queued))
  next =>
    have live : s.automount.state.live = true := by
      cases live : s.automount.state.live with
      | true => rfl
      | false => simp [live] at stopping
    have piped := honest.piped live
    cases stat with
    | failed => exact dead
    | other => exact automountSetState_honest honest fun _ => piped
    | autofs =>
      cases start with
      | none => exact dead
      | some several =>
        have queued := installJob_honest honest .start several
        refine automountSetState_honest (queued.frame rfl rfl rfl queued.plain) fun _ => ?_
        simpa [(installJob_frame .start several s).1] using piped

theorem automountFdEvent_honest {packet : Packet} {next : System}
    (taken : automountFdEvent opened packet s = some next) : Honest next := by
  simp only [automountFdEvent] at taken
  split_ifs at taken with live
  cases packet with
  | invalid => exact some.inj taken ▸ automountEnterDead_honest honest false
  | unknown => exact some.inj taken ▸ honest
  | missingDirect token stat start =>
    simp only at taken
    split_ifs at taken with stale
    cases taken
    have fresh : token ∉ s.answers.map Answer.token ++ s.automount.tokens := fun known =>
      stale (Or.inr (honest.received token known))
    have asked : Honest { s with
        automount := { s.automount with tokens := token :: s.automount.tokens }
        received := token :: s.received } := by
      refine ⟨?once, ?received, honest.truthful, honest.piped, honest.plain⟩
      case once => exact nodup_middle.mpr (nodup_cons.mpr ⟨fresh, honest.once⟩)
      case received =>
        intro other known
        have known := perm_middle.mem_iff.mp known
        obtain rfl | known := mem_cons.mp known
        next => exact mem_cons_self
        next => exact mem_cons_of_mem token (honest.received other known)
    exact automountEnterRunning_honest asked stat start

theorem automountStart_honest {refused set : Bool} {next : System}
    (taken : automountStart opened refused set s = some next) : Honest next := by
  rw [automountStart] at taken
  split_ifs at taken with idle
  next => exact some.inj taken ▸ honest
  next =>
    cases taken
    have live : s.automount.state.live = false := by
      cases live : s.automount.state.live with
      | false => rfl
      | true => simp [live] at idle
    have cleared (pipe failure : Bool) : Honest { s with automount :=
        { s.automount with failure := failure, tokens := [], pipe := pipe } } := by
      refine ⟨?_, ?_, honest.truthful, fun up => ?_, honest.plain⟩
      next => simpa using honest.holds.once
      next => exact fun token known => honest.received token (by simpa using Or.inl known)
      next => exact absurd up (by simp [live])
    rw [automountEnterWaiting]
    split_ifs
    next => exact automountSetState_honest (cleared true false) fun _ => rfl
    next => exact automountEnterDead_honest (cleared s.automount.pipe false) false

theorem automountResetFailed_honest : Honest (automountResetFailed opened s) := by
  have reset (s : System) (honest : Honest s) :
      Honest { s with automount := { s.automount with failure := false } } :=
    ⟨honest.once, honest.received, honest.truthful, honest.piped, honest.plain⟩
  rw [automountResetFailed]
  split_ifs
  next => exact reset _ (automountSetState_honest honest fun live => by cases live)
  next => exact reset s honest

end

end parts

section mounts

variable {opened : Bool} {s : System} {m : Mount} {run : Run}

theorem settled_answer (settled : Settled s) (plain : Plain s.mount.state)
    (fails : failing s.mount.state = true) {token : UInt32} (held : token ∈ s.automount.tokens) :
    (s.answer false token).Truthful := by
  obtain down | queued | all := settled
  next => exact answer_down down token
  next => exact Or.inr (Or.inr (Or.inl queued))
  next => exact Or.inr (Or.inr (Or.inr ⟨all token held, failing_inactive plain fails⟩))

theorem hear_honest {call : StateCall} (honest : Honest s) (plain : Plain call.new)
    (spares : opened = true -> failing call.new = true -> Settled s) : Honest (hear opened s call) := by
  have moved : Honest { s with mount := { s.mount with state := call.new } } :=
    honest.frame rfl rfl rfl plain
  have told : Honest (mountNotifyAutomount opened
      { s with mount := { s.mount with state := call.new } }) := by
    rw [mountNotifyAutomount]
    split_ifs with up fails
    next =>
      refine automountSendReady_honest moved fun _ token _ => ?_
      cases new : call.new <;> simp [ready, new] at up <;> simp [Answer.Truthful, System.answer]
    next =>
      refine automountSendReady_honest moved fun now token held => ?_
      have settled : Settled { s with mount := { s.mount with state := call.new } } := spares now fails
      exact settled_answer settled plain fails held
    next => exact moved
  exact told.frame rfl rfl rfl told.plain

theorem follow_honest {told : Option MountState} (honest : Honest s) (tells : Tells m run told)
    (plain : Plain m.state) (plainly : ∀ state, told = some state -> Plain state)
    (spares : opened = true -> ∀ state, told = some state -> failing state = true -> Settled s) :
    Honest (follow opened s run) := by
  obtain ⟨state, calls⟩ := tells
  cases told with
  | none =>
    have quiet : run.calls = [] := by simpa using calls
    rw [follow, quiet]
    exact honest.frame rfl rfl rfl (by simpa [state] using plain)
  | some after =>
    obtain ⟨call, heard, rfl⟩ := map_eq_singleton_iff.mp calls
    have answered := hear_honest honest (plainly _ rfl) fun now => spares now _ rfl
    rw [follow, heard]
    exact answered.frame rfl rfl rfl (by simpa [state] using plainly _ rfl)

theorem jobRunEnd_honest {id : JobId} {result : Option Errno} (honest : Honest s) :
    Honest (jobRunEnd id result s) :=
  honest.frame rfl rfl rfl honest.plain

variable {cfg : Config}

theorem unitCall_dispatch {ans : Answers} {condition : Bool} {op : UnitCall} {reply : Reply}
    (called : unitCall cfg ans condition op { mount := m } = some (run, reply)) :
    dispatch cfg ans (unitEvent condition op) m = some run := by
  cases op <;> exact map_eq_some_iff.mpr ⟨(run, reply), called, rfl⟩

theorem jobRun_honest {ans : Answers} {condition : Bool} {next : System} (honest : Honest s)
    (spares : Spares cfg (.event opened (.runJob ans condition)) s)
    (taken : jobRunAndInvalidate cfg opened ans condition s = some next) : Honest next := by
  rw [jobRunAndInvalidate] at taken
  cases installed : s.job with
  | none => simp [installed] at taken
  | some job =>
    simp only [installed] at taken
    split_ifs at taken with waiting
    next => exact some.inj taken ▸ honest
    next =>
      have waiting : job.state = .waiting := by simpa using waiting
      have begun (type : JobType) :
          Honest { s with job := some { job with type := type, state := .running } } :=
        honest.frame rfl rfl rfl honest.plain
      rcases operates : operation job.type s.mount.state.active with ⟨type, step⟩
      simp only [operates] at taken
      cases step with
      | returned result => exact some.inj taken ▸ begun type
      | settled errno => exact some.inj taken ▸ jobRunEnd_honest (begun type)
      | call op waits =>
        obtain ⟨⟨run, reply⟩, called, rfl⟩ := map_eq_some_iff.mp taken
        have tells := dispatch_tells (unitCall_dispatch called)
        refine jobRunEnd_honest (follow_honest (begun type) tells honest.plain
          (fun state => told_plain honest.plain) fun now state tells fails => ?_)
        subst now
        exact spares job type op waits installed waiting operates state tells fails

theorem mountFdEvent_honest {lines : List MountLine} {readable : Bool} (honest : Honest s)
    (spares : Spares cfg (.event opened (.mountFdEvent lines readable)) s) :
    Honest (mountFdEvent opened lines readable s) := by
  have plain : Plain (described true true lines s.mount).state := by
    rw [described_state]
    exact honest.plain
  rw [mountFdEvent]
  cases readable with
  | false => exact honest.frame rfl rfl rfl plain
  | true =>
    have followed : Honest (follow opened s (followTable (described true true lines s.mount))) := by
      refine follow_honest honest (followTable_tells _) plain (fun state => tableTold_plain plain) ?_
      rintro rfl
      exact spares
    exact followed.frame rfl rfl rfl followed.plain

theorem take_honest {event : Event} {next : System} (honest : Honest s)
    (spares : Spares cfg (.event opened event) s) (taken : take cfg opened event s = some next) :
    Honest next := by
  cases event with
  | fdEvent packet => exact automountFdEvent_honest honest taken
  | startAutomount refused set => exact automountStart_honest honest taken
  | stopAutomount =>
    cases taken
    rw [automountStop]
    split_ifs
    next => exact automountEnterDead_honest honest true
    next => exact honest
  | resetFailed => exact some.inj taken ▸ automountResetFailed_honest honest
  | stopQueued queued => exact some.inj taken ▸ honest.frame rfl rfl rfl honest.plain
  | installJob type several => exact some.inj taken ▸ installJob_honest honest type several
  | dropJob => exact some.inj taken ▸ honest.frame rfl rfl rfl honest.plain
  | runJob ans condition => exact jobRun_honest honest spares taken
  | unitEvent ans event =>
    obtain ⟨run, dispatched, rfl⟩ := map_eq_some_iff.mp taken
    refine follow_honest honest (dispatch_tells dispatched) honest.plain
      (fun state => told_plain honest.plain) ?_
    rintro rfl
    exact spares
  | mountFdEvent lines readable => exact some.inj taken ▸ mountFdEvent_honest honest spares

end mounts

section reloading

variable {opened : Bool} {s : System}

def Quiet (s : System) : Prop :=
  s.automount.tokens = [] ∨ s.automount.pipe = false

theorem Quiet.settled (quiet : Quiet s) (honest : Honest s) : Settled s := by
  obtain none | closed := quiet
  next => exact Or.inr (Or.inr fun token held => by simp [none] at held)
  next =>
    refine Or.inl (Bool.eq_false_iff.mpr fun live => ?_)
    simp [honest.piped live] at closed

theorem automountSetState_quiet (quiet : Quiet s) (state : AutomountState) :
    Quiet (automountSetState opened state s) := by
  have changed : Quiet { s with automount := { s.automount with state := state } } := quiet
  rw [automountSetState]
  split_ifs
  next => exact changed
  next =>
    rw [unmountAutofs]
    split_ifs
    next => exact Or.inr rfl
    next => exact changed

variable {next : System} {state : AutomountState}

theorem automountColdplug_honest {watched : Bool} (honest : Honest s)
    (plugged : automountColdplug opened state watched s = some next) : Honest next := by
  rw [automountColdplug] at plugged
  split_ifs at plugged with dead lost
  next => exact some.inj plugged ▸ honest
  next =>
    cases plugged
    exact automountSetState_honest honest fun live => by simpa [live] using lost
  next => exact some.inj plugged ▸ honest

theorem automountColdplug_quiet {watched : Bool} (quiet : Quiet s)
    (plugged : automountColdplug opened state watched s = some next) : Quiet next := by
  rw [automountColdplug] at plugged
  split_ifs at plugged
  next => exact some.inj plugged ▸ quiet
  next => exact some.inj plugged ▸ automountSetState_quiet quiet state
  next => exact some.inj plugged ▸ quiet

variable {state : MountState}

theorem mountColdplugFrom_tells {watched : Bool} {m : Mount} {run : Run} (plain : Plain state)
    (plugged : mountColdplugFrom state watched m = some run) :
    ∃ told, Tells m run told ∧ ∀ state, told = some state -> Plain state := by
  rw [mountColdplugFrom] at plugged
  split_ifs at plugged
  next =>
    cases plugged
    rw [mountColdplug]
    split_ifs
    next =>
      refine ⟨_, mountSetState_tells { mount := m } rfl .mounted, fun _ same => ?_⟩
      cases same
      simp [Plain]
    next => exact ⟨none, Tells.stays, fun _ told => by cases told⟩
  all_goals
    cases plugged
    refine ⟨_, mountSetState_tells _ rfl state, fun _ same => ?_⟩
    cases same
    exact plain

section

variable (honest : Honest s)
include honest

theorem unitColdplug_honest {reload : Reload} {job : Option MountJob} (plain : Plain state)
    (settled : opened = true -> Settled s) : Honest (unitColdplug opened reload state job s) := by
  rw [unitColdplug]
  cases plugged : mountColdplugFrom state reload.mountWatched s.mount with
  | none => exact honest
  | some run =>
    obtain ⟨told, tells, plainly⟩ := mountColdplugFrom_tells plain plugged
    have followed : Honest (follow opened s run) :=
      follow_honest honest tells honest.plain plainly fun now _ _ _ => settled now
    simp only
    split_ifs
    next =>
      cases job with
      | none => exact followed
      | some job => exact followed.frame rfl rfl rfl followed.plain
    next => exact followed

theorem reloaded_honest (reload : Reload)
    (spares : opened = true -> s.automount.pipe = true -> s.automount.tokens = []) :
    Honest (reloaded reload s (unmountAutofs opened s)) := by
  have freed : (unmountAutofs opened s).answers = s.answers ∧
      (unmountAutofs opened s).received = s.received := by
    rw [unmountAutofs]
    split_ifs with piped
    next =>
      cases opened with
      | false => exact ⟨rfl, rfl⟩
      | true => simp [automountSendReady, spares rfl piped]
    next => exact ⟨rfl, rfl⟩
  have dead : (described true false reload.mountinfo (described false false reload.fstab {})).state =
      .dead := by
    rw [described_state, described_state]
  constructor
  case once => simpa [reloaded, freed] using honest.once
  case received => simpa [reloaded, freed] using honest.received
  case truthful => simpa [reloaded, freed] using honest.truthful
  case piped => exact fun live => by cases live
  case plain => simp [reloaded, dead, Plain]

theorem managerReload_honest {reload : Reload}
    (spares : opened = true -> s.automount.pipe = true -> s.automount.tokens = [])
    (taken : managerReload opened reload s = some next) : Honest next := by
  have fresh := reloaded_honest honest reload spares
  have quiet (now : opened = true) : Quiet (reloaded reload s (unmountAutofs opened s)) := by
    cases piped : s.automount.pipe with
    | true => exact Or.inl (spares now piped)
    | false => exact Or.inr piped
  rw [managerReload] at taken
  split_ifs at taken
  next =>
    exact automountColdplug_honest
      (unitColdplug_honest fresh honest.plain fun now => (quiet now).settled fresh) taken
  next =>
    obtain ⟨after, plugged, rfl⟩ := map_eq_some_iff.mp taken
    have plugs := automountColdplug_honest fresh plugged
    exact unitColdplug_honest plugs honest.plain fun now =>
      (automountColdplug_quiet (quiet now) plugged).settled plugs

theorem act_honest {cfg : Config} {action : Action} (spares : Spares cfg action s)
    (taken : act cfg action s = some next) : Honest next := by
  cases action with
  | event opened event => exact take_honest honest spares taken
  | reload opened reload =>
    refine managerReload_honest honest ?_ taken
    rintro rfl
    exact spares

end

theorem booted_honest (fstab mountinfo : List MountLine) : Honest (booted fstab mountinfo) := by
  have dead : (described true false mountinfo (described false false fstab {})).state = .dead := by
    rw [described_state, described_state]
  constructor
  case once => exact nodup_nil
  case received => simp [booted]
  case truthful => simp [booted]
  case piped => exact fun live => by cases live
  case plain =>
    rw [booted, mountColdplug]
    split_ifs
    next => simp [mountSetState, Mount.setState, MountState.controlled, Mount.disarm,
      Mount.unwatchControlPid, Plain]
    next => simp [dead, Plain]

end reloading

/-- As long as no failure is told while a request still waits, and no tokens are serialized that are
about to be answered, the requests are answered truthfully and once. -/
theorem requests_answered (cfg : Config) (fstab mountinfo : List MountLine) (s : System)
    (reached : Steps.Reached (booted fstab mountinfo) (act cfg) (Spares cfg) s) : Truthful s :=
  (reached.invariant Honest (booted_honest fstab mountinfo)
    fun _ _ _ honest spares taken => act_honest honest spares taken).holds

def srvConfig : Config where
  fromFragment := true
  killMode := .process
  sendSigkill := true

theorem srvAnswers_positive : (0 : Int32) < 100 := by decide

def srvAnswers : Answers where
  spawn := fun _ => .forked 100 srvAnswers_positive
  kill := fun _ => { control := true, group := false, memory := true, timer := true }

-- The automount unit is started, and a process looks into /srv.
def srvRequested : List Action :=
  [.event true (.startAutomount false true),
    .event true (.fdEvent (.missingDirect 1 .autofs (some false)))]

def srvRun (actions : List Action) : Option System :=
  actions.foldlM (fun s action => act srvConfig action s) (booted [] [])

def srvMounted : List Action :=
  srvRequested ++
    [.event true (.runJob srvAnswers true), .event true (.unitEvent srvAnswers (.sigchld 100 1 0))]

theorem requests_answered_srv :
    ∃ s, srvRun srvMounted = some s ∧ s.answers.map (fun answer => (answer.token, answer.ready)) = [(1, true)] ∧
      Truthful s := by
  have spares : Steps.EachStep (act srvConfig) (Spares srvConfig) srvMounted (booted [] []) := by
    intro waiting set
    refine ⟨trivial, fun requested asked => ⟨trivial, fun mounting begun => ⟨?_, fun mounted exited => ⟨?_, trivial⟩⟩⟩⟩
    all_goals
      cases set
      cases asked
    next =>
      intro job type op waits installed _ operates state tells fails
      cases installed
      cases operates
      cases tells
      cases fails
    next =>
      cases begun
      intro state tells fails
      cases tells
      cases fails
  obtain ⟨s, ran⟩ : ∃ s, srvRun srvMounted = some s := ⟨_, rfl⟩
  have given : (srvRun srvMounted).map (fun s =>
      s.answers.map fun answer => (answer.token, answer.ready)) = some [(1, true)] := by decide
  rw [ran] at given
  exact ⟨s, ran, some.inj given, requests_answered srvConfig [] [] s (.run .start spares ran)⟩

/-- A file system is mounted somewhere else before the start job of /srv is run: the process is told
that /srv cannot be mounted. -/
theorem waiting_request_failed :
    ¬∀ (cfg : Config) (fstab mountinfo : List MountLine) (s : System),
      Steps.Reached (booted fstab mountinfo) (act cfg) (fun _ _ => True) s -> Truthful s := by
  intro all
  let actions := srvRequested ++ [.event true (.mountFdEvent [] true)]
  obtain ⟨s, ran⟩ : ∃ s, srvRun actions = some s := ⟨_, rfl⟩
  have given : (srvRun actions).map (fun s => s.answers.all fun answer => decide answer.Truthful) =
      some false := by decide
  rw [ran] at given
  have truthful := (all srvConfig [] [] s (.run .start (.always actions _) ran)).truthful
  have fine : s.answers.all (fun answer => decide answer.Truthful) = true := by simpa using truthful
  exact absurd (some.inj given) (by simp [fine])

end Systemd.Automounts
