import Systemd.Services.Invariant

set_option autoImplicit false

namespace Systemd.Services

open List Option

open Serialization (DualTimestamp ItemKey dualTimestampDeserialize isSet_dualTimestampDeserialize
  parsePid parsePid_printNat printInt printNat safeAtoi safeAtoi_printInt yesNo)

structure SameStatus (e f : ExecStatus) : Prop where
  pid : f.pid = e.pid
  code : f.code = e.code
  status : f.status = e.status
  exited : f.exitTimestamp.isSet = e.exitTimestamp.isSet

section

variable (cfg : Config) (ans : Answers)

def readItem (s : Service) (item : ItemKey × CString) : Service :=
  serviceDeserializeItem cfg ans item.1.text item.2 s

def rereadStatus (s : Service) : ExecStatus :=
  if 0 < s.mainPid then execStatusStart ans.clock s.mainPid else {}

def reread (e : ExecStatus) (s : Service) : Service :=
  { deserializedState := s.state
    failure := s.failure
    controlPid := s.controlPid
    mainPid := s.mainPid
    mainPidKnown := s.mainPidKnown
    mainPidAlien := decide (0 < s.mainPid) && ans.alien s.mainPid
    mainExecStatus := e
    statusText := s.statusText
    controlCommandId := s.controlCommandId
    controlCommand := (s.controlCommandId.map cfg.execCommand).getD [] }

end

section

variable {cfg : Config} {ans : Answers}

variable {t s : Service} {pid : Int32}

theorem readItem_eq {key : ItemKey} {value : CString} {t' : Service} (known : key ∈ serviceKeys)
    (item : ∀ text, serviceKey text = some key -> serviceDeserializeItem cfg ans text value t = t') :
    readItem cfg ans t (key, value) = t' :=
  item key.text (serviceKey_text known)

theorem readItem_state (state : ServiceState) (t : Service) :
    readItem cfg ans t (.state, .ofString state.text) = { t with deserializedState := state } := by
  refine readItem_eq (by decide) fun text key => ?_
  unfold serviceDeserializeItem
  simp [key, ServiceState.ofText_text]

theorem readItem_failure (failure : Bool) (t : Service) :
    readItem cfg ans t (.failure, .ofString (yesNo failure)) =
      { t with failure := failure || t.failure } := by
  refine readItem_eq (by decide) fun text key => ?_
  unfold serviceDeserializeItem
  simp [key, parseBoolean_yesNo]

theorem readItem_controlPid (positive : 0 < pid) (t : Service) :
    readItem cfg ans t (.controlPid, printNat pid.toInt.toNat) = { t with controlPid := pid } := by
  refine readItem_eq (by decide) fun text key => ?_
  unfold serviceDeserializeItem
  simp only [key, parsePid_printNat positive, map_some,
    getD_some]

theorem readItem_mainPid (proper : 1 < pid) (foreign : pid ≠ cfg.managerPid) (t : Service) :
    readItem cfg ans t (.mainPid, printNat pid.toInt.toNat) =
      { t with
        mainPid := pid
        mainPidKnown := true
        mainPidAlien := ans.alien pid
        mainExecStatus := execStatusStart ans.clock pid } := by
  refine readItem_eq (by decide) fun text key => ?_
  have positive : 0 < pid := Int32.lt_trans (by decide) proper
  have accepted : ¬(pid ≤ 1 ∨ pid = cfg.managerPid) :=
    not_or.mpr ⟨Int32.not_le.mpr proper, foreign⟩
  unfold serviceDeserializeItem
  simp only [key, parsePid_printNat positive, bind_some,
    serviceSetMainPid, accepted, if_false, getD_some]

theorem readItem_mainPidKnown (known : Bool) (t : Service) :
    readItem cfg ans t (.mainPidKnown, .ofString (yesNo known)) =
      { t with mainPidKnown := known } := by
  refine readItem_eq (by decide) fun text key => ?_
  unfold serviceDeserializeItem
  simp [key, parseBoolean_yesNo]

theorem readItem_statusText (text : CString) (t : Service) :
    readItem cfg ans t (.statusText, text) = { t with statusText := some text } := by
  refine readItem_eq (by decide) fun text key => ?_
  unfold serviceDeserializeItem
  simp [key]

theorem readItem_controlCommand (id : ServiceExecCommand) (t : Service) :
    readItem cfg ans t (.controlCommand, .ofString id.text) =
      { t with controlCommandId := some id, controlCommand := cfg.execCommand id } := by
  refine readItem_eq (by decide) fun text key => ?_
  unfold serviceDeserializeItem
  simp [key, ServiceExecCommand.ofText_text]

theorem readItem_statusPid (positive : 0 < pid) (t : Service) :
    readItem cfg ans t (.mainExecStatusPid, printNat pid.toInt.toNat) =
      { t with mainExecStatus := { t.mainExecStatus with pid := pid } } := by
  refine readItem_eq (by decide) fun text key => ?_
  unfold serviceDeserializeItem
  simp only [key, parsePid_printNat positive, map_some,
    getD_some]

theorem readItem_statusStart (value : CString) (t : Service) :
    readItem cfg ans t (.mainExecStatusStart, value) =
      { t with mainExecStatus := { t.mainExecStatus with
          startTimestamp := dualTimestampDeserialize value t.mainExecStatus.startTimestamp } } := by
  refine readItem_eq (by decide) fun text key => ?_
  unfold serviceDeserializeItem
  simp [key]

theorem readItem_statusExit (value : CString) (t : Service) :
    readItem cfg ans t (.mainExecStatusExit, value) =
      { t with mainExecStatus := { t.mainExecStatus with
          exitTimestamp := dualTimestampDeserialize value t.mainExecStatus.exitTimestamp } } := by
  refine readItem_eq (by decide) fun text key => ?_
  unfold serviceDeserializeItem
  simp [key]

theorem readItem_statusCode (code : Int32) (t : Service) :
    readItem cfg ans t (.mainExecStatusCode, printInt code) =
      { t with mainExecStatus := { t.mainExecStatus with code := code } } := by
  refine readItem_eq (by decide) fun text key => ?_
  unfold serviceDeserializeItem
  simp [key, safeAtoi_printInt]

theorem readItem_statusStatus (status : Int32) (t : Service) :
    readItem cfg ans t (.mainExecStatusStatus, printInt status) =
      { t with mainExecStatus := { t.mainExecStatus with status := status } } := by
  refine readItem_eq (by decide) fun text key => ?_
  unfold serviceDeserializeItem
  simp [key, safeAtoi_printInt]

-- The items before the exit status, in the order they are written.
def frontItems (s : Service) : List (ItemKey × CString) :=
  [(.state, .ofString s.state.text), (.failure, .ofString (yesNo s.failure))] ++
  (if 0 < s.controlPid then [(.controlPid, printNat s.controlPid.toInt.toNat)] else []) ++
  (if s.mainPidKnown ∧ 0 < s.mainPid then [(.mainPid, printNat s.mainPid.toInt.toNat)] else []) ++
  [(.mainPidKnown, .ofString (yesNo s.mainPidKnown))] ++
  (s.statusText.map fun text => (.statusText, text)).toList ++
  (s.controlCommandId.map fun id => (.controlCommand, .ofString id.text)).toList

theorem foldl_frontItems (core : Core cfg s) :
    (frontItems s).foldl (readItem cfg ans) {} = reread cfg ans (rereadStatus ans s) s := by
  have control : (if 0 < s.controlPid then
      [(ItemKey.controlPid, printNat s.controlPid.toInt.toNat)] else []).foldl
        (readItem cfg ans)
        { deserializedState := s.state, failure := s.failure } =
      { deserializedState := s.state, failure := s.failure, controlPid := s.controlPid } := by
    rcases core.control with idle | ⟨positive, _⟩
    · simp [idle]
    · simp only [positive, if_true, foldl_cons, foldl_nil, readItem_controlPid positive]
  have main : (if s.mainPidKnown ∧ 0 < s.mainPid then
      [(ItemKey.mainPid, printNat s.mainPid.toInt.toNat)] else []).foldl (readItem cfg ans)
        { deserializedState := s.state, failure := s.failure, controlPid := s.controlPid } =
      { deserializedState := s.state
        failure := s.failure
        controlPid := s.controlPid
        mainPid := s.mainPid
        mainPidKnown := decide (0 < s.mainPid)
        mainPidAlien := decide (0 < s.mainPid) && ans.alien s.mainPid
        mainExecStatus := rereadStatus ans s } := by
    rcases core.main with idle | tracked
    · simp [rereadStatus, idle]
    · have positive : 0 < s.mainPid := Int32.lt_trans (by decide) tracked.proper
      simp only [tracked.known, positive, and_self, if_true, foldl_cons, foldl_nil,
        readItem_mainPid tracked.proper tracked.foreign, decide_true, Bool.true_and, rereadStatus]
  simp only [frontItems, foldl_append, foldl_cons, foldl_nil, readItem_state,
    readItem_failure, Bool.or_false, control, main, readItem_mainPidKnown]
  cases text : s.statusText with
  | none =>
    cases id : s.controlCommandId with
    | none => simp [reread, text, id]
    | some command => simp [reread, text, id, readItem_controlCommand]
  | some status =>
    cases id : s.controlCommandId with
    | none => simp [reread, text, id, readItem_statusText]
    | some command => simp [reread, text, id, readItem_statusText, readItem_controlCommand]

theorem foldl_startItem (cfg : Config) (ans : Answers) (e : ExecStatus) (t : Service) :
    ∃ time, (if e.startTimestamp.isSet then
        [(ItemKey.mainExecStatusStart, e.startTimestamp.print)] else []).foldl
          (readItem cfg ans) t =
      { t with mainExecStatus := { t.mainExecStatus with startTimestamp := time } } := by
  split
  · refine ⟨dualTimestampDeserialize e.startTimestamp.print t.mainExecStatus.startTimestamp, ?_⟩
    simp only [foldl_cons, foldl_nil, readItem_statusStart]
  · exact ⟨t.mainExecStatus.startTimestamp, rfl⟩

theorem foldl_items (core : Core cfg s) (unset : t.mainExecStatus.exitTimestamp.isSet = false)
    (code : t.mainExecStatus.code = 0) (status : t.mainExecStatus.status = 0)
    (idle : s.mainExecStatus.pid = 0 -> t.mainExecStatus.pid = 0) :
    ∃ e, s.mainExecStatus.items.foldl (readItem cfg ans) t = { t with mainExecStatus := e } ∧
      SameStatus s.mainExecStatus e := by
  unfold ExecStatus.items
  rcases core.status with never | positive
  · have running : s.mainExecStatus.exitTimestamp.isSet = false := by
      by_contra exited
      have above := core.exited (by simpa using exited)
      rw [never] at above
      exact absurd above (by decide)
    refine ⟨t.mainExecStatus, by simp [never], idle never |>.trans never.symm, ?_, ?_, ?_⟩
    · exact code.trans (core.unset running).1.symm
    · exact status.trans (core.unset running).2.symm
    · exact unset.trans running.symm
  · obtain ⟨time, started⟩ := foldl_startItem cfg ans s.mainExecStatus
      { t with mainExecStatus := { t.mainExecStatus with pid := s.mainExecStatus.pid } }
    simp only [positive, if_true, foldl_append, foldl_cons, foldl_nil,
      readItem_statusPid positive, started]
    cases exited : s.mainExecStatus.exitTimestamp.isSet with
    | false =>
      exact ⟨_, rfl, rfl, code.trans (core.unset exited).1.symm,
        status.trans (core.unset exited).2.symm, unset.trans exited.symm⟩
    | true =>
      simp only [if_true, foldl_cons, foldl_nil, readItem_statusExit, readItem_statusCode,
        readItem_statusStatus]
      exact ⟨_, rfl, rfl, rfl, rfl, isSet_dualTimestampDeserialize _ _⟩

structure Restored (cfg : Config) (ans : Answers) (s t : Service) : Prop where
  state : t.state = s.state
  failure : t.failure = s.failure
  mainPid : t.mainPid = s.mainPid
  controlPid : t.controlPid = s.controlPid
  known : t.mainPidKnown = s.mainPidKnown
  alien : t.mainPidAlien = (decide (0 < s.mainPid) && ans.alien s.mainPid)
  execStatus : SameStatus s.mainExecStatus t.mainExecStatus
  control : 0 < s.controlPid -> t.controlCommandId = s.controlCommandId
  controlCommand : t.controlCommand = (t.controlCommandId.map cfg.execCommand).getD []
  mainCommand : t.mainCommand = []
  allowed : t.forbidRestart = false
  bus : t.busNameGood = false
  rate : t.ratelimit = {}
  timer : t.timer = coldplugTimer cfg s.state

theorem deserialize_serialize (core : Core cfg s) :
    ∃ e, serviceDeserialize cfg ans (serviceSerialize s) = reread cfg ans e s ∧
      SameStatus s.mainExecStatus e := by
  have parts : serviceDeserialize cfg ans (serviceSerialize s) =
      s.mainExecStatus.items.foldl (readItem cfg ans)
        (reread cfg ans (rereadStatus ans s) s) := by
    rw [← foldl_frontItems core]
    exact foldl_append
  have running : (rereadStatus ans s).exitTimestamp.isSet = false ∧
      (rereadStatus ans s).code = 0 ∧ (rereadStatus ans s).status = 0 := by
    unfold rereadStatus
    split
    · exact ⟨rfl, rfl, rfl⟩
    · exact ⟨rfl, rfl, rfl⟩
  have idle : s.mainExecStatus.pid = 0 -> (rereadStatus ans s).pid = 0 := by
    intro never
    have gone : s.mainPid = 0 := by
      rcases core.main with gone | tracked
      · exact gone
      · exact tracked.status.symm.trans never
    simp [rereadStatus, gone]
  rw [parts]
  exact foldl_items core running.1 running.2.1 running.2.2 idle

theorem coldplug_cases (plugged : serviceColdplug cfg ans s = some t) :
    s.deserializedState = s.state ∧ t = s ∨
    t = { s with
      timer := coldplugTimer cfg s.deserializedState || s.timer
      watched := coldplugWatched cfg s.deserializedState s }.setState s.deserializedState := by
  unfold serviceColdplug at plugged
  dsimp only at plugged
  split at plugged
  · rename_i same
    exact .inl ⟨same, (some.inj plugged).symm⟩
  · split at plugged
    · cases plugged
    · split at plugged
      · cases plugged
      · split at plugged
        · cases plugged
        · exact .inr (some.inj plugged).symm

theorem coldplug_restored (placed : Placed s) {e : ExecStatus} (same : SameStatus s.mainExecStatus e)
    (plugged : serviceColdplug cfg ans (reread cfg ans e s) = some t) : Restored cfg ans s t := by
  rcases coldplug_cases plugged with ⟨dead, rfl⟩ | rfl
  · have timer : coldplugTimer cfg s.state = false := by
      rw [show s.state = .dead from dead]
      rfl
    exact ⟨dead.symm, rfl, rfl, rfl, rfl, rfl, same, fun _ => rfl, rfl, rfl, rfl, rfl, rfl, timer.symm⟩
  · rw [setState_eq]
    have main : (if s.state.keepsMain then s.mainPid else 0) = s.mainPid := by
      split
      · rfl
      · rename_i gone
        exact (placed.main (by simpa using gone)).1.symm
    have control : (if s.state.keepsControl then s.controlPid else 0) = s.controlPid := by
      split
      · rfl
      · rename_i gone
        exact (placed.control (by simpa using gone)).symm
    refine ⟨rfl, rfl, main, control, rfl, rfl, same, ?_, ?_, ?_, rfl, rfl, rfl, ?_⟩
    · intro running
      have keeps : s.state.keepsControl = true := by
        by_contra gone
        rw [placed.control (by simpa using gone)] at running
        exact absurd running (by decide)
      simp [reread, keeps]
    · cases keeps : s.state.keepsControl with
      | true => simp [reread, keeps]
      | false => simp [reread, keeps]
    · exact ite_self []
    · have timed : (coldplugTimer cfg s.state && s.state.timed) = coldplugTimer cfg s.state := by
        cases s.state <;> simp [coldplugTimer, ServiceState.timed]
      simpa [reread] using timed

theorem daemonReload_restored (core : Core cfg s) (placed : Placed s)
    (reloaded : daemonReload cfg ans s = some t) : Restored cfg ans s t := by
  obtain ⟨e, read, same⟩ : ∃ e, serviceDeserialize cfg ans (serviceSerialize s) =
      reread cfg ans e s ∧ SameStatus s.mainExecStatus e := deserialize_serialize core
  rw [daemonReload, read] at reloaded
  exact coldplug_restored placed same reloaded

theorem daemonReload_succeeds (s : Service) (timer : ans.watchTimer = true)
    (pid : ans.watchPid = true) : ∃ t, daemonReload cfg ans s = some t := by
  unfold daemonReload serviceColdplug
  simp only [timer, pid, Bool.not_true, Bool.and_false, Bool.false_eq_true, if_false]
  split
  · exact ⟨_, rfl⟩
  · exact ⟨_, rfl⟩

end

end Systemd.Services
