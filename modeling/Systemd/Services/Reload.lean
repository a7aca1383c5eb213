import Systemd.Services.Events

set_option autoImplicit false

namespace Systemd.Services

open Serialization (DualTimestamp ItemKey dualTimestampDeserialize isSet_dualTimestampDeserialize
  parsePid parsePid_printNat printInt printNat safeAtoi safeAtoi_printInt yesNo)

namespace ServiceState

def all : List ServiceState :=
  [.dead, .startPre, .start, .startPost, .running, .exited, .reload, .stop, .stopSigterm,
    .stopSigkill, .stopPost, .finalSigterm, .finalSigkill, .failed, .autoRestart]

def text : ServiceState -> String
  | .dead => "dead"
  | .startPre => "start-pre"
  | .start => "start"
  | .startPost => "start-post"
  | .running => "running"
  | .exited => "exited"
  | .reload => "reload"
  | .stop => "stop"
  | .stopSigterm => "stop-sigterm"
  | .stopSigkill => "stop-sigkill"
  | .stopPost => "stop-post"
  | .finalSigterm => "final-sigterm"
  | .finalSigkill => "final-sigkill"
  | .failed => "failed"
  | .autoRestart => "auto-restart"

def ofText (text : CString) : Option ServiceState :=
  all.find? fun state => .ofString state.text = text

theorem ofText_text (state : ServiceState) : ofText (.ofString state.text) = some state := by
  cases state <;> decide

end ServiceState

namespace ServiceExecCommand

def all : List ServiceExecCommand :=
  [.startPre, .start, .startPost, .reload, .stop, .stopPost]

def text : ServiceExecCommand -> String
  | .startPre => "ExecStartPre"
  | .start => "ExecStart"
  | .startPost => "ExecStartPost"
  | .reload => "ExecReload"
  | .stop => "ExecStop"
  | .stopPost => "ExecStopPost"

def ofText (text : CString) : Option ServiceExecCommand :=
  all.find? fun id => .ofString id.text = text

theorem ofText_text (id : ServiceExecCommand) : ofText (.ofString id.text) = some id := by
  cases id <;> decide

end ServiceExecCommand

def foldCase (byte : UInt8) : UInt8 :=
  if 65 ≤ byte ∧ byte ≤ 90 then byte + 32 else byte

def parseBoolean (text : CString) : Option Bool :=
  let startsWith (letters : List Char) : Bool := text.bytes.head?.any fun byte =>
    (letters.map Char.toUInt8).contains byte
  let means (word : String) : Bool := text.bytes.map foldCase = (CString.ofString word).bytes
  if text = .ofString "1" ∨ startsWith ['y', 'Y', 't', 'T'] ∨ means "on" then some true
  else if text = .ofString "0" ∨ startsWith ['n', 'N', 'f', 'F'] ∨ means "off" then some false
  else none

theorem parseBoolean_yesNo (b : Bool) : parseBoolean (.ofString (yesNo b)) = some b := by
  cases b <;> decide

def serviceKeys : List ItemKey :=
  [.state, .failure, .controlPid, .mainPid, .mainPidKnown, .statusText, .controlCommand, .socketFd,
    .mainExecStatusPid, .mainExecStatusCode, .mainExecStatusStatus, .mainExecStatusStart,
    .mainExecStatusExit]

def serviceKey (key : CString) : Option ItemKey :=
  serviceKeys.find? fun name => name.text = key

theorem serviceKey_text {key : ItemKey} (mem : key ∈ serviceKeys) : serviceKey key.text = some key := by
  revert key
  decide

def ExecStatus.items (e : ExecStatus) : List (ItemKey × CString) :=
  if 0 < e.pid then
    [(.mainExecStatusPid, printNat e.pid.toInt.toNat)] ++
    (if e.startTimestamp.isSet then [(.mainExecStatusStart, e.startTimestamp.print)] else []) ++
    (if e.exitTimestamp.isSet then
      [(.mainExecStatusExit, e.exitTimestamp.print), (.mainExecStatusCode, printInt e.code),
        (.mainExecStatusStatus, printInt e.status)]
    else [])
  else []

-- The socket's file descriptor is passed on beside these.
def serviceSerialize (s : Service) : List (ItemKey × CString) :=
  [(.state, .ofString s.state.text), (.failure, .ofString (yesNo s.failure))] ++
  (if 0 < s.controlPid then [(.controlPid, printNat s.controlPid.toInt.toNat)] else []) ++
  (if s.mainPidKnown ∧ 0 < s.mainPid then [(.mainPid, printNat s.mainPid.toInt.toNat)] else []) ++
  [(.mainPidKnown, .ofString (yesNo s.mainPidKnown))] ++
  (s.statusText.map fun text => (.statusText, text)).toList ++
  (s.controlCommandId.map fun id => (.controlCommand, .ofString id.text)).toList ++
  s.mainExecStatus.items

-- A value that does not parse, or a key that is not known, changes nothing.
def serviceDeserializeItem (cfg : Config) (ans : Answers) (key value : CString) (s : Service) :
    Service :=
  match serviceKey key with
  | some .state => ((ServiceState.ofText value).map fun state =>
    { s with deserializedState := state }).getD s
  | some .failure => ((parseBoolean value).map fun b => { s with failure := b || s.failure }).getD s
  | some .controlPid => ((parsePid value).map fun pid => { s with controlPid := pid }).getD s
  | some .mainPid => ((parsePid value).bind fun pid => serviceSetMainPid cfg ans pid s).getD s
  | some .mainPidKnown => ((parseBoolean value).map fun b => { s with mainPidKnown := b }).getD s
  | some .statusText => { s with statusText := some value }
  | some .controlCommand => ((ServiceExecCommand.ofText value).map fun id =>
    { s with controlCommandId := some id, controlCommand := cfg.execCommand id }).getD s
  | some .mainExecStatusPid => ((parsePid value).map fun pid =>
    { s with mainExecStatus := { s.mainExecStatus with pid := pid } }).getD s
  | some .mainExecStatusCode => ((safeAtoi value).map fun code =>
    { s with mainExecStatus := { s.mainExecStatus with code := code } }).getD s
  | some .mainExecStatusStatus => ((safeAtoi value).map fun status =>
    { s with mainExecStatus := { s.mainExecStatus with status := status } }).getD s
  | some .mainExecStatusStart =>
    { s with mainExecStatus := { s.mainExecStatus with
        startTimestamp := dualTimestampDeserialize value s.mainExecStatus.startTimestamp } }
  | some .mainExecStatusExit =>
    { s with mainExecStatus := { s.mainExecStatus with
        exitTimestamp := dualTimestampDeserialize value s.mainExecStatus.exitTimestamp } }
  | _ => s

def serviceDeserialize (cfg : Config) (ans : Answers) (items : List (ItemKey × CString)) :
    Service :=
  items.foldl (fun s item => serviceDeserializeItem cfg ans item.1.text item.2 s) {}

def coldplugTimer (cfg : Config) (state : ServiceState) : Bool :=
  state.timed && (state = .autoRestart || 0 < cfg.timeoutUsec)

def coldplugMain (cfg : Config) (state : ServiceState) : Bool :=
  (state = .start && cfg.type ≠ .simple) || (state ≠ .start && state.keepsMain)

def coldplugWatched (cfg : Config) (state : ServiceState) (s : Service) : Finset Int32 :=
  (if state.keepsControl && 0 < s.controlPid then {s.controlPid} else ∅) ∪
    (if coldplugMain cfg state && 0 < s.mainPid then {s.mainPid} else ∅) ∪ s.watched

-- none if a timer or a process cannot be watched.
def serviceColdplug (cfg : Config) (ans : Answers) (s : Service) : Option Service :=
  let state := s.deserializedState
  if state = s.state then some s
  else if coldplugTimer cfg state && !ans.watchTimer then none
  else if coldplugMain cfg state && 0 < s.mainPid && !ans.watchPid then none
  else if state.keepsControl && 0 < s.controlPid && !ans.watchPid then none
  else some ({ s with
    timer := coldplugTimer cfg state || s.timer
    watched := coldplugWatched cfg state s }.setState state)

def daemonReload (cfg : Config) (ans : Answers) (s : Service) : Option Service :=
  serviceColdplug cfg ans (serviceDeserialize cfg ans (serviceSerialize s))

inductive Reachable (cfg : Config) : Nat -> Service -> Prop where
  | loaded : Reachable cfg 0 {}
  | event (now : Nat) (ans : Answers) (event : Event) (s : Service) (run : Run) :
      Reachable cfg now s -> now ≤ ans.now -> handle cfg ans event ⟨s, []⟩ = some run ->
      Reachable cfg ans.now run.service
  | reloaded (now : Nat) (ans : Answers) (s t : Service) :
      Reachable cfg now s -> now ≤ ans.now -> daemonReload cfg ans s = some t ->
      Reachable cfg ans.now t

end Systemd.Services
