import Systemd.Logins.Machine
import Systemd.Logins.Records
import Systemd.Services.Reload
import Systemd.Sockets.Address

set_option autoImplicit false

namespace Systemd.Logins

open List Option Function

open Serialization (decimal decimal_terminated parsePid parsePid_printNat printInt printNat safeAtoi
  safeAtoi_printInt)
open Services (parseBoolean)
open Sockets (safeAtou)

def Session.texts (s : Session) : List (String × Option CString) :=
  [("CGROUP", s.cgroupPath), ("FIFO", s.fifoPath), ("TTY", s.tty), ("DISPLAY", s.display),
    ("REMOTE_HOST", s.remoteHost), ("REMOTE_USER", s.remoteUser), ("SERVICE", s.service)]

def SessionType.all : List SessionType := [.unspecified, .tty, .x11]

-- A number is taken for the position in the table.
def SessionType.fromBytes (text : List UInt8) : Option SessionType :=
  match all.find? fun type => type.toBytes = text with
  | some type => some type
  | none => (safeAtou (.ofBuffer text)).bind fun number => all[number]?

def loadNames : List String :=
  ["REMOTE", "KILL_PROCESSES", "CGROUP", "FIFO", "SEAT", "TTY", "DISPLAY", "REMOTE_HOST", "REMOTE_USER",
    "SERVICE", "VTNR", "LEADER", "TYPE"]

def loadKeys : List (List UInt8) := loadNames.map ascii

def loadedValue (contents : List UInt8) (key : String) : Option (List UInt8) :=
  parseEnvFile loadKeys (.ofBuffer contents) (ascii key)

def loadedText (contents : List UInt8) (key : String) : Option CString :=
  (loadedValue contents key).map CString.ofBuffer

-- The strings of a new session are NULL before.
def loadTexts (contents : List UInt8) (s : Session) : Session :=
  { s with
    cgroupPath := loadedText contents "CGROUP"
    fifoPath := loadedText contents "FIFO"
    tty := loadedText contents "TTY"
    display := loadedText contents "DISPLAY"
    remoteHost := loadedText contents "REMOTE_HOST"
    remoteUser := loadedText contents "REMOTE_USER"
    service := loadedText contents "SERVICE"
    remote := ((loadedText contents "REMOTE").bind parseBoolean).getD s.remote
    killProcesses := ((loadedText contents "KILL_PROCESSES").bind parseBoolean).getD s.killProcesses }

theorem loadTexts_texts (contents : List UInt8) (s : Session) (seat : Option Identifier) :
    { loadTexts contents s with seat }.texts = s.texts.map fun text => (text.1, loadedText contents text.1) := rfl

def loadSeat (m : Manager) (id : Identifier) (contents : List UInt8) : Option Manager :=
  if (m.session id).seat = none then
    match (loadedValue contents "SEAT").bind fun name => m.seats.find? fun seat => seat.bytes = name with
    | some seat => (seatAttachSession m seat id).map Prod.fst
    | none => some m
  else
    some m

def loadNumbers (audit : Int32 -> Option UInt32) (contents : List UInt8) (s : Session) : Session :=
  let vtnr := ((loadedText contents "VTNR").bind safeAtoi).filter fun v =>
    s.seat.any seatIsVtconsole && decide (1 ≤ v)
  let leader := (loadedText contents "LEADER").bind parsePid
  let type := (loadedValue contents "TYPE").bind SessionType.fromBytes
  { s with
    vtnr := vtnr.getD s.vtnr
    leader := leader.getD s.leader
    auditId := (leader.bind audit).getD s.auditId
    type := type.getD s.type }

theorem loadNumbers_frame (audit : Int32 -> Option UInt32) (contents : List UInt8) (s : Session) :
    (loadNumbers audit contents s).texts = s.texts ∧ (loadNumbers audit contents s).seat = s.seat ∧
      (loadNumbers audit contents s).remote = s.remote ∧
      (loadNumbers audit contents s).killProcesses = s.killProcesses :=
  ⟨rfl, rfl, rfl, rfl⟩

def sessionLoad (audit : Int32 -> Option UInt32) (m : Manager) (id : Identifier) : Option Manager :=
  match m.sessionFile id with
  | none => some m
  | some contents =>
    (loadSeat (m.setSession id (loadTexts contents (m.session id))) id contents).map fun m =>
      m.setSession id (loadNumbers audit contents (m.session id))

structure Restored (s copy : Session) : Prop where
  remote : copy.remote = s.remote
  killProcesses : copy.killProcesses = s.killProcesses
  cgroupPath : copy.cgroupPath = s.cgroupPath
  fifoPath : copy.fifoPath = s.fifoPath
  seat : copy.seat = s.seat
  tty : copy.tty = s.tty
  display : copy.display = s.display
  remoteHost : copy.remoteHost = s.remoteHost
  remoteUser : copy.remoteUser = s.remoteUser
  service : copy.service = s.service
  vtnr : copy.vtnr = s.vtnr
  leader : copy.leader = s.leader
  type : copy.type = s.type

theorem restored_of_texts {s copy : Session} (texts : copy.texts = s.texts) (seat : copy.seat = s.seat)
    (remote : copy.remote = s.remote) (killProcesses : copy.killProcesses = s.killProcesses)
    (vtnr : copy.vtnr = s.vtnr) (leader : copy.leader = s.leader) (type : copy.type = s.type) :
    Restored s copy := by
  simp only [Session.texts, List.cons.injEq, Prod.mk.injEq, true_and, and_true] at texts
  obtain ⟨cgroupPath, fifoPath, tty, display, remoteHost, remoteUser, service⟩ := texts
  exact ⟨remote, killProcesses, cgroupPath, fifoPath, seat, tty, display, remoteHost, remoteUser, service,
    vtnr, leader, type⟩

theorem Restored.texts {s copy : Session} (restored : Restored s copy) : copy.texts = s.texts := by
  simp only [Session.texts, restored.cgroupPath, restored.fifoPath, restored.tty, restored.display,
    restored.remoteHost, restored.remoteUser, restored.service]

def Quoted (text : List UInt8) : Prop :=
  2 ≤ text.length ∧ (∃ byte ∈ text.head?, byte ∈ quotes) ∧ text.getLast? = text.head?

def Restorable (text : CString) : Prop :=
  text.bytes ≠ [] ∧ (∀ byte ∈ text.bytes, isNewline byte = false) ∧ ¬Quoted text.bytes

instance (text : List UInt8) : Decidable (Quoted text) := by
  unfold Quoted
  infer_instance

instance (text : CString) : Decidable (Restorable text) := by
  unfold Restorable
  infer_instance

structure Keepable (m : Manager) (s : Session) : Prop where
  texts : ∀ text ∈ s.texts, ∀ value ∈ text.2, Restorable value
  vtnr : s.vtnr = 0 ∨ s.seat = some .seat0 ∧ 0 < s.vtnr
  leader : 0 ≤ s.leader
  seat : ∀ seat ∈ s.seat, seat ∈ m.seats ∧ Vacant m seat

section

variable (m : Manager) (id : Identifier)

def sessionFields : Fields :=
  let s := m.session id
  [("UID", some (decimal 20 s.user.toNat)), ("USER", some (m.user s.user).name.bytes),
    ("ACTIVE", some (printFlag (sessionIsActive m id))), ("REMOTE", some (printFlag s.remote)),
    ("KILL_PROCESSES", some (printFlag s.killProcesses)), ("TYPE", some s.type.toBytes),
    ("CGROUP", s.cgroupPath.map (·.bytes)), ("FIFO", s.fifoPath.map (·.bytes)),
    ("SEAT", s.seat.map (·.bytes)), ("TTY", s.tty.map (·.bytes)), ("DISPLAY", s.display.map (·.bytes)),
    ("REMOTE_HOST", s.remoteHost.map (·.bytes)), ("REMOTE_USER", s.remoteUser.map (·.bytes)),
    ("SERVICE", s.service.map (·.bytes)),
    ("VTNR", if s.seat.any seatIsVtconsole then some (printInt s.vtnr).bytes else none),
    ("LEADER", if 0 < s.leader then some (decimal 20 s.leader.toInt.toNat) else none),
    ("AUDIT", if 0 < s.auditId then some (decimal 20 s.auditId.toNat) else none)]

theorem sessionText_eq : sessionText m id = header ++ fieldsText (sessionFields m id) := by
  simp [sessionText, fieldsText, sessionFields, optionalAssignment]

theorem sessionFields_keys : RecordKeys ((sessionFields m id).map Prod.fst) := by
  have keys : (sessionFields m id).map Prod.fst =
      ["UID", "USER", "ACTIVE", "REMOTE", "KILL_PROCESSES", "TYPE", "CGROUP", "FIFO", "SEAT", "TTY", "DISPLAY",
        "REMOTE_HOST", "REMOTE_USER", "SERVICE", "VTNR", "LEADER", "AUDIT"] := rfl
  rw [keys]
  decide +kernel

theorem loadKeys_envKeys : ∀ key ∈ loadKeys, EnvKey key := by decide +kernel

def PlainTexts (s : Session) : Prop :=
  ∀ text ∈ s.texts, ∀ value ∈ text.2, ∀ byte ∈ value.bytes, isNewline byte = false

theorem text_oneLine {key : String} {text : Option CString} (plain : PlainTexts (m.session id))
    (mem : (key, text) ∈ (m.session id).texts) : ∀ bytes ∈ text.map (·.bytes), OneLine bytes := by
  intro bytes given
  obtain ⟨value, own, rfl⟩ := mem_map.mp given
  exact ⟨value.terminated, plain _ mem value own⟩

theorem printInt_isName (number : Int32) : IsName (printInt number).bytes := by
  have digits : ∀ byte ∈ decimal 20 number.toInt.natAbs, nameByte byte = true := fun _ => nameByte_decimal
  have terminated := decimal_terminated 20 number.toInt.natAbs
  rw [printInt]
  split_ifs
  · have visible : 0 ∉ [45] ++ decimal 20 number.toInt.natAbs := by simpa using terminated
    rw [CString.ofBuffer_bytes visible]
    refine ⟨by simp, fun byte mem => ?_⟩
    rcases mem_append.mp mem with sign | inside
    · obtain rfl := mem_singleton.mp sign
      decide
    · exact digits byte inside
  · rw [nil_append, CString.ofBuffer_bytes terminated]
    exact decimal_isName _

theorem typeBytes_isName (type : SessionType) : IsName type.toBytes := by
  cases type with
  | unspecified => exact ⟨by decide, by decide⟩
  | tty => exact ⟨by decide, by decide⟩
  | x11 => exact ⟨by decide, by decide⟩

theorem sessionFields_values (plain : PlainTexts (m.session id)) :
    ∀ field ∈ sessionFields m id, ∀ text ∈ field.2, OneLine text := by
  have texts : ∀ (key : String) {text : Option CString}, (key, text) ∈ (m.session id).texts ->
      ∀ bytes ∈ text.map (·.bytes), OneLine bytes := fun _ _ mem => text_oneLine m id plain mem
  simp only [sessionFields, forall_mem_cons, not_mem_nil, false_imp_iff, implies_true, and_true]
  refine ⟨?_, ?_, ?_, ?_, ?_, ?_, ?_, ?_, ?_, ?_, ?_, ?_, ?_, ?_, ?_, ?_, ?_⟩
  · rintro text ⟨⟩
    exact (decimal_isName _).oneLine
  · rintro text ⟨⟩
    exact (m.user _).name.oneLine
  · rintro text ⟨⟩
    exact (printFlag_isName _).oneLine
  · rintro text ⟨⟩
    exact (printFlag_isName _).oneLine
  · rintro text ⟨⟩
    exact (printFlag_isName _).oneLine
  · rintro text ⟨⟩
    exact (typeBytes_isName _).oneLine
  · exact texts "CGROUP" (by simp [Session.texts])
  · exact texts "FIFO" (by simp [Session.texts])
  · intro text given
    obtain ⟨seat, -, rfl⟩ := mem_map.mp given
    exact seat.isName.oneLine
  · exact texts "TTY" (by simp [Session.texts])
  · exact texts "DISPLAY" (by simp [Session.texts])
  · exact texts "REMOTE_HOST" (by simp [Session.texts])
  · exact texts "REMOTE_USER" (by simp [Session.texts])
  · exact texts "SERVICE" (by simp [Session.texts])
  · intro text given
    split_ifs at given
    · obtain rfl : (printInt (m.session id).vtnr).bytes = text := by simpa using given
      exact (printInt_isName _).oneLine
    · cases given
  · intro text given
    split_ifs at given
    · obtain rfl : decimal 20 (m.session id).leader.toInt.toNat = text := by simpa using given
      exact (decimal_isName _).oneLine
    · cases given
  · intro text given
    split_ifs at given
    · obtain rfl : decimal 20 (m.session id).auditId.toNat = text := by simpa using given
      exact (decimal_isName _).oneLine
    · cases given

section

variable {m id} (plain : PlainTexts (m.session id))

variable {key : String} {value : Option (List UInt8)} {text : Option CString}

include plain in
theorem loadedValue_field (mem : (key, value) ∈ sessionFields m id) (wanted : key ∈ loadNames) :
    loadedValue (sessionText m id) key = fieldValue value := by
  rw [loadedValue, sessionText_eq]
  exact parseEnvFile_fields loadKeys_envKeys (sessionFields_keys m id) (sessionFields_values m id plain)
    mem (mem_map_of_mem wanted)

include plain in
theorem loadedValue_name (mem : (key, value) ∈ sessionFields m id) (wanted : key ∈ loadNames)
    (named : ∀ text ∈ value, IsName text) : loadedValue (sessionText m id) key = value := by
  rw [loadedValue_field plain mem wanted, fieldValue_name named]

include plain in
theorem loaded_remote : (loadedText (sessionText m id) "REMOTE").bind parseBoolean =
    some (m.session id).remote := by
  have value : loadedValue (sessionText m id) "REMOTE" = some (printFlag (m.session id).remote) :=
    loadedValue_name plain (by simp [sessionFields]) (by decide) fun text given =>
      mem_some.mp given ▸ printFlag_isName _
  rw [loadedText, value]
  cases (m.session id).remote with
  | false => decide
  | true => decide

include plain in
theorem loaded_killProcesses : (loadedText (sessionText m id) "KILL_PROCESSES").bind parseBoolean =
    some (m.session id).killProcesses := by
  have value : loadedValue (sessionText m id) "KILL_PROCESSES" =
      some (printFlag (m.session id).killProcesses) :=
    loadedValue_name plain (by simp [sessionFields]) (by decide) fun text given =>
      mem_some.mp given ▸ printFlag_isName _
  rw [loadedText, value]
  cases (m.session id).killProcesses with
  | false => decide
  | true => decide

include plain in
theorem loaded_type : (loadedValue (sessionText m id) "TYPE").bind SessionType.fromBytes =
    some (m.session id).type := by
  have value : loadedValue (sessionText m id) "TYPE" = some (m.session id).type.toBytes :=
    loadedValue_name plain (by simp [sessionFields]) (by decide) fun text given =>
      mem_some.mp given ▸ typeBytes_isName _
  rw [value]
  cases (m.session id).type with
  | unspecified => decide
  | tty => decide
  | x11 => decide

include plain in
theorem loaded_seat : loadedValue (sessionText m id) "SEAT" = (m.session id).seat.map (·.bytes) := by
  apply loadedValue_name plain (by simp [sessionFields]) (by decide)
  intro text given
  obtain ⟨seat, -, rfl⟩ := mem_map.mp given
  exact seat.isName

include plain in
theorem loaded_vtnr : (loadedText (sessionText m id) "VTNR").bind safeAtoi =
    if (m.session id).seat.any seatIsVtconsole then some (m.session id).vtnr else none := by
  have value : loadedValue (sessionText m id) "VTNR" =
      if (m.session id).seat.any seatIsVtconsole then some (printInt (m.session id).vtnr).bytes else none := by
    apply loadedValue_name plain (by simp [sessionFields]) (by decide)
    intro text given
    split_ifs at given
    · obtain rfl : (printInt (m.session id).vtnr).bytes = text := by simpa using given
      exact printInt_isName _
    · cases given
  rw [loadedText, value]
  split_ifs
  · rw [map_some, bind_some, CString.ofBuffer_self, safeAtoi_printInt]
  · rfl

include plain in
theorem loaded_leader : (loadedText (sessionText m id) "LEADER").bind parsePid =
    if 0 < (m.session id).leader then some (m.session id).leader else none := by
  have value : loadedValue (sessionText m id) "LEADER" =
      if 0 < (m.session id).leader then some (decimal 20 (m.session id).leader.toInt.toNat) else none := by
    apply loadedValue_name plain (by simp [sessionFields]) (by decide)
    intro text given
    split_ifs at given
    · obtain rfl : decimal 20 (m.session id).leader.toInt.toNat = text := by simpa using given
      exact decimal_isName _
    · cases given
  rw [loadedText, value]
  split_ifs with pos
  · exact parsePid_printNat pos
  · rfl

theorem unquote_eq_self {text : List UInt8} : unquote text = text ↔ ¬Quoted text := by
  rw [unquote, Quoted]
  split_ifs with quoted
  · refine iff_of_false (fun same => ?_) (fun plain => plain quoted)
    have lengths := congrArg List.length same
    rw [length_dropLast, length_tail] at lengths
    omega
  · exact iff_of_true rfl quoted

theorem fieldValue_text (single : ∀ value ∈ text, ∀ byte ∈ value.bytes, isNewline byte = false) :
    (fieldValue (text.map (·.bytes))).map CString.ofBuffer = text ↔ ∀ value ∈ text, Restorable value := by
  cases text with
  | none => simp [fieldValue]
  | some value =>
    have same : ∀ other : CString, CString.ofBuffer value.bytes = other ↔ value = other := by simp
    simp only [mem_some, forall_eq', map_some, fieldValue, bind_some] at single ⊢
    rw [Restorable, and_iff_right single, ← unquote_eq_self]
    constructor
    · intro back
      obtain ⟨text, read, rfl⟩ := map_eq_some_iff.mp back
      obtain ⟨unquoted, full⟩ := nonEmpty_eq_some.mp read
      have terminated : 0 ∉ text := by
        intro mem
        rw [← unquoted] at mem
        exact (CString.ofBuffer text).terminated (unquote_subset _ mem)
      rw [CString.ofBuffer_bytes terminated] at unquoted ⊢
      exact ⟨full, unquoted⟩
    · rintro ⟨full, unquoted⟩
      rw [unquoted, nonEmpty, if_neg full, map_some, CString.ofBuffer_self]

include plain in
theorem loadedText_text (listed : (key, text) ∈ (m.session id).texts)
    (mem : (key, text.map (·.bytes)) ∈ sessionFields m id) (wanted : key ∈ loadNames) :
    loadedText (sessionText m id) key = text ↔ ∀ value ∈ text, Restorable value := by
  rw [loadedText, loadedValue_field plain mem wanted]
  exact fieldValue_text (plain _ listed)

theorem find_seat (seats : List Identifier) (seat : Identifier) :
    (seats.find? fun other => other.bytes = seat.bytes) = if seat ∈ seats then some seat else none := by
  have same : ∀ other : Identifier, other.bytes = seat.bytes -> other = seat := by
    rintro ⟨bytes, -, -⟩ rfl
    rfl
  split_ifs with known
  · cases found : seats.find? fun other => other.bytes = seat.bytes with
    | none => simpa using find?_eq_none.mp found seat known
    | some other => rw [same other (by simpa using find?_some found)]
  · rw [find?_eq_none]
    intro other mem
    have distinct : other ≠ seat := fun equal => known (equal ▸ mem)
    simpa using fun equal => distinct (same other equal)

section

variable {copy : Manager} (unseated : (copy.session id).seat = none)

include plain unseated in
theorem loadSeat_vacant (vacant : ∀ seat ∈ (m.session id).seat, seat ∈ copy.seats ∧ Vacant copy seat) :
    ∃ loaded, loadSeat copy id (sessionText m id) = some loaded ∧
      loaded.session id = { copy.session id with seat := (m.session id).seat } := by
  rw [loadSeat, if_pos unseated, loaded_seat plain]
  cases own : (m.session id).seat with
  | none => exact ⟨copy, rfl, by rw [← unseated]⟩
  | some seat =>
    obtain ⟨known, free⟩ := vacant seat own
    obtain ⟨loaded, attached, sessions⟩ := seatAttachSession_vacant unseated free
    refine ⟨loaded, ?_, by rw [sessions, update_self]⟩
    rw [map_some, bind_some, find_seat, if_pos known]
    simp only [attached, map_some]

include plain unseated in
theorem loadSeat_seated {loaded : Manager} (result : loadSeat copy id (sessionText m id) = some loaded)
    (same : (loaded.session id).seat = (m.session id).seat) :
    ∀ seat ∈ (m.session id).seat, seat ∈ copy.seats ∧ Vacant copy seat := by
  intro seat own
  rw [mem_def] at own
  have missing : loaded = copy -> False := by
    rintro rfl
    rw [unseated, own] at same
    cases same
  rw [loadSeat, if_pos unseated, loaded_seat plain, own, map_some, bind_some, find_seat] at result
  split_ifs at result with known
  · obtain ⟨⟨other, attached⟩, outcome, rfl⟩ := map_eq_some_iff.mp result
    rcases seatAttachSession_session outcome with ⟨-, vacant, -⟩ | ⟨-, rfl⟩
    · exact ⟨known, vacant⟩
    · exact absurd rfl missing
  · exact absurd (some.inj result).symm missing

end

end

end

variable {m : Manager} {id : Identifier}

theorem loadSeat_session {loaded : Manager} {contents : List UInt8}
    (result : loadSeat m id contents = some loaded) :
    ∃ seat, loaded.session id = { m.session id with seat } := by
  rw [loadSeat] at result
  split_ifs at result with unseated
  · cases found : (loadedValue contents "SEAT").bind fun name => m.seats.find? fun seat => seat.bytes = name with
    | none =>
      simp only [found, some.injEq] at result
      subst result
      exact ⟨(m.session id).seat, rfl⟩
    | some seat =>
      simp only [found] at result
      obtain ⟨⟨other, attached⟩, outcome, rfl⟩ := map_eq_some_iff.mp result
      rcases seatAttachSession_session outcome with ⟨-, -, sessions⟩ | ⟨-, rfl⟩
      · exact ⟨some seat, by simp [sessions]⟩
      · exact ⟨(other.session id).seat, rfl⟩
  · rw [some.injEq] at result
    subst result
    exact ⟨(m.session id).seat, rfl⟩

theorem sessionSave_file (started : (m.session id).started = true) :
    (sessionSave m id).sessionFile id = some (sessionText m id) := by
  rw [sessionSave, if_pos started]
  exact update_self ..

section

variable {m copy : Manager} {id : Identifier} {uid : UInt32} (audit : Int32 -> Option UInt32)
  (fresh : copy.session id = .zero uid) (kept : copy.sessionFile id = some (sessionText m id))

include fresh kept in
theorem sessionLoad_some {loaded : Manager} (result : sessionLoad audit copy id = some loaded) :
    ∃ seated, loadSeat (copy.setSession id (loadTexts (sessionText m id) (.zero uid))) id (sessionText m id) =
        some seated ∧
      loaded.session id = loadNumbers audit (sessionText m id) (seated.session id) := by
  rw [sessionLoad] at result
  simp only [kept, fresh] at result
  obtain ⟨seated, outcome, rfl⟩ := map_eq_some_iff.mp result
  exact ⟨seated, outcome, by simp⟩

variable {contents : List UInt8}

theorem loadedText_plain {key : String} {value : CString}
    (given : loadedText contents key = some value) : ∀ byte ∈ value.bytes, isNewline byte = false := by
  obtain ⟨text, read, rfl⟩ := map_eq_some_iff.mp given
  obtain ⟨-, terminated, single⟩ := parseEnvFile_value (plainKeys_of_envKeys loadKeys_envKeys) read
  rwa [CString.ofBuffer_bytes terminated]

theorem Restored.plain {s seated : Session} (restored : Restored s (loadNumbers audit contents seated))
    (texts : ∃ seat, seated = { loadTexts contents (.zero uid) with seat }) : PlainTexts s := by
  obtain ⟨seat, rfl⟩ := texts
  obtain ⟨-, -, cgroup, fifo, -, tty, display, host, user, service, -, -, -⟩ := restored
  intro text mem value own
  rw [mem_def] at own
  simp only [Session.texts, mem_cons, not_mem_nil, or_false] at mem
  rcases mem with rfl | rfl | rfl | rfl | rfl | rfl | rfl
  · exact loadedText_plain (cgroup.trans own)
  · exact loadedText_plain (fifo.trans own)
  · exact loadedText_plain (tty.trans own)
  · exact loadedText_plain (display.trans own)
  · exact loadedText_plain (host.trans own)
  · exact loadedText_plain (user.trans own)
  · exact loadedText_plain (service.trans own)

end

section

variable {m : Manager} {id : Identifier} {uid : UInt32} (audit : Int32 -> Option UInt32)
  (plain : PlainTexts (m.session id))

include plain in
theorem texts_restored :
    (∀ text ∈ (m.session id).texts, loadedText (sessionText m id) text.1 = text.2) ↔
      ∀ text ∈ (m.session id).texts, ∀ value ∈ text.2, Restorable value := by
  have each : ∀ text ∈ (m.session id).texts, text.1 ∈ loadNames ∧
      (text.1, text.2.map (·.bytes)) ∈ sessionFields m id := by
    simp [Session.texts, sessionFields, loadNames]
  constructor
  · intro same text mem
    obtain ⟨wanted, field⟩ := each text mem
    exact (loadedText_text plain mem field wanted).mp (same text mem)
  · intro restorable text mem
    obtain ⟨wanted, field⟩ := each text mem
    exact (loadedText_text plain mem field wanted).mpr (restorable text mem)

theorem one_le_iff (number : Int32) : 1 ≤ number ↔ 0 < number := by
  have one : (1 : Int32).toInt = 1 := by decide
  have zero : (0 : Int32).toInt = 0 := by decide
  rw [Int32.le_iff_toInt_le, Int32.lt_iff_toInt_lt, one, zero]
  omega

theorem nonneg_iff (number : Int32) : 0 ≤ number ↔ number = 0 ∨ 0 < number := by
  have zero : (0 : Int32).toInt = 0 := by decide
  rw [Int32.le_iff_toInt_le, Int32.lt_iff_toInt_lt, zero, ← Int32.toInt_inj, zero]
  omega

include plain in
theorem numbers_restored {seated : Session} (seat : seated.seat = (m.session id).seat)
    (zero : seated.vtnr = 0 ∧ seated.leader = 0) :
    (loadNumbers audit (sessionText m id) seated).type = (m.session id).type ∧
    ((loadNumbers audit (sessionText m id) seated).vtnr = (m.session id).vtnr ↔
      (m.session id).vtnr = 0 ∨ (m.session id).seat = some .seat0 ∧ 0 < (m.session id).vtnr) ∧
    ((loadNumbers audit (sessionText m id) seated).leader = (m.session id).leader ↔
      0 ≤ (m.session id).leader) := by
  refine ⟨?_, ?_, ?_⟩
  · simp only [loadNumbers, loaded_type plain, getD_some]
  · have console : (m.session id).seat.any seatIsVtconsole = true ↔ (m.session id).seat = some .seat0 := by
      cases (m.session id).seat with
      | none => simp
      | some seat => simp [seatIsVtconsole]
    simp only [loadNumbers, loaded_vtnr plain, seat, zero.1, ← console]
    by_cases terminal : (m.session id).seat.any seatIsVtconsole = true
    · rw [if_pos terminal, filter_some, terminal, Bool.true_and]
      by_cases pos : 0 < (m.session id).vtnr
      · simp [(one_le_iff _).mpr pos, pos]
      · simp [one_le_iff, pos, eq_comm]
    · simp [terminal, eq_comm]
  · simp only [loadNumbers, loaded_leader plain, zero.2, nonneg_iff]
    split_ifs with pos
    · simp [pos]
    · simp [pos, eq_comm]

include plain in
theorem restored_iff {seated : Session}
    (loaded : seated = { loadTexts (sessionText m id) (.zero uid) with seat := (m.session id).seat }) :
    Restored (m.session id) (loadNumbers audit (sessionText m id) seated) ↔
      (∀ text ∈ (m.session id).texts, ∀ value ∈ text.2, Restorable value) ∧
        ((m.session id).vtnr = 0 ∨ (m.session id).seat = some .seat0 ∧ 0 < (m.session id).vtnr) ∧
          0 ≤ (m.session id).leader := by
  have own : seated.seat = (m.session id).seat := by rw [loaded]
  have zero : seated.vtnr = 0 ∧ seated.leader = 0 := by
    rw [loaded]
    exact ⟨rfl, rfl⟩
  obtain ⟨type, vtnr, leader⟩ := numbers_restored audit plain own zero
  obtain ⟨texts, seat, remote, killProcesses⟩ := loadNumbers_frame audit (sessionText m id) seated
  have read : seated.texts = (m.session id).texts.map fun text => (text.1, loadedText (sessionText m id) text.1) := by
    rw [loaded, loadTexts_texts]
    rfl
  have same : seated.texts = (m.session id).texts ↔
      ∀ text ∈ (m.session id).texts, loadedText (sessionText m id) text.1 = text.2 := by
    have pointwise := map_inj_left (l := (m.session id).texts)
      (f := fun text => (text.1, loadedText (sessionText m id) text.1)) (g := fun text => text)
    rw [List.map_id'] at pointwise
    rw [read, pointwise]
    simp only [Prod.ext_iff, true_and]
  rw [← texts_restored plain, ← vtnr, ← leader, ← same]
  constructor
  · intro restored
    exact ⟨texts ▸ restored.texts, restored.vtnr, restored.leader⟩
  · rintro ⟨same, vtnr, leader⟩
    apply restored_of_texts (texts.trans same) (seat.trans (by rw [loaded])) _ _ vtnr leader type
    · rw [remote, loaded]
      simp only [loadTexts, loaded_remote plain, getD_some]
    · rw [killProcesses, loaded]
      simp only [loadTexts, loaded_killProcesses plain, getD_some]

end

def restarted (m : Manager) : Manager :=
  { Manager.zero with seats := [.seat0], sessionFile := m.sessionFile }

def console (tty : String) : Manager :=
  { Manager.zero with
    session := fun _ =>
      { Session.zero 1000 with
        type := .tty, tty := some (.ofString tty), seat := some .seat0, vtnr := 1, leader := 500, started := true }
    sessions := [.c1]
    users := [1000]
    seats := [.seat0] }

end Systemd.Logins
