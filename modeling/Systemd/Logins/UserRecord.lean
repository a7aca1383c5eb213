import Systemd.Logins.Records

set_option autoImplicit false

namespace Systemd.Logins

open List Option

open Serialization (decimal)

-- strv_uniq() keeps the first of several entries that are the same.
def uidGetArray (m : Manager) (uid : UInt32) (key : String) : List (List UInt8) :=
  match m.userFile uid with
  | none => []
  | some contents =>
    match readVariable key contents with
    | none => []
    | some s => (splitWords [space] (s.length + 1) s).eraseDups

section

variable (m : Manager) (uid : UInt32)

def seatName (id : Identifier) : Option (List UInt8) := (m.session id).seat.map (·.bytes)

def activeName (id : Identifier) : Option (List UInt8) :=
  if sessionIsActive m id then some (decimal 20 (m.session id).user.toNat) else none

def activeSeatName (id : Identifier) : Option (List UInt8) :=
  if sessionIsActive m id then seatName m id else none

structure UserAnswers : Prop where
  sessions : ∀ word, word ∈ uidGetArray (userSave m uid) uid "SESSIONS" ↔
    ∃ id ∈ (m.user uid).sessions, word = id.bytes
  seats : ∀ word, word ∈ uidGetArray (userSave m uid) uid "SEATS" ↔
    ∃ id ∈ (m.user uid).sessions, ∃ seat, (m.session id).seat = some seat ∧ word = seat.bytes
  activeSessions : ∀ word, word ∈ uidGetArray (userSave m uid) uid "ACTIVE_SESSIONS" ↔
    ∃ id ∈ (m.user uid).sessions, sessionIsActive m id = true ∧ word = id.bytes
  activeSeats : ∀ word, word ∈ uidGetArray (userSave m uid) uid "ACTIVE_SEATS" ↔
    ∃ id ∈ (m.user uid).sessions, sessionIsActive m id = true ∧
      ∃ seat, (m.session id).seat = some seat ∧ word = seat.bytes

variable {word : List UInt8} {id : Identifier}

theorem seatName_eq :
    seatName m id = some word ↔ ∃ seat, (m.session id).seat = some seat ∧ word = seat.bytes := by
  simp only [seatName, map_eq_some_iff, eq_comm (a := word)]

theorem activeSeatName_eq :
    activeSeatName m id = some word ↔ sessionIsActive m id = true ∧
      ∃ seat, (m.session id).seat = some seat ∧ word = seat.bytes := by
  rw [activeSeatName, ite_none_right_eq_some, seatName_eq]

def PrintsNames (print : Identifier -> Option (List UInt8)) : Prop :=
  ∀ id word, print id = some word -> IsName word

theorem seatName_prints : PrintsNames (seatName m) := by
  intro id word given
  obtain ⟨seat, -, rfl⟩ := (seatName_eq m).mp given
  exact seat.isName

theorem activeName_prints : PrintsNames (activeName m) := by
  intro id word given
  rw [activeName] at given
  split_ifs at given
  obtain rfl : decimal 20 (m.session id).user.toNat = word := by simpa using given
  exact decimal_isName _

theorem activeSeatName_prints : PrintsNames (activeSeatName m) := by
  intro id word given
  obtain ⟨-, seat, -, rfl⟩ := (activeSeatName_eq m).mp given
  exact seat.isName

theorem PrintsNames.filterMap {print : Identifier -> Option (List UInt8)} (named : PrintsNames print)
    (sessions : List Identifier) : ∀ word ∈ sessions.filterMap print, IsName word := by
  intro word mem
  obtain ⟨id, -, given⟩ := mem_filterMap.mp mem
  exact named id word given

end

section

variable {print : Identifier -> Option (List UInt8)}
  (named : PrintsNames print)

variable {last : Identifier} {sessions : List Identifier}

theorem printList_ended (isLast : sessions.getLast? = some last) (prints : (print last).isSome = true) :
    printList print sessions = joinWords space (sessions.filterMap print) ++ [newline] := by
  induction sessions with
  | nil => cases isLast
  | cons id rest ih =>
    cases rest with
    | nil =>
      obtain rfl : id = last := by simpa using isLast
      obtain ⟨word, given⟩ := isSome_iff_exists.mp prints
      simp [printList, given, joinWords]
    | cons next rest =>
      rw [getLast?_cons_cons] at isLast
      have later := ih isLast
      rw [printList, later]
      cases given : print id with
      | none => simp [given]
      | some word =>
        have more : (next :: rest).filterMap print ≠ [] := by
          obtain ⟨word, given⟩ := isSome_iff_exists.mp prints
          exact ne_nil_of_mem (mem_filterMap.mpr
            ⟨last, mem_of_getLast? isLast, given⟩)
        obtain ⟨other, words, split⟩ := exists_cons_of_ne_nil more
        rw [filterMap_cons_some given, split]
        simp [joinWords]

include named in
theorem printList_open (isLast : sessions.getLast? = some last) (silent : print last = none) :
    (∀ byte ∈ printList print sessions, nameByte byte = true ∨ byte = space) ∧
      ∀ byte ∈ (printList print sessions).head?, nameByte byte = true := by
  induction sessions with
  | nil => cases isLast
  | cons id rest ih =>
    cases rest with
    | nil =>
      obtain rfl : id = last := by simpa using isLast
      simp [printList, silent]
    | cons next rest =>
      rw [getLast?_cons_cons] at isLast
      obtain ⟨inside, first⟩ := ih isLast
      rw [printList]
      cases given : print id with
      | none => exact ⟨inside, first⟩
      | some word =>
        obtain ⟨full, each⟩ := named id word given
        refine ⟨fun byte mem => ?_, fun byte mem => ?_⟩
        · rw [elim_some, append_assoc, mem_append, mem_append,
            mem_singleton] at mem
          rcases mem with here | rfl | later
          · exact .inl (each byte here)
          · exact .inr rfl
          · exact inside byte later
        · obtain ⟨front, word, rfl⟩ := exists_cons_of_ne_nil full
          obtain rfl : front = byte := by simpa using mem
          exact each front (by simp)

end

theorem listAssignment_ended {print : Identifier -> Option (List UInt8)} {sessions : List Identifier}
    {last : Identifier} (isLast : sessions.getLast? = some last) (prints : (print last).isSome = true)
    (key : String) :
    listAssignment key print sessions =
      optionalAssignment key (some (joinWords space (sessions.filterMap print))) := by
  rw [listAssignment, printList_ended isLast prints]
  simp [optionalAssignment, assignment]

section

variable (m : Manager) (uid : UInt32)

def userFields : Fields :=
  [("NAME", some (m.user uid).name.bytes), ("STATE", some (userGetState m uid).toBytes),
    ("CGROUP", (m.user uid).cgroupPath.map (·.bytes)), ("RUNTIME", (m.user uid).runtimePath.map (·.bytes)),
    ("SERVICE", (m.user uid).service.map (·.bytes)), ("DISPLAY", (m.user uid).display.map (·.bytes)),
    ("SESSIONS", listValue ((m.user uid).sessions.map (·.bytes)))]

theorem userText_none (nobody : (m.user uid).sessions = []) :
    userText m uid = header ++ fieldsText (userFields m uid) := by
  simp [userText, fieldsText, userFields, nobody, listValue, optionalAssignment]

theorem userText_some (somebody : (m.user uid).sessions ≠ []) :
    userText m uid = header ++ fieldsText (userFields m uid) ++
      (listAssignment "SEATS" (seatName m) (m.user uid).sessions ++
        listAssignment "ACTIVE_SESSIONS" (activeName m) (m.user uid).sessions ++
          listAssignment "ACTIVE_SEATS" (activeSeatName m) (m.user uid).sessions) := by
  simp only [userText, if_neg somebody, listAssignment_eq "SESSIONS" (·.bytes) somebody]
  simp [fieldsText, userFields, optionalAssignment]
  rfl

theorem userFields_values : ∀ field ∈ userFields m uid, ∀ text ∈ field.2, OneLine text := by
  simp only [userFields, forall_mem_cons, not_mem_nil, false_imp_iff, implies_true, and_true]
  refine ⟨?_, ?_, ?_, ?_, ?_, ?_, ?_⟩
  · rintro text ⟨⟩
    exact (m.user uid).name.oneLine
  · rintro text ⟨⟩
    cases userGetState m uid with
    | offline => exact ⟨by decide, by decide⟩
    | lingering => exact ⟨by decide, by decide⟩
    | online => exact ⟨by decide, by decide⟩
    | active => exact ⟨by decide, by decide⟩
  · intro text given
    obtain ⟨path, -, rfl⟩ := Option.mem_map.mp given
    exact path.toLineText.oneLine
  · intro text given
    obtain ⟨path, -, rfl⟩ := Option.mem_map.mp given
    exact path.toLineText.oneLine
  · intro text given
    obtain ⟨service, -, rfl⟩ := Option.mem_map.mp given
    exact service.oneLine
  · intro text given
    obtain ⟨display, -, rfl⟩ := Option.mem_map.mp given
    exact display.isName.oneLine
  · apply listValue_oneLine
    intro word mem
    obtain ⟨id, -, rfl⟩ := List.mem_map.mp mem
    exact id.isName

def completeFields : Fields :=
  userFields m uid ++
    [("SEATS", listValue ((m.user uid).sessions.filterMap (seatName m))),
      ("ACTIVE_SESSIONS", listValue ((m.user uid).sessions.filterMap (activeName m))),
      ("ACTIVE_SEATS", listValue ((m.user uid).sessions.filterMap (activeSeatName m)))]

def userKeys : List String := ["NAME", "STATE", "CGROUP", "RUNTIME", "SERVICE", "DISPLAY", "SESSIONS"]

theorem completeFields_keys : RecordKeys ((completeFields m uid).map Prod.fst) := by
  have keys : (completeFields m uid).map Prod.fst = userKeys ++ ["SEATS", "ACTIVE_SESSIONS", "ACTIVE_SEATS"] := rfl
  rw [keys]
  decide +kernel

theorem completeFields_values : ∀ field ∈ completeFields m uid, ∀ text ∈ field.2, OneLine text := by
  intro field mem
  rcases mem_append.mp mem with own | listed
  · exact userFields_values m uid field own
  · simp only [mem_cons, not_mem_nil, or_false] at listed
    rcases listed with rfl | rfl | rfl
    · exact listValue_oneLine ((seatName_prints m).filterMap _)
    · exact listValue_oneLine ((activeName_prints m).filterMap _)
    · exact listValue_oneLine ((activeSeatName_prints m).filterMap _)

theorem listAssignment_complete {print : Identifier -> Option (List UInt8)} {sessions : List Identifier}
    {last : Identifier} (isLast : sessions.getLast? = some last) (prints : (print last).isSome = true)
    (key : String) :
    listAssignment key print sessions = optionalAssignment key (listValue (sessions.filterMap print)) := by
  obtain ⟨word, given⟩ := isSome_iff_exists.mp prints
  have more : sessions.filterMap print ≠ [] :=
    ne_nil_of_mem (mem_filterMap.mpr ⟨last, mem_of_getLast? isLast, given⟩)
  rw [listAssignment_ended isLast prints, listValue, if_neg more]

def LastSeated : Prop :=
  ∃ last, (m.user uid).sessions.getLast? = some last ∧ sessionIsActive m last = true ∧
    (m.session last).seat.isSome = true

theorem userText_complete (orderly : (m.user uid).sessions = [] ∨ LastSeated m uid) :
    userText m uid = header ++ fieldsText (completeFields m uid) := by
  rcases orderly with nobody | ⟨last, isLast, active, seated⟩
  · rw [userText_none m uid nobody]
    simp [completeFields, nobody, fieldsText, listValue, optionalAssignment]
  · have somebody : (m.user uid).sessions ≠ [] := by
      rintro nobody
      simp [nobody] at isLast
    have seat : (seatName m last).isSome = true := by simpa [seatName] using seated
    have print : (activeName m last).isSome = true := by simp [activeName, active]
    have activeSeat : (activeSeatName m last).isSome = true := by simpa [activeSeatName, active] using seat
    rw [userText_some m uid somebody, listAssignment_complete isLast seat, listAssignment_complete isLast print,
      listAssignment_complete isLast activeSeat]
    simp [completeFields, fieldsText]

section

variable {m uid} (started : (m.user uid).started = true)

include started in
theorem userSave_file : (userSave m uid).userFile uid = some (userText m uid) := by
  rw [userSave, if_pos started]
  exact Function.update_self ..

variable {key : String} {fields : Fields} {print : Identifier -> Option (List UInt8)} {last : Identifier}
  {sessions : List Identifier}

include started in
theorem mem_uidGetArray {words : List (List UInt8)} (each : ∀ word ∈ words, IsName word)
    (value : readVariable key (userText m uid) = listValue words) (word : List UInt8) :
    word ∈ uidGetArray (userSave m uid) uid key ↔ word ∈ words := by
  rw [uidGetArray]
  simp only [userSave_file started, value]
  rw [listValue]
  split_ifs with empty
  · simp [empty]
  · have split : splitWords [space] ((joinWords space words).length + 1) (joinWords space words) = words :=
      splitWords_joinWords (by simp) words (fun other mem => (each other mem).isWord_space) _
        (length_lt_joinWords space fun other mem => (each other mem).1)
    simp only [split, mem_eraseDups]

include started in
theorem mem_uidGetArray_merged {value : List UInt8}
    (read : readVariable key (userText m uid) = some value) (merged : equalsSign ∈ value) :
    ∃ word ∈ uidGetArray (userSave m uid) uid key, equalsSign ∈ word := by
  have visible : equalsSign ∉ [space] := by decide
  obtain ⟨word, among, inside⟩ := mem_splitWords visible (value.length + 1) value (by omega) merged
  refine ⟨word, ?_, inside⟩
  rw [uidGetArray]
  simp only [userSave_file started, read, mem_eraseDups]
  exact among

theorem not_isName {word : List UInt8} (merged : equalsSign ∈ word) : ¬IsName word := by
  intro isName
  have named := isName.2 equalsSign merged
  revert named
  decide

include started in
theorem userAnswers_complete (orderly : (m.user uid).sessions = [] ∨ LastSeated m uid)
    (owned : ∀ id ∈ (m.user uid).sessions, (m.session id).user = uid) :
    UserAnswers m uid ↔ ∀ id ∈ (m.user uid).sessions, sessionIsActive m id = true ->
      id.bytes = decimal 20 uid.toNat := by
  have read : ∀ (key : String) {words : List (List UInt8)}, (∀ word ∈ words, IsName word) ->
      (key, listValue words) ∈ completeFields m uid -> ∀ word,
        word ∈ uidGetArray (userSave m uid) uid key ↔ word ∈ words := by
    intro key words each mem
    apply mem_uidGetArray started each
    rw [userText_complete m uid orderly, readVariable_fields (completeFields_keys m uid)
      (completeFields_values m uid) mem, fieldValue_list each]
  have ids : ∀ word ∈ (m.user uid).sessions.map (·.bytes), IsName word := by
    intro word mem
    obtain ⟨id, -, rfl⟩ := List.mem_map.mp mem
    exact id.isName
  have sessions := read "SESSIONS" ids (by simp [completeFields, userFields])
  have seats := read "SEATS" ((seatName_prints m).filterMap (m.user uid).sessions) (by simp [completeFields])
  have active := read "ACTIVE_SESSIONS" ((activeName_prints m).filterMap (m.user uid).sessions)
    (by simp [completeFields])
  have activeSeats := read "ACTIVE_SEATS" ((activeSeatName_prints m).filterMap (m.user uid).sessions)
    (by simp [completeFields])
  have printed : ∀ id ∈ (m.user uid).sessions, ∀ word, activeName m id = some word ↔
      sessionIsActive m id = true ∧ word = decimal 20 uid.toNat := by
    intro id mem word
    rw [activeName, owned id mem]
    split_ifs with isActive
    · simp [isActive, eq_comm]
    · simp [isActive]
  constructor
  · intro ans id mem isActive
    have listed := (ans.activeSessions id.bytes).mpr ⟨id, mem, isActive, rfl⟩
    obtain ⟨other, among, given⟩ := mem_filterMap.mp ((active _).mp listed)
    exact ((printed other among _).mp given).2
  · intro numbered
    constructor
    · intro word
      rw [sessions, List.mem_map]
      simp only [eq_comm]
    · intro word
      rw [seats, mem_filterMap]
      simp only [seatName_eq]
    · intro word
      rw [active, mem_filterMap]
      constructor
      · rintro ⟨id, mem, given⟩
        obtain ⟨isActive, rfl⟩ := (printed id mem word).mp given
        exact ⟨id, mem, isActive, (numbered id mem isActive).symm⟩
      · rintro ⟨id, mem, isActive, rfl⟩
        exact ⟨id, mem, (printed id mem _).mpr ⟨isActive, numbered id mem isActive⟩⟩
    · intro word
      rw [activeSeats, mem_filterMap]
      simp only [activeSeatName_eq]

theorem userText_lists (somebody : (m.user uid).sessions ≠ []) (lists : listAssignment "SEATS" (seatName
      m) (m.user uid).sessions ++ listAssignment "ACTIVE_SESSIONS" (activeName m) (m.user uid).sessions
      ++ listAssignment "ACTIVE_SEATS" (activeSeatName m) (m.user uid).sessions ++ [newline] =
      fieldsText fields) :
    userText m uid ++ [newline] = header ++ fieldsText (userFields m uid ++ fields) := by
  rw [userText_some m uid somebody, append_assoc, lists, fieldsText, fieldsText, fieldsText,
    flatMap_append, append_assoc]

theorem oneLine_of_bytes {text : List UInt8}
    (each : ∀ byte ∈ text, nameByte byte = true ∨ byte = space ∨ byte = equalsSign) : OneLine text := by
  have zero : nameByte 0 = false := by decide
  refine ⟨fun mem => ?_, fun byte mem => ?_⟩
  · rcases each 0 mem with named | same | same
    · rw [zero] at named
      contradiction
    · exact absurd same (by decide)
    · exact absurd same (by decide)
  · rcases each byte mem with named | rfl | rfl
    · exact not_isNewline named
    · decide
    · decide

def merged (print : Identifier -> Option (List UInt8)) (sessions : List Identifier) (key : String)
    (next : List UInt8) : List UInt8 :=
  printList print sessions ++ (ascii key ++ equalsSign :: next)

theorem merged_read (named : PrintsNames print) (isLast : sessions.getLast? = some last)
    (silent : print last = none) (isKey : IsName (ascii key)) (next : List UInt8) :
    fieldValue (some (merged print sessions key next)) = some (merged print sessions key next) := by
  obtain ⟨-, first⟩ := printList_open named isLast silent
  have plain : ∀ byte ∈ (merged print sessions key next).head?, byte ∉ quotes := by
    intro byte mem
    apply not_mem_quotes
    rw [merged] at mem
    cases list : printList print sessions with
    | nil =>
      obtain ⟨front, rest, split⟩ := exists_cons_of_ne_nil isKey.1
      rw [list, split] at mem
      obtain rfl : front = byte := by simpa using mem
      exact isKey.2 front (by simp [split])
    | cons front rest =>
      rw [list] at mem first
      exact first byte (by simpa using mem)
  have full : merged print sessions key next ≠ [] := by simp [merged]
  rw [fieldValue, bind_some, unquote_of_head plain, nonEmpty, if_neg full]

theorem merged_oneLine (named : PrintsNames print) (isLast : sessions.getLast? = some last)
    (silent : print last = none) (isKey : IsName (ascii key)) {next : List UInt8}
    (plain : ∀ byte ∈ next, nameByte byte = true ∨ byte = space) :
    OneLine (merged print sessions key next) := by
  obtain ⟨inside, -⟩ := printList_open named isLast silent
  apply oneLine_of_bytes
  intro byte mem
  simp only [merged, mem_append, mem_cons] at mem
  rcases mem with listed | own | rfl | later
  · exact (inside byte listed).imp_right .inl
  · exact .inl (isKey.2 byte own)
  · exact .inr (.inr rfl)
  · exact (plain byte later).imp_right .inl

theorem fields_oneLine (values : ∀ field ∈ fields, ∀ text ∈ field.2, OneLine text) :
    ∀ field ∈ userFields m uid ++ fields, ∀ text ∈ field.2, OneLine text := by
  intro field mem
  rcases mem_append.mp mem with own | listed
  · exact userFields_values m uid field own
  · exact values field listed

/-- With these behind the fields of the user itself, the record reads like one of whole lines. -/
structure Completes (m : Manager) (uid : UInt32) (fields : Fields) : Prop where
  keys : RecordKeys ((userFields m uid ++ fields).map Prod.fst)
  values : ∀ field ∈ userFields m uid ++ fields, ∀ text ∈ field.2, OneLine text
  closed : userText m uid ++ [newline] = header ++ fieldsText (userFields m uid ++ fields)

theorem Completes.read (completes : Completes m uid fields) {value : Option (List UInt8)}
    (mem : (key, value) ∈ userFields m uid ++ fields) :
    readVariable key (userText m uid) = fieldValue value :=
  readVariable_open completes.keys completes.values completes.closed mem

-- The line of the seats goes on with ACTIVE_SESSIONS=.
def unseatedFields (m : Manager) (uid : UInt32) : Fields :=
  [("SEATS", some (merged (seatName m) (m.user uid).sessions "ACTIVE_SESSIONS"
      (joinWords space ((m.user uid).sessions.filterMap (activeName m))))),
    ("ACTIVE_SEATS", some (printList (activeSeatName m) (m.user uid).sessions))]

-- The line of the active sessions goes on with ACTIVE_SEATS=.
def inactiveFields (m : Manager) (uid : UInt32) : Fields :=
  [("SEATS", some (joinWords space ((m.user uid).sessions.filterMap (seatName m)))),
    ("ACTIVE_SESSIONS", some (merged (activeName m) (m.user uid).sessions "ACTIVE_SEATS"
      (printList (activeSeatName m) (m.user uid).sessions)))]

section

variable (isLast : (m.user uid).sessions.getLast? = some last)
include isLast

theorem unseatedFields_completes (unseated : (m.session last).seat = none) :
    Completes m uid (unseatedFields m uid) := by
  have somebody : (m.user uid).sessions ≠ [] := by
    rintro nobody
    simp [nobody] at isLast
  have active : sessionIsActive m last = true := by simp [sessionIsActive, unseated]
  have noSeat : seatName m last = none := by simp [seatName, unseated]
  have noActiveSeat : activeSeatName m last = none := by simp [activeSeatName, noSeat]
  have isKey : IsName (ascii "ACTIVE_SESSIONS") := ⟨by decide, by decide⟩
  constructor
  · have names : (userFields m uid ++ unseatedFields m uid).map Prod.fst =
        userKeys ++ ["SEATS", "ACTIVE_SEATS"] := rfl
    rw [names]
    decide +kernel
  · apply fields_oneLine
    simp only [unseatedFields, forall_mem_cons, not_mem_nil, false_imp_iff, implies_true, and_true]
    refine ⟨?_, ?_⟩
    · rintro text ⟨⟩
      apply merged_oneLine (seatName_prints m) isLast noSeat isKey
      intro byte mem
      rcases mem_joinWords mem with rfl | ⟨word, among, inside⟩
      · exact .inr rfl
      · exact .inl (((activeName_prints m).filterMap _ word among).2 byte inside)
    · rintro text ⟨⟩
      apply oneLine_of_bytes
      intro byte mem
      exact ((printList_open (activeSeatName_prints m) isLast noActiveSeat).1 byte mem).imp_right .inl
  · apply userText_lists somebody
    rw [listAssignment_ended isLast (by simp [activeName, active]) "ACTIVE_SESSIONS"]
    simp [unseatedFields, fieldsText, optionalAssignment, assignment, merged, listAssignment]

theorem inactiveFields_completes (seated : (m.session last).seat.isSome = true)
    (inactive : sessionIsActive m last = false) : Completes m uid (inactiveFields m uid) := by
  have somebody : (m.user uid).sessions ≠ [] := by
    rintro nobody
    simp [nobody] at isLast
  have noName : activeName m last = none := by simp [activeName, inactive]
  have noActiveSeat : activeSeatName m last = none := by simp [activeSeatName, inactive]
  have isKey : IsName (ascii "ACTIVE_SEATS") := ⟨by decide, by decide⟩
  constructor
  · have names : (userFields m uid ++ inactiveFields m uid).map Prod.fst =
        userKeys ++ ["SEATS", "ACTIVE_SESSIONS"] := rfl
    rw [names]
    decide +kernel
  · apply fields_oneLine
    simp only [inactiveFields, forall_mem_cons, not_mem_nil, false_imp_iff, implies_true, and_true]
    refine ⟨?_, ?_⟩
    · rintro text ⟨⟩
      exact joinWords_oneLine ((seatName_prints m).filterMap _)
    · rintro text ⟨⟩
      exact merged_oneLine (activeName_prints m) isLast noName isKey
        (printList_open (activeSeatName_prints m) isLast noActiveSeat).1
  · apply userText_lists somebody
    rw [listAssignment_ended isLast (by simpa [seatName] using seated) "SEATS"]
    simp [inactiveFields, fieldsText, optionalAssignment, assignment, merged, listAssignment]

include started in
theorem userAnswers_unseated (unseated : (m.session last).seat = none) : ¬UserAnswers m uid := by
  intro ans
  have noSeat : seatName m last = none := by simp [seatName, unseated]
  have isKey : IsName (ascii "ACTIVE_SESSIONS") := ⟨by decide, by decide⟩
  have read := (unseatedFields_completes isLast unseated).read (mem_append_right _ mem_cons_self)
  rw [merged_read (seatName_prints m) isLast noSeat isKey] at read
  obtain ⟨word, among, inside⟩ := mem_uidGetArray_merged started read (by simp [merged])
  obtain ⟨id, -, seat, -, rfl⟩ := (ans.seats word).mp among
  exact not_isName inside seat.isName

include started in
theorem userAnswers_inactive (seated : (m.session last).seat.isSome = true)
    (inactive : sessionIsActive m last = false) : ¬UserAnswers m uid := by
  intro ans
  have noName : activeName m last = none := by simp [activeName, inactive]
  have isKey : IsName (ascii "ACTIVE_SEATS") := ⟨by decide, by decide⟩
  have read := (inactiveFields_completes isLast seated inactive).read
    (mem_append_right _ (mem_cons_of_mem _ mem_cons_self))
  rw [merged_read (activeName_prints m) isLast noName isKey] at read
  obtain ⟨word, among, inside⟩ := mem_uidGetArray_merged started read (by simp [merged])
  obtain ⟨id, -, -, rfl⟩ := (ans.activeSessions word).mp among
  exact not_isName inside id.isName

end

end

/-- The user has no session, or the last one is active on a seat and every active one happens to bear
the user's number as its name. -/
def WellRecorded : Prop :=
  (m.user uid).sessions = [] ∨
    LastSeated m uid ∧ ∀ id ∈ (m.user uid).sessions, sessionIsActive m id = true ->
      id.bytes = decimal 20 uid.toNat

end

def alone (id : Identifier) (seat : Option Identifier) : Manager :=
  { Manager.zero with
    session := fun _ => { Session.zero 1000 with seat, vtnr := 1, started := true }
    user := fun _ => { User.zero .root with started := true, sessions := [id] }
    seat := fun _ => { Seat.zero with active := some id, sessions := seat.toList.map fun _ => id, started := true }
    sessions := [id]
    users := [1000]
    seats := [.seat0] }

def Identifier.thousand : Identifier := ⟨ascii "1000", by decide, by decide⟩

end Systemd.Logins
