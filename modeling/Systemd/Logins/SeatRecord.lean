import Systemd.Logins.Records

set_option autoImplicit false

namespace Systemd.Logins

open List Function

open Serialization (decimal decimal_terminated)

-- strncmp(t, w, l) finds no difference when the word is as long as what it is compared with or shorter.
def sdUidIsOnSeat (m : Manager) (uid : UInt32) (requireActive : Bool) (seat : Identifier) : Int :=
  match m.seatFile seat with
  | none => -enoent
  | some contents =>
    match readVariable (if requireActive then "ACTIVE_UID" else "UIDS") contents with
    | none => -eio
    | some s =>
      if (splitWords whitespace (s.length + 1) s).any fun word =>
          word.isPrefixOf (decimal 20 uid.toNat) then
        1
      else
        0

/-- A session of user lets a query for uid match: the decimal form of the one starts that of the other. -/
def Matches (user uid : UInt32) : Prop :=
  decimal 20 user.toNat <+: decimal 20 uid.toNat

instance (user uid : UInt32) : Decidable (Matches user uid) := by
  unfold Matches
  infer_instance

theorem Matches.refl (uid : UInt32) : Matches uid uid := prefix_rfl

section

variable (m : Manager) (seat : Identifier)

def seatUids : List (List UInt8) :=
  (m.seat seat).sessions.map fun id => decimal 20 (m.session id).user.toNat

def seatFields : Fields :=
  [("IS_VTCONSOLE", some (printFlag (seatIsVtconsole seat))),
    ("ACTIVE", (m.seat seat).active.map (·.bytes)),
    ("ACTIVE_UID", (m.seat seat).active.map fun active => decimal 20 (m.session active).user.toNat),
    ("SESSIONS", listValue ((m.seat seat).sessions.map (·.bytes))),
    ("UIDS", listValue (seatUids m seat))]

theorem seatText_eq : seatText m seat = header ++ fieldsText (seatFields m seat) := by
  by_cases nobody : (m.seat seat).sessions = []
  · simp [seatText, fieldsText, seatFields, seatUids, listValue, nobody, optionalAssignment]
  · simp [seatText, fieldsText, seatFields, seatUids, nobody, listAssignment_eq, optionalAssignment]

theorem seatUids_names : ∀ word ∈ seatUids m seat, IsName word := by
  intro word mem
  obtain ⟨id, -, rfl⟩ := mem_map.mp mem
  exact decimal_isName _

theorem seatFields_keys : RecordKeys ((seatFields m seat).map Prod.fst) := by
  have keys : (seatFields m seat).map Prod.fst =
      ["IS_VTCONSOLE", "ACTIVE", "ACTIVE_UID", "SESSIONS", "UIDS"] := rfl
  rw [keys]
  decide +kernel

theorem seatFields_values : ∀ field ∈ seatFields m seat, ∀ text ∈ field.2, OneLine text := by
  simp only [seatFields, forall_mem_cons, not_mem_nil, false_imp_iff, implies_true, and_true]
  refine ⟨?_, ?_, ?_, ?_, ?_⟩
  · rintro text ⟨⟩
    exact (printFlag_isName _).oneLine
  · rintro text given
    obtain ⟨active, -, rfl⟩ := Option.mem_map.mp given
    exact active.isName.oneLine
  · rintro text given
    obtain ⟨active, -, rfl⟩ := Option.mem_map.mp given
    exact (decimal_isName _).oneLine
  · apply listValue_oneLine
    intro word mem
    obtain ⟨id, -, rfl⟩ := mem_map.mp mem
    exact id.isName
  · exact listValue_oneLine (seatUids_names m seat)

theorem readVariable_seat {key : String} {value : Option (List UInt8)}
    (mem : (key, value) ∈ seatFields m seat) : readVariable key (seatText m seat) = fieldValue value := by
  rw [seatText_eq]
  exact readVariable_fields (seatFields_keys m seat) (seatFields_values m seat) mem

def queriedUids (requireActive : Bool) : List UInt32 :=
  if requireActive then (m.seat seat).active.toList.map fun active => (m.session active).user
  else (m.seat seat).sessions.map fun id => (m.session id).user

def uidWords (uids : List UInt32) : List (List UInt8) := uids.map fun uid => decimal 20 uid.toNat

theorem uidWords_names (uids : List UInt32) : ∀ word ∈ uidWords uids, IsName word := by
  intro word mem
  obtain ⟨uid, -, rfl⟩ := mem_map.mp mem
  exact decimal_isName _

theorem readVariable_uids (requireActive : Bool) :
    readVariable (if requireActive then "ACTIVE_UID" else "UIDS") (seatText m seat) =
      listValue (uidWords (queriedUids m seat requireActive)) := by
  rw [← fieldValue_list (uidWords_names _)]
  apply readVariable_seat
  cases requireActive with
  | true =>
    cases active : (m.seat seat).active with
    | none => simp [seatFields, queriedUids, uidWords, listValue, active]
    | some active => simp [seatFields, queriedUids, uidWords, listValue, active, joinWords]
  | false => simp [seatFields, seatUids, queriedUids, uidWords, comp_def]

theorem sdUidIsOnSeat_eq (started : (m.seat seat).started = true) (uid : UInt32) (requireActive : Bool) :
    sdUidIsOnSeat (seatSave m seat) uid requireActive seat = 1 ↔
      ∃ user ∈ queriedUids m seat requireActive, Matches user uid := by
  have saved : (seatSave m seat).seatFile seat = some (seatText m seat) := by
    rw [seatSave, if_pos started]
    exact update_self ..
  rw [sdUidIsOnSeat]
  simp only [saved, readVariable_uids]
  cases queriedUids m seat requireActive with
  | nil => simp [uidWords, listValue, eio]
  | cons user users =>
    have words : uidWords (user :: users) ≠ [] := by simp [uidWords]
    have found : ((uidWords (user :: users)).any fun word => word.isPrefixOf (decimal 20 uid.toNat)) = true ↔
        ∃ other ∈ user :: users, Matches other uid := by
      rw [uidWords, any_map, any_eq_true]
      simp only [comp_apply, isPrefixOf_iff_prefix, Matches]
    rw [listValue, if_neg words]
    simp only [splitWords_whitespace (uidWords_names _), ← found]
    split_ifs with hit
    · simp [hit]
    · simp [hit]

def SeatAnswers (uid : UInt32) : Prop :=
  (sdUidIsOnSeat (seatSave m seat) uid false seat = 1 ↔
      ∃ id ∈ (m.seat seat).sessions, (m.session id).user = uid) ∧
    (sdUidIsOnSeat (seatSave m seat) uid true seat = 1 ↔
      ∃ active, (m.seat seat).active = some active ∧ (m.session active).user = uid)

/-- The user has none of the sessions that are looked at, but another one does whose user id is how
the decimal form of this one starts. -/
def Mistaken (users : List UInt32) (uid : UInt32) : Prop :=
  uid ∉ users ∧ ∃ user ∈ users, Matches user uid

instance (users : List UInt32) (uid : UInt32) : Decidable (Mistaken users uid) := by
  unfold Mistaken
  infer_instance

theorem matches_iff {users : List UInt32} {uid : UInt32} :
    ((∃ user ∈ users, Matches user uid) ↔ uid ∈ users) ↔ ¬Mistaken users uid := by
  constructor
  · rintro exactly ⟨absent, found⟩
    exact absent (exactly.mp found)
  · intro clear
    constructor
    · intro found
      by_contra absent
      exact clear ⟨absent, found⟩
    · intro present
      exact ⟨uid, present, .refl uid⟩

end

def guest : Manager :=
  { Manager.zero with
    session := fun _ => { Session.zero 100 with seat := some .seat0, vtnr := 1, started := true }
    seat := fun _ => { Seat.zero with active := some .c1, sessions := [.c1], started := true }
    sessions := [.c1]
    users := [100]
    seats := [.seat0] }

end Systemd.Logins
