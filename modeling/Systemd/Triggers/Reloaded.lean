import Mathlib.Order.Bounds.Basic
import Systemd.Shared.Reached
import Systemd.Triggers.Timer
import Systemd.Units.PassedOn

set_option autoImplicit false

namespace Systemd.Triggers

open Relation List Option
open Serialization (DualTimestamp Item ItemKey Reading UnitMeta deserialize_readable metaLines
  metaLines_stamp noMeta Readable unitDeserialize unitSerialize)

namespace TimerState

def text : TimerState -> String
  | .dead => "dead"
  | .waiting => "waiting"
  | .running => "running"
  | .elapsed => "elapsed"
  | .failed => "failed"

def ofText (text : CString) : Option TimerState :=
  [.dead, .waiting, .running, .elapsed, .failed].find? fun state => .ofString state.text = text

variable (state : TimerState)

theorem ofText_text : ofText (.ofString state.text) = some state := by
  cases state <;> decide

theorem oneLine : newline ∉ (CString.ofString state.text).bytes := by
  cases state <;> decide

theorem readable : Readable (ItemKey.text .state) (.ofString state.text) := by
  cases state <;> exact ⟨by decide +kernel, by decide +kernel⟩

end TimerState

section

variable {U : Type}

def timerSerialize (t : Timer U) : List Item :=
  [⟨.state, .ofString t.state.text, t.state.oneLine⟩]

def timerDeserializeItem (t : Timer U) (key value : CString) : Except Int (Timer U) :=
  .ok <|
    if key = ItemKey.text .state then
      match TimerState.ofText value with
      | some state => { t with deserializedState := state }
      | none => t
    else t

def timerLoaded (t : Timer U) : Timer U where
  values := t.values.map fun v => { value := v.value, base := v.base }
  unit := t.unit

-- startup_timestamp stays with the manager. The unit that the timer starts has been read as well.
def reloadedClocks (now startup : UInt64) (own unit : UnitMeta) : Clocks where
  now
  inactiveExit := own.inactiveExitTimestamp.monotonic
  startup
  unitInactiveExit := unit.inactiveExitTimestamp.monotonic
  unitInactiveEnter := unit.inactiveEnterTimestamp.monotonic

def timerReload (ans : TimerAnswers) (now startup : UInt64) (own unit : UnitMeta)
    (tail : List UInt8) (t : Timer U) : Except Int (Option (Timer U)) :=
  (unitDeserialize timerDeserializeItem (timerLoaded t)
      (unitSerialize (timerSerialize t) own ++ tail)).map fun reading =>
    timerColdplug
      (reloadedClocks now startup (noMeta.readFields reading.fields)
        (noMeta.readFields (metaLines unit)))
      ans reading.state

def Clocks.found (clocks : Clocks) (v : TimerValue) : Option UInt64 :=
  (clocks.base .dead v.base).map (· + v.value)

def keptClocks (now startup : UInt64) (own unit : UnitMeta) : Clocks where
  now
  inactiveExit := own.inactiveExitTimestamp.passed
  startup
  unitInactiveExit := unit.inactiveExitTimestamp.passed
  unitInactiveEnter := unit.inactiveEnterTimestamp.passed

theorem stamp_passed {u : UnitMeta} {field : Serialization.UnitField} {t s : DualTimestamp}
    (own : u.stamp field = some t)
    (read : (noMeta.readFields (metaLines u)).stamp field = some s) : s.monotonic = t.passed := by
  have passed := metaLines_stamp u own
  rw [read] at passed
  exact Option.some.inj passed

theorem reloadedClocks_eq (now startup : UInt64) (own unit : UnitMeta) :
    reloadedClocks now startup (noMeta.readFields (metaLines own))
        (noMeta.readFields (metaLines unit)) =
      keptClocks now startup own unit := by
  have exit : ∀ u : UnitMeta,
      (noMeta.readFields (metaLines u)).inactiveExitTimestamp.monotonic =
        u.inactiveExitTimestamp.passed := fun u =>
    stamp_passed (rfl : u.stamp .inactiveExitTimestamp = _) rfl
  have enter := stamp_passed (rfl : unit.stamp .inactiveEnterTimestamp = _) rfl
  rw [reloadedClocks, keptClocks, exit own, exit unit, enter]

variable (ans : TimerAnswers) (clocks : Clocks) (state : TimerState) (initial : Bool)

theorem timerReload_eq (now startup : UInt64) (own unit : UnitMeta) (tail : List UInt8) (t : Timer U) :
    timerReload ans now startup own unit tail t =
      .ok (timerColdplug (keptClocks now startup own unit) ans
        { timerLoaded t with deserializedState := t.state }) := by
  have readable : ∀ item ∈ timerSerialize t, Readable item.key.text item.value.text := by
    intro item mem
    obtain rfl := mem_singleton.mp mem
    exact t.state.readable
  have read : (timerSerialize t).foldlM (Serialization.passItem timerDeserializeItem) (timerLoaded t) =
      .ok { timerLoaded t with deserializedState := t.state } := by
    simp only [timerSerialize, foldlM_cons, foldlM_nil, Serialization.passItem,
      timerDeserializeItem, if_true, TimerState.ofText_text]
    rfl
  rw [timerReload, deserialize_readable timerDeserializeItem _ readable, read]
  simp only [Except.map, reloadedClocks_eq]

theorem least_earliest (next elapse : Option UInt64) (others : Set UInt64) (m : UInt64) :
    IsLeast {e | earliest next elapse = some e ∨ e ∈ others} m ↔
      IsLeast {e | next = some e ∨ elapse = some e ∨ e ∈ others} m := by
  cases next with
  | none => cases elapse <;> simp [earliest]
  | some a =>
    cases elapse with
    | none => simp [earliest]
    | some b =>
      obtain ⟨first, second, chosen⟩ : min a b ≤ a ∧ min a b ≤ b ∧ (min a b = a ∨ min a b = b) := by
        have defined : min a b = if a ≤ b then a else b := rfl
        have total := UInt64.le_total a b
        grind
      simp only [earliest, Option.some.injEq, IsLeast, lowerBounds, Set.mem_ofPred_eq]
      constructor
      · rintro ⟨mem, least⟩
        refine ⟨by grind, fun e inside => ?_⟩
        rcases inside with rfl | rfl | other
        · exact UInt64.le_trans (least (.inl rfl)) first
        · exact UInt64.le_trans (least (.inl rfl)) second
        · exact least (.inr other)
      · rintro ⟨mem, least⟩
        have below : m ≤ min a b := by
          rcases chosen with same | same
          · exact same.symm ▸ least (.inl rfl)
          · exact same.symm ▸ least (.inr (.inl rfl))
        refine ⟨?_, fun e inside => ?_⟩
        · rcases mem with same | same | other
          · exact .inl (UInt64.le_antisymm (same ▸ first) below)
          · exact .inl (UInt64.le_antisymm (same ▸ second) below)
          · exact .inr other
        · rcases inside with rfl | other
          · exact below
          · exact least (.inr (.inr other))

theorem elapseValues_least (values : List TimerValue) (next : Option UInt64) (m : UInt64) :
    (elapseValues clocks state initial next values).2 = some m ↔
      IsLeast {e | next = some e ∨ ∃ v ∈ values, (v.elapse clocks state initial).2 = some e} m := by
  induction values generalizing next with
  | nil =>
    simp only [elapseValues, not_mem_nil, false_and, exists_false, or_false, IsLeast, lowerBounds,
      Set.mem_ofPred_eq]
    constructor
    · rintro rfl
      exact ⟨rfl, fun e same => UInt64.le_of_eq (Option.some.inj same)⟩
    · exact fun least => least.1
  | cons v rest ih =>
    rw [elapseValues]
    refine (ih _).trans ((least_earliest _ _ {e | ∃ v ∈ rest, _} m).trans ?_)
    simp only [exists_mem_cons_iff, Set.mem_ofPred_eq]

theorem elapseValues_values (values : List TimerValue) (next : Option UInt64) :
    (elapseValues clocks state initial next values).1 =
      values.map fun v => (v.elapse clocks state initial).1 := by
  induction values generalizing next with
  | nil => rfl
  | cons v rest ih => exact congrArg (List.cons _) (ih _)

theorem elapse_setting (v : TimerValue) :
    (v.elapse clocks state initial).1.base = v.base ∧
      (v.elapse clocks state initial).1.value = v.value := by
  unfold TimerValue.elapse
  split
  next => exact ⟨rfl, rfl⟩
  next =>
    split
    next => exact ⟨rfl, rfl⟩
    next =>
      dsimp only
      split <;> exact ⟨rfl, rfl⟩

variable {state : TimerState} {clocks later : Clocks} {v : TimerValue} {t : Timer U} {written : UInt64}

theorem elapse_counts {initial : Bool} {e : UInt64}
    (counted : (v.elapse clocks state initial).2 = some e) :
    (v.elapse clocks state initial).1.disabled = false ∧
      (v.elapse clocks state initial).1.nextElapse = e ∧
        (clocks.base state v.base).map (· + v.value) = some e := by
  unfold TimerValue.elapse at counted ⊢
  split at counted
  next => cases counted
  next enabled =>
    split at counted
    next => cases counted
    next base found =>
      dsimp only at counted ⊢
      split at counted
      next => cases counted
      next ahead =>
        simp only [enabled, ahead, found]
        exact ⟨by simp, Option.some.inj counted, counted⟩

theorem counts_of_enabled {initial : Bool} {base : UInt64}
    (enabled : (v.elapse clocks state initial).1.disabled = false)
    (found : clocks.base state v.base = some base) :
    (v.elapse clocks state initial).2 = some (base + v.value) := by
  unfold TimerValue.elapse at enabled ⊢
  split at enabled
  next disabled => simp [disabled] at enabled
  next before =>
    simp only [found] at enabled
    split at enabled
    next => cases enabled
    next ahead => simp only [before, found, ahead, Bool.false_eq_true, if_false]

theorem base_dead {base : TimerBase} (other : base ≠ .active) (state : TimerState) :
    clocks.base state base = clocks.base .dead base := by
  cases base with
  | active => exact absurd rfl other
  | _ => rfl

theorem elapse_loaded (later : Clocks) (v : TimerValue) (e : UInt64) :
    (({ value := v.value, base := v.base } : TimerValue).elapse later .dead false).2 = some e ↔
      later.found v = some e ∧ later.now ≤ e := by
  simp only [TimerValue.elapse, Clocks.found]
  cases later.base .dead v.base with
  | none => simp
  | some base =>
    by_cases passed : base + v.value < later.now
    · have apart : ¬ later.now ≤ base + v.value := UInt64.not_le.mpr passed
      simp only [Bool.false_eq_true, if_false, Bool.not_false, Bool.true_and, passed, decide_true, if_true]
      grind
    · have ahead : later.now ≤ base + v.value := UInt64.not_lt.mp passed
      simp only [Bool.false_eq_true, if_false, Bool.not_false, Bool.true_and, passed, decide_false]
      grind

theorem coldplug_finds_iff (later : Clocks) (waiting : t.state = .waiting) (m : UInt64) :
    (∃ after, timerColdplug later ans { timerLoaded t with deserializedState := t.state } =
          some after ∧ after.state ≠ .elapsed ∧ after.nextElapse = m) ↔
      IsLeast {e | later.now ≤ e ∧ ∃ v ∈ t.values, later.found v = some e} m := by
  have plugged : timerColdplug later ans { timerLoaded t with deserializedState := t.state } =
      some (timerEnterWaiting later ans false
        { timerLoaded t with deserializedState := t.state }) := by
    simp [timerColdplug, timerLoaded, waiting]
  have same : {e | none = some e ∨ ∃ v ∈ (timerLoaded t).values,
      (v.elapse later .dead false).2 = some e} =
      {e | later.now ≤ e ∧ ∃ v ∈ t.values, later.found v = some e} := by
    ext e
    simp only [timerLoaded, List.mem_map, exists_exists_and_eq_and, elapse_loaded, Set.mem_ofPred_eq,
      reduceCtorEq, false_or]
    grind
  rw [plugged, ← same, ← elapseValues_least]
  simp only [Option.some.injEq, exists_eq_left']
  unfold timerEnterWaiting
  dsimp only
  split
  next none =>
    have dead : (timerLoaded t).state = .dead := rfl
    rw [dead] at none
    simp [none]
  next next found =>
    have dead : (timerLoaded t).state = .dead := rfl
    rw [dead] at found
    rw [found]
    split <;> simp [timerEnterDead, timerSetState]

structure WaitsSince (clocks : Clocks) (t : Timer U) : Prop where
  waiting : t.state = .waiting
  entered : ∃ ans initial before,
    (timerEnterWaiting clocks ans initial before).state = .waiting ∧
      t = { timerEnterWaiting clocks ans initial before with failure := t.failure }

inductive TimerCall where
  | start (clocks : Clocks) (ans : TimerAnswers)
  | stop
  | timerEvent (ans : TimerAnswers)
  | unitNotified (clocks : Clocks) (ans : TimerAnswers) (ns : UnitActiveState)
  | coldplug (clocks : Clocks) (ans : TimerAnswers)
  | resetFailed

def TimerCall.apply : TimerCall -> Timer U -> Option (Timer U)
  | .start clocks ans, t => (timerStart clocks ans t).map (·.1)
  | .stop, t => timerStop t
  | .timerEvent ans, t => some (timerTimerEvent ans t)
  | .unitNotified clocks ans ns, t => some (timerUnitNotified clocks ans ns t)
  | .coldplug clocks ans, t => timerColdplug clocks ans t
  | .resetFailed, t => some (timerResetFailed t)

section

variable (since : WaitsSince clocks t)
include since

theorem WaitsSince.found :
    ∃ state initial values, t.values = List.map (fun v => (v.elapse clocks state initial).1) values ∧
      (elapseValues clocks state initial none values).2 = some t.nextElapse := by
  obtain ⟨waiting, ans, initial, before, entered, same⟩ := since
  refine ⟨before.state, initial, before.values, ?_⟩
  rw [same, ← elapseValues_values clocks before.state initial before.values none]
  unfold timerEnterWaiting at entered ⊢
  dsimp only at entered ⊢
  split at entered
  next => cases entered
  next next found =>
    rw [found]
    split <;> exact ⟨rfl, rfl⟩

theorem WaitsSince.names :
    ∃ v ∈ t.values, v.disabled = false ∧ v.nextElapse = t.nextElapse ∧
      (v.base ≠ .active -> clocks.found v = some t.nextElapse) := by
  obtain ⟨state, initial, values, same, found⟩ := since.found
  obtain ⟨none | ⟨v, mem, counted⟩, -⟩ := (elapseValues_least ..).mp found
  · cases none
  · obtain ⟨enabled, next, expires⟩ := elapse_counts counted
    refine ⟨_, same ▸ mem_map_of_mem mem, enabled, next, fun other => ?_⟩
    obtain ⟨sameBase, sameValue⟩ := elapse_setting clocks state initial v
    rw [sameBase] at other
    rw [Clocks.found, sameBase, sameValue, ← base_dead other state, expires]

theorem WaitsSince.least (mem : v ∈ t.values) (other : v.base ≠ .active) (enabled : v.disabled = false)
    {e : UInt64} (expires : clocks.found v = some e) : t.nextElapse ≤ e := by
  obtain ⟨state, initial, values, same, found⟩ := since.found
  obtain ⟨before, listed, rfl⟩ := List.mem_map.mp (same ▸ mem)
  obtain ⟨sameBase, sameValue⟩ := elapse_setting clocks state initial before
  rw [Clocks.found, sameBase, sameValue, map_eq_some_iff] at expires
  obtain ⟨base, based, rfl⟩ := expires
  rw [sameBase] at other
  exact ((elapseValues_least ..).mp found).2
    (.inr ⟨before, listed, counts_of_enabled enabled ((base_dead other state).trans based)⟩)

end

def NextElapseKept (ans : TimerAnswers) (now startup : UInt64) (own unit : UnitMeta)
    (tail : List UInt8) (t : Timer U) : Prop :=
  ∃ after, timerReload ans now startup own unit tail t = .ok (some after) ∧
    after.state ≠ .elapsed ∧ after.nextElapse = t.nextElapse

/-- When a reload leaves next_elapse where it was. OnActiveSec counts from the reload on, and every
value counts again that had been disabled. -/
structure Unshifted (clocks later : Clocks) (written : UInt64) (t : Timer U) : Prop where
  pending : written ≤ t.nextElapse
  active : ∀ v ∈ t.values, v.base = .active -> later.now ≤ later.now + v.value ->
    t.nextElapse ≤ later.now + v.value
  revived : ∀ v ∈ t.values, v.base ≠ .active ->
    v.disabled = true ∨ later.base .dead v.base ≠ clocks.base .dead v.base ->
      ∀ e, later.found v = some e -> later.now ≤ e -> t.nextElapse ≤ e
  named : (∃ v ∈ t.values, v.base ≠ .active ∧ later.found v = some t.nextElapse) ∨
    ∃ v ∈ t.values, v.base = .active ∧ later.now + v.value = t.nextElapse

theorem found_active (active : v.base = .active) : later.found v = some (later.now + v.value) := by
  rw [Clocks.found, active]
  rfl

theorem unshifted_iff (since : WaitsSince clocks t) (order : written ≤ later.now)
    (between : ∀ v ∈ t.values, v.disabled = false -> written ≤ v.nextElapse -> later.now ≤ v.nextElapse) :
    IsLeast {e | later.now ≤ e ∧ ∃ v ∈ t.values, later.found v = some e} t.nextElapse ↔
      Unshifted clocks later written t := by
  constructor
  · rintro ⟨⟨ahead, v, mem, expires⟩, least⟩
    refine ⟨UInt64.le_trans order ahead, ?_, ?_, ?_⟩
    · intro other listed active later
      exact least ⟨later, other, listed, found_active active⟩
    · intro other listed _ _ e expires later
      exact least ⟨later, other, listed, expires⟩
    · by_cases active : v.base = .active
      · rw [found_active active] at expires
        exact .inr ⟨v, mem, active, Option.some.inj expires⟩
      · exact .inl ⟨v, mem, active, expires⟩
  · rintro ⟨pending, active, revived, named⟩
    obtain ⟨own, ownListed, ownEnabled, ownNext, -⟩ := since.names
    have ahead : later.now ≤ t.nextElapse :=
      ownNext ▸ between own ownListed ownEnabled (ownNext.symm ▸ pending)
    refine ⟨⟨ahead, ?_⟩, ?_⟩
    · rcases named with ⟨v, mem, -, expires⟩ | ⟨v, mem, isActive, same⟩
      · exact ⟨v, mem, expires⟩
      · exact ⟨v, mem, same ▸ found_active isActive⟩
    · rintro e ⟨later_le, v, mem, expires⟩
      by_cases isActive : v.base = .active
      · obtain rfl := Option.some.inj ((found_active isActive).symm.trans expires)
        exact active v mem isActive later_le
      · by_cases changed : v.disabled = true ∨ later.base .dead v.base ≠ clocks.base .dead v.base
        · exact revived v mem isActive changed e expires later_le
        · rw [not_or, Bool.not_eq_true, not_not] at changed
          rw [Clocks.found, changed.2] at expires
          exact since.least mem isActive changed.1 expires

theorem unshifted_settled (since : WaitsSince clocks t) (pending : written ≤ t.nextElapse) (settled : ∀
      v ∈ t.values, v.base ≠ .active ∧ v.disabled = false ∧ later.base .dead v.base = clocks.base .dead
      v.base) : Unshifted clocks later written t := by
  refine ⟨pending, ?_, ?_, ?_⟩
  · intro v mem active
    exact absurd active (settled v mem).1
  · intro v mem _ changed
    obtain ⟨-, enabled, still⟩ := settled v mem
    rcases changed with disabled | moved
    · simp [enabled] at disabled
    · exact absurd still moved
  · obtain ⟨v, mem, -, -, expires⟩ := since.names
    obtain ⟨other, -, still⟩ := settled v mem
    refine .inl ⟨v, mem, other, ?_⟩
    rw [Clocks.found, still]
    exact expires other

theorem reload_keeps_next_elapse_iff (since : WaitsSince clocks t) {now : UInt64}
    (order : written ≤ now) (startup : UInt64) (own unit : UnitMeta) (tail : List UInt8)
    (between : ∀ v ∈ t.values, v.disabled = false -> written ≤ v.nextElapse -> now ≤ v.nextElapse) :
    NextElapseKept ans now startup own unit tail t ↔
      Unshifted clocks (keptClocks now startup own unit) written t := by
  have later : IsLeast _ t.nextElapse ↔ Unshifted clocks (keptClocks now startup own unit) written t :=
    unshifted_iff since order between
  rw [← later, ← coldplug_finds_iff ans _ since.waiting, NextElapseKept]
  simp only [timerReload_eq, Except.ok.injEq]

end

def willing : TimerAnswers := ⟨true, true, false, true⟩

def clocksAt (now : UInt64) : Clocks := ⟨now, 0, 0, 0, 0⟩

def startedTimer (base : TimerBase) : Timer Unit :=
  timerEnterWaiting (clocksAt 100) willing true { values := [{ value := 200, base }] }

theorem started_waits (base : TimerBase) (counts : (clocksAt 100).base .dead base ≠ none) :
    WaitsSince (clocksAt 100) (startedTimer base) := by
  refine ⟨?_, willing, true, { values := [{ value := 200, base }] }, ?_, rfl⟩ <;>
    cases base <;> first | rfl | exact absurd rfl counts

theorem boot_timer_kept : NextElapseKept willing 150 0 noMeta noMeta [] (startedTimer .boot) :=
  (reload_keeps_next_elapse_iff willing (started_waits .boot (by decide))
    (by decide : (120 : UInt64) ≤ 150) 0 noMeta noMeta [] (by decide)).mpr
    (unshifted_settled (started_waits .boot (by decide)) (by decide) (by decide))

/-- OnActiveSec=200, started at 100 and reloaded at 150: next_elapse goes from 300 to 350. -/
theorem active_timer_shifted :
    WaitsSince (clocksAt 100) (startedTimer .active) ∧ (120 : UInt64) ≤ 150 ∧
      (∀ v ∈ (startedTimer .active).values, v.disabled = false -> 120 ≤ v.nextElapse ->
        150 ≤ v.nextElapse) ∧
      ¬ NextElapseKept willing 150 0 { noMeta with inactiveExitTimestamp := ⟨5000, 100⟩ } noMeta []
        (startedTimer .active) := by
  refine ⟨started_waits .active (by decide), by decide, by decide, ?_⟩
  rintro ⟨after, reloaded, -, same⟩
  rw [timerReload_eq] at reloaded
  have computed : (timerColdplug (keptClocks 150 0 { noMeta with inactiveExitTimestamp := ⟨5000, 100⟩ }
      noMeta) willing { timerLoaded (startedTimer .active) with
        deserializedState := (startedTimer .active).state }).map (·.nextElapse) = some 350 := by
    decide
  rw [Except.ok.inj reloaded, map_some, same] at computed
  revert computed
  decide

end Systemd.Triggers
