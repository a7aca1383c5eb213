import Systemd.Triggers.Reloaded

set_option autoImplicit false

namespace Systemd.Triggers

section

variable {U : Type}

def TimerCall.recomputes : TimerCall -> Timer U -> Option Clocks
  | .unitNotified clocks _ ns, t =>
    match t.state with
    | .waiting | .elapsed => some clocks
    | .running => if ns.isInactiveOrFailed then some clocks else none
    | .dead | .failed => none
  | .coldplug clocks _, t =>
    if t.deserializedState ≠ t.state ∧ t.deserializedState = .waiting then some clocks else none
  | .start _ _, _ | .stop, _ | .timerEvent _, _ | .resetFailed, _ => none

def TimerCall.FindsPast (call : TimerCall) (t : Timer U) (base : TimerBase) (value : UInt64) : Prop :=
  ∃ clocks from', call.recomputes t = some clocks ∧ clocks.base t.state base = some from' ∧
    from' + value < clocks.now

def FoundPast (base : TimerBase) (value : UInt64) : List TimerCall -> Timer U -> Prop
  | [], _ => False
  | call :: rest, t =>
    call.FindsPast t base value ∨ ∃ next, call.apply t = some next ∧ FoundPast base value rest next

/-- A timer as it is loaded, with none of the values that count from what happens to its unit. -/
structure Loaded (t : Timer U) : Prop where
  dead : t.state = .dead
  enabled : ∀ v ∈ t.values, v.disabled = false
  own : ∀ v ∈ t.values, v.base.onUnit = false

/-- What a start is for: the timer waits for the first of all its values, as it does when it is
started for the first time. -/
structure ArmedAfresh (clocks : Clocks) (ans : TimerAnswers) (loaded after : Timer U) : Prop where
  waiting : after.state = .waiting
  least : IsLeast {e | ∃ v ∈ loaded.values, clocks.found v = some e} after.nextElapse
  first : ∀ initially, timerStart clocks ans loaded = some (initially, true) ->
    initially.state = .waiting ∧ initially.nextElapse = after.nextElapse

def FirstUnspent (clocks : Clocks) (calls : List TimerCall) (loaded : Timer U) : Prop :=
  ∃ v ∈ loaded.values, ¬ FoundPast v.base v.value calls loaded ∧
    ∃ e, clocks.found v = some e ∧ ∀ w ∈ loaded.values, ∀ e', clocks.found w = some e' -> e ≤ e'

theorem elapse_disabled (clocks : Clocks) (state : TimerState) (initial : Bool) (v : TimerValue) :
    (v.elapse clocks state initial).1.disabled = true ↔
      v.disabled = true ∨ initial = false ∧
        ∃ base, clocks.base state v.base = some base ∧ base + v.value < clocks.now := by
  unfold TimerValue.elapse
  split
  next disabled => simp [disabled]
  next enabled =>
    split
    next none => simp [none]
    next base found =>
      dsimp only
      split
      next late => simp_all
      next ahead =>
        simp only [found, Option.some.injEq, exists_eq_left']
        simp_all

theorem timerEnterWaiting_values (clocks : Clocks) (ans : TimerAnswers) (initial : Bool) (t : Timer U) :
    (timerEnterWaiting clocks ans initial t).values =
      t.values.map fun v => (v.elapse clocks t.state initial).1 := by
  rw [← elapseValues_values clocks t.state initial t.values none]
  unfold timerEnterWaiting
  dsimp only
  split
  next => rfl
  next => split <;> rfl

def Dropped (Drops : TimerBase -> UInt64 -> Prop) (before after : List TimerValue) : Prop :=
  ∃ f : TimerValue -> TimerValue, after = before.map f ∧ ∀ v ∈ before,
    (f v).base = v.base ∧ (f v).value = v.value ∧
      ((f v).disabled = true ↔ v.disabled = true ∨ Drops v.base v.value)

variable {after before : List TimerValue} {call : TimerCall} {t : Timer U} {clocks : Clocks}
  {calls : List TimerCall} {ans : TimerAnswers}

theorem Dropped.same {Drops : TimerBase -> UInt64 -> Prop} (same : after = before)
    (none : ∀ base value, ¬ Drops base value) : Dropped Drops before after :=
  ⟨id, by simp [same], fun v _ => ⟨rfl, rfl, by simp [none]⟩⟩

theorem Dropped.trans {First Then Both : TimerBase -> UInt64 -> Prop} {between : List TimerValue}
    (first : Dropped First before between) (second : Dropped Then between after)
    (both : ∀ base value, Both base value ↔ First base value ∨ Then base value) :
    Dropped Both before after := by
  obtain ⟨f, rfl, firstly⟩ := first
  obtain ⟨g, rfl, secondly⟩ := second
  refine ⟨g ∘ f, by simp, fun v mem => ?_⟩
  obtain ⟨base, value, disabled⟩ := firstly v mem
  obtain ⟨base', value', disabled'⟩ := secondly (f v) (List.mem_map_of_mem mem)
  refine ⟨base'.trans base, value'.trans value, ?_⟩
  rw [Function.comp_apply, disabled', disabled, base, value, both, or_assoc]

theorem entered_dropped (clocks : Clocks) (ans : TimerAnswers) (t : Timer U) :
    Dropped (fun base value => ∃ from', clocks.base t.state base = some from' ∧
      from' + value < clocks.now) t.values (timerEnterWaiting clocks ans false t).values := by
  refine ⟨_, timerEnterWaiting_values clocks ans false t, fun v _ => ?_⟩
  obtain ⟨base, value⟩ := elapse_setting clocks t.state false v
  exact ⟨base, value, by rw [elapse_disabled]; simp⟩

theorem started_dropped (clocks : Clocks) (ans : TimerAnswers) (t : Timer U) :
    Dropped (fun _ _ => False) t.values (timerEnterWaiting clocks ans true t).values := by
  refine ⟨_, timerEnterWaiting_values clocks ans true t, fun v _ => ?_⟩
  obtain ⟨base, value⟩ := elapse_setting clocks t.state true v
  exact ⟨base, value, by rw [elapse_disabled]; simp⟩

theorem findsPast_none (none : call.recomputes t = none) (base : TimerBase) (value : UInt64) :
    ¬ call.FindsPast t base value := by
  rintro ⟨clocks, from', some, -⟩
  rw [none] at some
  cases some

theorem findsPast_some (some : call.recomputes t = some clocks) :
    call.FindsPast t = fun base value =>
      ∃ from', clocks.base t.state base = .some from' ∧ from' + value < clocks.now := by
  funext base value
  simp [TimerCall.FindsPast, some]

theorem map_reenable {values : List TimerValue} (own : ∀ v ∈ values, v.base.onUnit = false) :
    values.map .reenable = values := by
  refine (List.map_congr_left fun v mem => ?_).trans (List.map_id values)
  simp [TimerValue.reenable, own v mem]

theorem apply_dropped {next : Timer U} (taken : call.apply t = some next)
    (own : ∀ v ∈ t.values, v.base.onUnit = false) :
    Dropped (call.FindsPast t) t.values next.values := by
  cases call with
  | start clocks ans =>
    have never : ∀ base value, ¬ (TimerCall.start clocks ans).FindsPast t base value :=
      findsPast_none rfl
    simp only [TimerCall.apply, timerStart] at taken
    split at taken
    next => cases taken
    next =>
      split at taken
      next =>
        cases taken
        obtain ⟨f, same, settings⟩ := started_dropped clocks ans { t with failure := false }
        exact ⟨f, same, fun v mem => by simpa [never] using settings v mem⟩
      next =>
        cases taken
        exact .same rfl never
  | stop =>
    simp only [TimerCall.apply, timerStop] at taken
    split at taken
    next => cases taken
    next =>
      cases taken
      exact .same rfl (findsPast_none rfl)
  | timerEvent ans =>
    cases taken
    refine .same ?_ (findsPast_none rfl)
    unfold timerTimerEvent timerEnterRunning
    split
    next =>
      split
      next => rfl
      next => split <;> rfl
    next => rfl
  | unitNotified clocks ans ns =>
    cases taken
    unfold timerUnitNotified
    rw [map_reenable own]
    dsimp only
    split
    next waiting =>
      rw [findsPast_some (show _ = some clocks by simp [TimerCall.recomputes, waiting])]
      exact entered_dropped clocks ans t
    next elapsed =>
      rw [findsPast_some (show _ = some clocks by simp [TimerCall.recomputes, elapsed])]
      exact entered_dropped clocks ans t
    next running =>
      split
      next inactive =>
        rw [findsPast_some (show _ = some clocks by simp [TimerCall.recomputes, running, inactive])]
        exact entered_dropped clocks ans t
      next active => exact .same rfl (findsPast_none (by simp [TimerCall.recomputes, running, active]))
    next dead => exact .same rfl (findsPast_none (by simp [TimerCall.recomputes, dead]))
    next failed => exact .same rfl (findsPast_none (by simp [TimerCall.recomputes, failed]))
  | coldplug clocks ans =>
    simp only [TimerCall.apply, timerColdplug] at taken
    split at taken
    next => cases taken
    next dead =>
      split at taken
      next same =>
        cases taken
        exact .same rfl (findsPast_none (by simp [TimerCall.recomputes, same]))
      next differs =>
        split at taken
        next waiting =>
          cases taken
          have recomputes : (TimerCall.coldplug clocks ans).recomputes t = some clocks := by
            simp [TimerCall.recomputes, waiting, waiting ▸ differs]
          rw [findsPast_some recomputes]
          exact entered_dropped clocks ans t
        next other =>
          cases taken
          exact .same rfl (findsPast_none (by simp [TimerCall.recomputes, other]))
  | resetFailed =>
    cases taken
    refine .same ?_ (findsPast_none rfl)
    unfold timerResetFailed
    dsimp only
    split <;> rfl

theorem run_dropped {last : Timer U}
    (ran : calls.foldlM (fun t call => TimerCall.apply call t) t = some last)
    (own : ∀ v ∈ t.values, v.base.onUnit = false) :
    Dropped (fun base value => FoundPast base value calls t) t.values last.values := by
  induction calls generalizing t with
  | nil => exact .same (congrArg Timer.values (Option.some.inj ran)).symm fun _ _ past => past
  | cons call rest ih =>
    rw [List.foldlM_cons] at ran
    obtain ⟨next, taken, ran⟩ := Option.bind_eq_some_iff.mp ran
    have first := apply_dropped taken own
    have kept : ∀ v ∈ next.values, v.base.onUnit = false := by
      obtain ⟨f, same, settings⟩ := first
      intro v mem
      obtain ⟨w, listed, rfl⟩ := List.mem_map.mp (same ▸ mem)
      rw [(settings w listed).1]
      exact own w listed
    refine first.trans (ih ran kept) fun base value => ?_
    simp only [FoundPast, taken, Option.some.injEq, exists_eq_left']

theorem elapse_initial (clocks : Clocks) {state : TimerState} (idle : state = .dead ∨ state = .failed)
    (v : TimerValue) (e : UInt64) :
    (v.elapse clocks state true).2 = some e ↔ v.disabled = false ∧ clocks.found v = some e := by
  have same : clocks.base state v.base = clocks.base .dead v.base := by
    rcases idle with rfl | rfl
    · rfl
    · cases v.base <;> rfl
  unfold TimerValue.elapse Clocks.found
  rw [same]
  cases clocks.base .dead v.base <;> cases v.disabled <;> simp

theorem timerStart_waits {after : Timer U} (started : timerStart clocks ans t = some (after, true))
    (m : UInt64) :
    after.state = .waiting ∧ after.nextElapse = m ↔ ans.watch = true ∧
      IsLeast {e | ∃ v ∈ t.values, v.disabled = false ∧ clocks.found v = some e} m := by
  unfold timerStart at started
  split at started
  next => cases started
  next idle =>
    have idle : t.state = .dead ∨ t.state = .failed := by
      by_contra other
      exact idle (not_or.mp other)
    split at started
    next =>
      obtain rfl := (Prod.mk.inj (Option.some.inj started)).1
      have same : {e | none = some e ∨ ∃ v ∈ t.values, (v.elapse clocks t.state true).2 = some e} =
          {e | ∃ v ∈ t.values, v.disabled = false ∧ clocks.found v = some e} := by
        simp [elapse_initial clocks idle]
      rw [← same, ← elapseValues_least]
      unfold timerEnterWaiting
      dsimp only
      split
      next none => simp [none]
      next next found =>
        rw [found]
        cases ans.watch with
        | true => simp [timerSetState]
        | false => simp
    next => cases started

/-- A start after any calls waits for the first of all the values exactly if one of these is not
spent, and its watch can be set up. -/
theorem start_afresh_iff {loaded after : Timer U} (fresh : Loaded loaded)
    (ran : calls.foldlM (fun t call => TimerCall.apply call t) loaded = some t)
    (started : timerStart clocks ans t = some (after, true)) :
    ArmedAfresh clocks ans loaded after ↔ ans.watch = true ∧ FirstUnspent clocks calls loaded := by
  obtain ⟨f, same, settings⟩ := run_dropped ran fresh.own
  have left : {e | ∃ v ∈ t.values, v.disabled = false ∧ clocks.found v = some e} =
      {e | ∃ v ∈ loaded.values, ¬ FoundPast v.base v.value calls loaded ∧
        clocks.found v = some e} := by
    ext e
    rw [same]
    simp only [List.mem_map, exists_exists_and_eq_and, Set.mem_ofPred_eq]
    refine exists_congr fun v => and_congr_right fun mem => ?_
    obtain ⟨base, value, disabled⟩ := settings v mem
    have enabled : (f v).disabled = false ↔ ¬ FoundPast v.base v.value calls loaded := by
      rw [← Bool.not_eq_true, disabled]
      simp [fresh.enabled v mem]
    rw [enabled, Clocks.found, Clocks.found, base, value]
  have all : {e | ∃ v ∈ loaded.values, v.disabled = false ∧ clocks.found v = some e} =
      {e | ∃ v ∈ loaded.values, clocks.found v = some e} := by
    ext e
    exact exists_congr fun v => and_congr_right fun mem =>
      and_iff_right (fresh.enabled v mem)
  have waits := timerStart_waits started
  rw [left] at waits
  constructor
  · rintro ⟨waiting, ⟨-, least⟩, -⟩
    obtain ⟨watch, ⟨v, mem, unspent, expires⟩, -⟩ := (waits _).mp ⟨waiting, rfl⟩
    exact ⟨watch, v, mem, unspent, _, expires, fun w listed e' later => least ⟨w, listed, later⟩⟩
  · rintro ⟨watch, v, mem, unspent, e, expires, least⟩
    have unspentLeast : e ∈ lowerBounds {e | ∃ v ∈ loaded.values, ¬ FoundPast v.base v.value calls loaded ∧
        clocks.found v = some e} := by
      rintro e' ⟨w, listed, _, later⟩
      exact least w listed e' later
    obtain ⟨waiting, rfl⟩ := (waits e).mpr ⟨watch, ⟨v, mem, unspent, expires⟩, unspentLeast⟩
    have first : IsLeast {e | ∃ v ∈ loaded.values, clocks.found v = some e} after.nextElapse := by
      refine ⟨⟨v, mem, expires⟩, ?_⟩
      rintro e' ⟨w, listed, later⟩
      exact least w listed e' later
    refine ⟨waiting, first, fun initially started => ?_⟩
    exact (timerStart_waits started _).mpr ⟨watch, all ▸ first⟩

end

def spentCalls : List TimerCall :=
  [.start { clocksAt 100 with inactiveExit := 0 } willing, .timerEvent willing,
    .unitNotified { clocksAt 120 with inactiveExit := 100 } willing .inactive, .stop]

def onActiveTimer : Timer Unit := { values := [{ value := 10, base := .active }] }

theorem onActiveTimer_loaded : Loaded onActiveTimer := ⟨rfl, by decide, by decide⟩

def stoppedTimer : Timer Unit :=
  timerEnterDead true (timerEnterWaiting (clocksAt 100) willing true onActiveTimer)

theorem stopped_starts : ArmedAfresh (clocksAt 200) willing onActiveTimer
    (timerEnterWaiting (clocksAt 200) willing true stoppedTimer) := by
  have ran : [TimerCall.start (clocksAt 100) willing, .stop].foldlM
      (fun t call => TimerCall.apply call t) onActiveTimer = some stoppedTimer := rfl
  refine (start_afresh_iff onActiveTimer_loaded ran rfl).mpr ⟨rfl, ?_⟩
  refine ⟨{ value := 10, base := .active }, by simp [onActiveTimer], ?_, 210, rfl, ?_⟩
  · rintro (past | ⟨next, -, past | ⟨_, -, nothing⟩⟩)
    · exact findsPast_none rfl _ _ past
    · exact findsPast_none rfl _ _ past
    · exact nothing
  · intro w mem e same
    obtain rfl := List.mem_singleton.mp mem
    exact UInt64.le_of_eq (Option.some.inj same)

/-- The value stays disabled: the second start finds nothing to wait for. -/
theorem started_again :
    ¬ ∀ (loaded t after : Timer Unit) (calls : List TimerCall) (clocks : Clocks)
      (ans : TimerAnswers), Loaded loaded ->
      calls.foldlM (fun t call => TimerCall.apply call t) loaded = some t -> ans.watch = true ->
      timerStart clocks ans t = some (after, true) -> ArmedAfresh clocks ans loaded after := by
  intro always
  have ends : (spentCalls.foldlM (fun t call => TimerCall.apply call t) onActiveTimer).any
      (fun t => decide (∃ after ∈ timerStart (clocksAt 200) willing t, after.2 = true ∧
        after.1.state ≠ .waiting)) = true := by
    decide
  obtain ⟨t, ran, found⟩ := (Option.any_eq_true _ _).mp ends
  obtain ⟨⟨after, _⟩, started, rfl, apart⟩ := of_decide_eq_true found
  exact apart (always _ t after spentCalls _ _ onActiveTimer_loaded ran rfl started).waiting

end Systemd.Triggers
