import Systemd.Services.Events

set_option autoImplicit false

namespace Systemd.Limits

open List

structure RateLimit where
  interval : UInt64
  begin : UInt64
  burst : UInt32
  num : UInt32
  deriving DecidableEq

def Over (interval begin ts : UInt64) : Prop :=
  begin = 0 ∨ begin + interval < ts

instance (interval begin ts : UInt64) : Decidable (Over interval begin ts) :=
  inferInstanceAs (Decidable (_ ∨ _))

-- In both good cases the call itself is counted.
def ratelimitTest (ts : UInt64) (r : RateLimit) : Bool × RateLimit :=
  if Over r.interval r.begin ts then
    (true, { r with begin := ts, num := 0 + 1 })
  else if r.num ≤ r.burst then
    (true, { r with num := r.num + 1 })
  else
    (false, r)

def results : RateLimit -> List UInt64 -> List Bool
  | _, [] => []
  | r, ts :: times => (ratelimitTest ts r).1 :: results (ratelimitTest ts r).2 times

def after (r : RateLimit) (times : List UInt64) : RateLimit :=
  times.foldl (fun r ts => (ratelimitTest ts r).2) r

def window (interval ts : UInt64) (times : List UInt64) : List UInt64 :=
  ts :: times.takeWhile fun t => t.toNat ≤ ts.toNat + interval.toNat

def HonoursBurst (r : RateLimit) (times : List UInt64) : Prop :=
  ∀ front ts back, times = front ++ ts :: back ->
    Over (after r front).interval (after r front).begin ts ->
    (results (after r front) (window r.interval ts back)).count true ≤ r.burst.toNat

def beginAfter (interval begin ts : UInt64) : UInt64 :=
  if Over interval begin ts then ts else begin

def WindowsSmall (r : RateLimit) (times : List UInt64) : Prop :=
  ∀ front ts back, times = front ++ ts :: back ->
    Over r.interval (front.foldl (beginAfter r.interval) r.begin) ts ->
    (window r.interval ts back).length ≤ r.burst.toNat

variable (ts : UInt64) (r : RateLimit) (times : List UInt64)

theorem ratelimitTest_fields :
    (ratelimitTest ts r).2.interval = r.interval ∧ (ratelimitTest ts r).2.burst = r.burst ∧
      (ratelimitTest ts r).2.begin = beginAfter r.interval r.begin ts := by
  unfold ratelimitTest beginAfter
  split
  next => simp
  next => split <;> simp

theorem after_fields :
    (after r times).interval = r.interval ∧ (after r times).burst = r.burst ∧
      (after r times).begin = times.foldl (beginAfter r.interval) r.begin := by
  induction times generalizing r with
  | nil => exact ⟨rfl, rfl, rfl⟩
  | cons ts times ih =>
    obtain ⟨interval, burst, begun⟩ := ratelimitTest_fields ts r
    have rest := ih (ratelimitTest ts r).2
    rw [interval, burst, begun] at rest
    exact rest

theorem results_length : (results r times).length = times.length := by
  induction times generalizing r with
  | nil => rfl
  | cons ts times ih => simp [results, ih]

theorem results_append (first second : List UInt64) :
    results r (first ++ second) = results r first ++ results (after r first) second := by
  induction first generalizing r with
  | nil => rfl
  | cons ts first ih => simp [results, after, ih]

variable {r : RateLimit}

theorem ratelimitTest_counts {n : Nat} (counted : r.num.toNat ≤ n) (small : n ≤ r.burst.toNat) :
    (ratelimitTest ts r).1 = true ∧ (ratelimitTest ts r).2.num.toNat ≤ n + 1 := by
  unfold ratelimitTest
  split
  next => exact ⟨rfl, by simp⟩
  next =>
    have within : r.num ≤ r.burst := UInt32.le_iff_toNat_le.mpr (counted.trans small)
    rw [if_pos within]
    refine ⟨rfl, ?_⟩
    rw [UInt32.toNat_add]
    exact (Nat.mod_le _ _).trans (by simpa using counted)

theorem results_true {n : Nat} (counted : r.num.toNat ≤ n)
    (small : n + times.length ≤ r.burst.toNat + 1) :
    results r times = List.replicate times.length true := by
  induction times generalizing r n with
  | nil => rfl
  | cons ts times ih =>
    rw [length_cons] at small
    obtain ⟨good, next⟩ := ratelimitTest_counts ts counted (by omega)
    have same := (ratelimitTest_fields ts r).2.1
    rw [results, good, ih next (by rw [same]; omega), length_cons, replicate_succ]

theorem results_exceed {ts : UInt64} (exceeded : Over r.interval r.begin ts) (times : List UInt64)
    (many : r.burst.toNat < times.length + 1) :
    r.burst.toNat < (results r (ts :: times)).count true := by
  have first : ratelimitTest ts r = (true, { r with begin := ts, num := 0 + 1 }) := if_pos exceeded
  have early : results (ratelimitTest ts r).2 (times.take r.burst.toNat) =
      List.replicate r.burst.toNat true := by
    rw [results_true (n := 1) (times.take r.burst.toNat), length_take_of_le (by omega)]
    next => simp [first]
    next =>
      rw [length_take_of_le (by omega), (ratelimitTest_fields ts r).2.1]
      omega
  rw [results, first, count_cons_self]
  rw [first] at early
  conv_rhs => rw [← take_append_drop r.burst.toNat times, results_append, early]
  rw [count_append, count_replicate_self]
  omega

/-- The burst is honoured exactly as long as nobody asks more often. -/
theorem ratelimitTest_honours_iff (r : RateLimit) (times : List UInt64) :
    HonoursBurst r times ↔ WindowsSmall r times := by
  unfold HonoursBurst WindowsSmall
  refine forall_congr' fun front => forall_congr' fun ts => forall_congr' fun back =>
    forall_congr' fun _ => ?_
  obtain ⟨interval, burst, begun⟩ := after_fields r front
  rw [interval, begun]
  refine forall_congr' fun expired => ?_
  constructor
  next =>
    intro few
    by_contra many
    have exceeded := results_exceed
      (show Over (after r front).interval (after r front).begin ts by rw [interval, begun]; exact expired)
      (back.takeWhile fun t => t.toNat ≤ ts.toNat + r.interval.toNat)
      (by rw [burst]; simpa [window] using many)
    rw [burst] at exceeded
    exact absurd few (Nat.not_le.mpr exceeded)
  next =>
    intro small
    have bound := count_le_length (a := true)
      (l := results (after r front) (window r.interval ts back))
    rw [results_length] at bound
    exact bound.trans small

/-- With a burst of one, a second call gets through at once. -/
theorem burst_of_one :
    ¬ HonoursBurst { interval := 10000000, begin := 0, burst := 1, num := 0 } [1, 2] := by
  intro honoured
  exact absurd (honoured [] 1 [2] rfl (by decide)) (by decide)

theorem services_ratelimitTest (r : RateLimit)
    (interval : r.interval.toNat = Services.ratelimitInterval)
    (burst : r.burst.toNat = Services.ratelimitBurst)
    (early : r.begin.toNat + r.interval.toNat < 2 ^ 64) :
    Services.ratelimitTest ts.toNat { begin := r.begin.toNat, num := r.num.toNat } =
      ((ratelimitTest ts r).1,
        { begin := (ratelimitTest ts r).2.begin.toNat, num := (ratelimitTest ts r).2.num.toNat }) := by
  have exceeded : Over r.interval r.begin ts ↔
      r.begin.toNat = 0 ∨ r.begin.toNat + Services.ratelimitInterval < ts.toNat := by
    rw [Over, ← UInt64.toNat_inj, UInt64.lt_iff_toNat_lt, UInt64.toNat_add, Nat.mod_eq_of_lt early,
      interval]
    rfl
  have counts : r.num ≤ r.burst ↔ r.num.toNat ≤ Services.ratelimitBurst := by
    rw [UInt32.le_iff_toNat_le, burst]
  unfold Services.ratelimitTest ratelimitTest
  by_cases expired : Over r.interval r.begin ts
  next => simp [expired, exceeded.mp expired]
  next =>
    rw [if_neg expired, if_neg (fun again => expired (exceeded.mpr again))]
    by_cases within : r.num ≤ r.burst
    next =>
      have next : (r.num + 1).toNat = r.num.toNat + 1 := by
        have limit : r.num.toNat ≤ 5 := counts.mp within
        rw [UInt32.toNat_add]
        exact Nat.mod_eq_of_lt (by simp; omega)
      simp [within, counts.mp within, next]
    next =>
      have beyond : ¬ r.num.toNat ≤ Services.ratelimitBurst := fun again => within (counts.mpr again)
      simp only [if_neg within, if_neg beyond]

end Systemd.Limits
