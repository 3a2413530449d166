-- The delays of `RetryPolicy.delay_for` in exact fractions: how they grow up to the cap, and the
-- attempt from which on the power in them is past the largest double.
import Pymod.Retry
import Mathlib.Algebra.Order.Archimedean.Basic
import Mathlib.Tactic.Linarith

namespace pymod.retry

open errors codec

/-! ## One delay -/

def power_overflows : PyError := .OverflowError "(34, 'Numerical result out of range')"

theorem pow_of_lt {x : Rat} {n : Nat} (h : |x ^ n| < 2 ^ 1024) :
    Timing.pow x n = .ok (x ^ n) := by
  change (if 2 ^ 1024 ≤ |x ^ n| then _ else _) = _
  rw [if_neg (not_le.mpr h)]
  rfl

theorem pow_of_le {x : Rat} {n : Nat} (h : 2 ^ 1024 ≤ |x ^ n|) :
    Timing.pow x n = .error power_overflows := by
  change (if 2 ^ 1024 ≤ |x ^ n| then _ else _) = _
  rw [if_pos h]
  rfl

/-- `min(delay, cap)` -/
theorem capped_eq_min (cap delay : Rat) :
    (if Timing.lt cap delay then cap else delay) = min delay cap := by
  have hlt : Timing.lt cap delay = decide (cap < delay) := rfl
  by_cases h : cap < delay
  · rw [hlt, if_pos (decide_eq_true h), min_eq_right h.le]
  · rw [hlt, if_neg (by simpa using h), min_eq_left (not_lt.mp h)]

variable {policy : RetryPolicy Rat} {attempt : Int}

theorem delay_for_of_lt (hpos : 1 ≤ attempt)
    (h : |policy.backoff_factor ^ (attempt - 1).toNat| < 2 ^ 1024) :
    policy.delay_for attempt =
      .ok (min (policy.backoff_initial_s * policy.backoff_factor ^ (attempt - 1).toNat)
        policy.backoff_cap_s) := by
  unfold RetryPolicy.delay_for
  rw [if_neg (by omega), pow_of_lt h, ← capped_eq_min]
  rfl

theorem delay_for_of_le (hpos : 1 ≤ attempt)
    (h : 2 ^ 1024 ≤ |policy.backoff_factor ^ (attempt - 1).toNat|) :
    policy.delay_for attempt = .error power_overflows := by
  unfold RetryPolicy.delay_for
  rw [if_neg (by omega), pow_of_le h]
  rfl

/-! ## The delays of a policy -/

/-- The numbers of a policy that backs off, and never for longer than its cap. -/
structure BacksOff (policy : RetryPolicy Rat) : Prop where
  initial : 0 ≤ policy.backoff_initial_s
  factor : 1 ≤ policy.backoff_factor
  cap : 0 ≤ policy.backoff_cap_s

/-- The delay is a number from 0 to the cap, and no earlier delay is longer. -/
def DelayCapped (policy : RetryPolicy Rat) (attempt : Int) : Prop :=
  ∃ delay, policy.delay_for attempt = .ok delay ∧ 0 ≤ delay ∧ delay ≤ policy.backoff_cap_s ∧
    ∀ earlier, 1 ≤ earlier → earlier ≤ attempt →
      ∃ delay', policy.delay_for earlier = .ok delay' ∧ delay' ≤ delay

theorem BacksOff.abs_pow (h : BacksOff policy) (n : Nat) :
    |policy.backoff_factor ^ n| = policy.backoff_factor ^ n :=
  abs_of_nonneg (pow_nonneg (zero_le_one.trans h.factor) n)

theorem BacksOff.pow_mono (h : BacksOff policy) {m n : Nat} (hmn : m ≤ n) :
    policy.backoff_factor ^ m ≤ policy.backoff_factor ^ n :=
  pow_le_pow_right₀ h.factor hmn

/-- Below the largest double the power is computed, in every attempt up to this one. -/
theorem BacksOff.delay_for_eq (h : BacksOff policy)
    (hlt : policy.backoff_factor ^ (attempt - 1).toNat < 2 ^ 1024) {earlier : Int}
    (hpos : 1 ≤ earlier) (hle : earlier ≤ attempt) :
    policy.delay_for earlier =
      .ok (min (policy.backoff_initial_s * policy.backoff_factor ^ (earlier - 1).toNat)
        policy.backoff_cap_s) := by
  apply delay_for_of_lt hpos
  rw [h.abs_pow]
  exact lt_of_le_of_lt (h.pow_mono (by omega)) hlt

theorem BacksOff.capped (h : BacksOff policy) (hpos : 1 ≤ attempt)
    (hlt : policy.backoff_factor ^ (attempt - 1).toNat < 2 ^ 1024) : DelayCapped policy attempt := by
  refine ⟨_, h.delay_for_eq hlt hpos (Int.le_refl _), ?_, min_le_right _ _, ?_⟩
  · have hpow := pow_nonneg (zero_le_one.trans h.factor) (attempt - 1).toNat
    exact le_min (mul_nonneg h.initial hpow) h.cap
  · intro earlier hearlier hle
    refine ⟨_, h.delay_for_eq hlt hearlier hle, ?_⟩
    have hpow := h.pow_mono (m := (earlier - 1).toNat) (n := (attempt - 1).toNat) (by omega)
    exact min_le_min_right _ (mul_le_mul_of_nonneg_left hpow h.initial)

/-- The delay of an attempt is capped exactly when its power is below the largest double. -/
theorem a_delay_is_capped_iff (policy : RetryPolicy Rat) (h : BacksOff policy) (attempt : Int)
    (hpos : 1 ≤ attempt) :
    DelayCapped policy attempt ↔ policy.backoff_factor ^ (attempt - 1).toNat < 2 ^ 1024 := by
  constructor
  · intro ⟨delay, hdelay, _⟩
    by_contra hge
    rw [not_lt, ← h.abs_pow] at hge
    rw [delay_for_of_le hpos hge] at hdelay
    cases hdelay
  · exact h.capped hpos

theorem default_backs_off : BacksOff {} := by
  constructor <;> decide +kernel

theorem default_factor : ({} : RetryPolicy Rat).backoff_factor = 2 := by decide +kernel

/-- The delay before the hundredth attempt of the default policy. -/
theorem the_99th_delay_is_capped :
    DelayCapped {} 99 ↔ (2.0 : Rat) ^ (99 - 1 : Int).toNat < 2 ^ 1024 :=
  a_delay_is_capped_iff {} default_backs_off 99 (by decide)

/-- The 1025th delay of the default policy is computed past the largest double. -/
theorem a_delay_raises : ¬ ∀ policy : RetryPolicy Rat, BacksOff policy →
    ∀ attempt : Int, 1 ≤ attempt → DelayCapped policy attempt := by
  intro h
  obtain ⟨delay, hdelay, _⟩ := h {} default_backs_off 1025 (by decide)
  have hraises : ({} : RetryPolicy Rat).delay_for 1025 = .error power_overflows :=
    delay_for_of_le (by decide) (by decide +kernel)
  rw [hraises] at hdelay
  cases hdelay

/-! ## Pauses -/

/-- The sleep before an attempt ends, when its delay can be computed. -/
theorem BacksOff.pause_elapsed (h : BacksOff policy) {n : Nat}
    (hlt : policy.backoff_factor ^ (n - 2) < 2 ^ 1024) : pause policy n = .elapsed := by
  unfold pause
  by_cases hretry : 1 < n
  · have hexp : ((n : Int) - 1 - 1).toNat = n - 2 := by omega
    rw [if_pos hretry, delay_for_of_lt (by omega) (by rwa [hexp, h.abs_pow])]
    rfl
  · rw [if_neg hretry]

theorem BacksOff.pause_raises (h : BacksOff policy) {n : Nat} (hretry : 1 < n)
    (hle : 2 ^ 1024 ≤ policy.backoff_factor ^ (n - 2)) :
    pause policy n = .raises power_overflows := by
  have hexp : ((n : Int) - 1 - 1).toNat = n - 2 := by omega
  unfold pause
  rw [if_pos hretry, delay_for_of_le (by omega) (by rwa [hexp, h.abs_pow])]

/-! ## Policies that grow -/

/-- With a factor past 1, all delays from some attempt on raise. -/
theorem growing_delays_overflow (h : BacksOff policy) (hgrows : 1 < policy.backoff_factor) :
    ∃ first : Int, 1 ≤ first ∧
      ∀ attempt, first ≤ attempt → policy.delay_for attempt = .error power_overflows := by
  obtain ⟨n, hn⟩ := pow_unbounded_of_one_lt (2 ^ 1024) hgrows
  refine ⟨n + 1, by omega, ?_⟩
  intro attempt hle
  apply delay_for_of_le (by omega)
  rw [h.abs_pow]
  exact hn.le.trans (h.pow_mono (by omega))

end pymod.retry
