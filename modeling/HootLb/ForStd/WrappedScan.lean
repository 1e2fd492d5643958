import Mathlib.Algebra.Order.Ring.Nat

/-!
# Scanning positions from a wrapping counter

A counter that wraps at `M` starts a scan of `n` positions at `c % n`, going on to
`(c + 1) % n` and so forth. As long as the counter does not wrap during the scan,
all positions are visited. When it does and `n` does not divide `M`, the positions
start again at 0 out of turn: some are visited twice and as many are left out.
-/

namespace WrappedScan

/-- The position visited in step `i`. -/
def position (M n c i : Nat) : Nat := (c + i) % M % n

/-- The positions a scan leaves out. -/
def Skipped (M n c p : Nat) : Prop :=
  M < c + n ∧ M % n ≤ p ∧ c + n ≤ p + M ∧ p + M < c + n + M % n

instance (M n c p : Nat) : Decidable (Skipped M n c p) :=
  inferInstanceAs (Decidable (_ ∧ _))

variable {M n c p : Nat}

/-- The residues in a block of `n` values are the positions in order. -/
private theorem block_mod (q : Nat) (hp : p < n) : (n * q + p) % n = p := by
  rw [Nat.mul_add_mod, Nat.mod_eq_of_lt hp]

/-- Without a wrap, a value with the residue of a position comes within `n` steps. -/
private theorem exists_value_of_no_wrap (c : Nat) (hp : p < n) :
    ∃ v, c ≤ v ∧ v < c + n ∧ v % n = p := by
  have hcn : c % n < n := Nat.mod_lt c (by omega)
  have hc := Nat.div_add_mod c n
  by_cases hle : c % n ≤ p
  · exact ⟨n * (c / n) + p, by omega, by omega, block_mod _ hp⟩
  · -- the position is behind the counter in its block, so it comes in the next one
    have hnext : n * (c / n + 1) = n * (c / n) + n := Nat.mul_succ n (c / n)
    exact ⟨n * (c / n + 1) + p, by omega, by omega, block_mod _ hp⟩

/-- A value below the wrap with the residue of a position that is not skipped. -/
private theorem exists_value_below_wrap (hp : p < n) (hlate : c + n ≤ p + M) (hn : n ≤ M)
    (hvisited : p < M % n ∨ c + n + M % n ≤ p + M) : ∃ v, c ≤ v ∧ v < M ∧ v % n = p := by
  have hM := Nat.div_add_mod M n
  have hr : M % n < n := Nat.mod_lt M (by omega)
  by_cases hlt : p < M % n
  · -- in the part block before the wrap
    exact ⟨n * (M / n) + p, by omega, by omega, block_mod _ hp⟩
  · -- in the last full block
    have hpos : 0 < M / n := Nat.div_pos hn (by omega)
    obtain ⟨q, hq⟩ : ∃ q, M / n = q + 1 := ⟨M / n - 1, by omega⟩
    rw [hq, Nat.mul_succ] at hM
    exact ⟨n * q + p, by omega, by omega, block_mod _ hp⟩

/-- A value before the wrap is visited at its distance from the counter. -/
private theorem exists_position_of_value {v : Nat} (hcv : c ≤ v) (hvM : v < M) (hvn : v < c + n)
    (hv : v % n = p) : ∃ i < n, position M n c i = p := by
  refine ⟨v - c, by omega, ?_⟩
  unfold position
  rw [Nat.add_sub_cancel' hcv, Nat.mod_eq_of_lt hvM, hv]

/-- After the wrap the positions count up from 0. -/
private theorem exists_position_after_wrap (hn : n ≤ M) (hc : c < M) (hp : p < n)
    (hafter : p + M < c + n) : ∃ i < n, position M n c i = p := by
  have hsum : c + (p + M - c) = p + M := by omega
  have hpM : p % M = p := Nat.mod_eq_of_lt (by omega)
  refine ⟨p + M - c, by omega, ?_⟩
  unfold position
  rw [hsum, Nat.add_mod_right, hpM, Nat.mod_eq_of_lt hp]

private theorem not_skipped_of_position {i : Nat} (hn : n ≤ M) (hc : c < M) (hi : i < n)
    (hpos : position M n c i = p) : ¬ Skipped M n c p := by
  rintro ⟨-, hrest, hlate, hearly⟩
  unfold position at hpos
  by_cases hwrap : c + i < M
  · -- a value before the wrap has one more block below the wrap than it could
    rw [Nat.mod_eq_of_lt hwrap] at hpos
    have hv := Nat.div_add_mod (c + i) n
    have hM := Nat.div_add_mod M n
    have hlt : (c + i) / n < M / n := by
      by_contra hge
      have := Nat.mul_le_mul_left n (Nat.not_lt.mp hge)
      omega
    have hblock := Nat.mul_le_mul_left n (Nat.succ_le_of_lt hlt)
    rw [Nat.mul_succ] at hblock
    omega
  · have hsub : (c + i) % M = c + i - M := by
      rw [Nat.mod_eq_sub_mod (by omega), Nat.mod_eq_of_lt (by omega)]
    rw [hsub, Nat.mod_eq_of_lt (by omega)] at hpos
    omega

/-- A scan visits a position exactly when it does not skip it. -/
theorem exists_position_iff (hn : n ≤ M) (hc : c < M) (hp : p < n) :
    (∃ i < n, position M n c i = p) ↔ ¬ Skipped M n c p := by
  constructor
  · rintro ⟨i, hi, hpos⟩
    exact not_skipped_of_position hn hc hi hpos
  · intro hskip
    by_cases hafter : p + M < c + n
    · exact exists_position_after_wrap hn hc hp hafter
    · by_cases hwrap : M < c + n
      · have hvisited : p < M % n ∨ c + n + M % n ≤ p + M := by
          unfold Skipped at hskip
          omega
        obtain ⟨v, hcv, hvM, hv⟩ := exists_value_below_wrap hp (by omega) hn hvisited
        exact exists_position_of_value hcv hvM (by omega) hv
      · obtain ⟨v, hcv, hvn, hv⟩ := exists_value_of_no_wrap c hp
        exact exists_position_of_value hcv (by omega) hvn hv

-- three positions, two steps before a 64-bit counter wraps: 2, 0, 0
example : Skipped (2 ^ 64) 3 (2 ^ 64 - 2) 1 := by decide

end WrappedScan
