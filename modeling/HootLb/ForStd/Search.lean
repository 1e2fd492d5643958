import Mathlib.Data.List.Basic

/-!
# Binary search

The smallest index of an interval from which on a test holds, found by halving.
The test must not go back from true to false in the interval; what is found is then
told by `search_le_iff`: an index passes the test exactly if the search does not go
beyond it.
-/

namespace Search

/-- Search between `i` and `j`, with fuel for one round per index. -/
def loop (f : Nat → Bool) : Nat → Nat → Nat → Nat
  | 0, i, _ => i
  | fuel + 1, i, j =>
    if i < j then
      let h := (i + j) / 2
      if f h then loop f fuel i h else loop f fuel (h + 1) j
    else i

/-- The smallest index below `n` that passes the test, or `n`. -/
def search (n : Nat) (f : Nat → Bool) : Nat := loop f n 0 n

/-- The test fails before `r` and holds from `r` on. -/
structure Splits (n : Nat) (f : Nat → Bool) (r : Nat) : Prop where
  le : r ≤ n
  before : ∀ k < r, f k = false
  after : ∀ k, r ≤ k → k < n → f k = true

variable {n : Nat} {f : Nat → Bool}

/-- Halving keeps the test false before the interval and true after it. -/
theorem splits_loop (hmono : ∀ a b, a ≤ b → b < n → f a = true → f b = true) {fuel i j : Nat}
    (hfuel : j - i ≤ fuel) (hij : i ≤ j) (hjn : j ≤ n) (hbefore : ∀ k < i, f k = false)
    (hafter : ∀ k, j ≤ k → k < n → f k = true) : Splits n f (loop f fuel i j) := by
  induction fuel generalizing i j with
  | zero =>
    have heq : i = j := by omega
    rw [loop]
    exact ⟨by omega, hbefore, heq ▸ hafter⟩
  | succ fuel ih =>
    rw [loop]
    split
    · rename_i hlt
      dsimp only
      split
      · rename_i hpass
        -- everything from the middle on passes as well
        exact ih (by omega) (by omega) (by omega) hbefore
          fun k hk hkn => hmono _ k hk hkn hpass
      · rename_i hfail
        -- nothing up to the middle passes, or the middle would
        refine ih (by omega) (by omega) hjn ?_ hafter
        intro k hk
        by_contra hpass
        exact hfail (hmono k _ (by omega) (by omega) (by simpa using hpass))
    · rename_i hge
      have heq : i = j := by omega
      exact ⟨by omega, hbefore, heq ▸ hafter⟩

theorem splits_search (hmono : ∀ a b, a ≤ b → b < n → f a = true → f b = true) :
    Splits n f (search n f) :=
  splits_loop hmono (by omega) (by omega) (by omega) (fun k hk => absurd hk (by omega))
    fun k hk hkn => absurd hkn (by omega)

/-- An index passes exactly if the search stops at it or before it. -/
theorem search_le_iff (hmono : ∀ a b, a ≤ b → b < n → f a = true → f b = true) {k : Nat}
    (hk : k < n) : search n f ≤ k ↔ f k = true := by
  have h := splits_search hmono
  constructor
  · exact fun hle => h.after k hle hk
  · intro hpass
    by_contra hlt
    rw [h.before k (by omega)] at hpass
    exact Bool.false_ne_true hpass

end Search
