import Mathlib.Algebra.Order.Ring.Defs
import Mathlib.Tactic.Linarith
import Mathlib.Tactic.Ring

/-!
# Token buckets

A bucket of bounded capacity gains tokens at a fixed rate and pays one for every
call it grants. Called in the order of its clock readings, it grants at most the
capacity plus the rate times the length of any window.

The invariant behind the bound: what was granted since a time `s` plus what is
still in the bucket never exceeds the capacity plus what flowed in since `s`.
-/

namespace TokenBucket

variable {K : Type} [LinearOrder K]

/-! ## Windows of a history -/

/-- How many calls of a history were granted with a reading in `[s, t]`. -/
def grants (history : List (K × Bool)) (s t : K) : Nat :=
  history.countP fun e => e.2 && decide (s ≤ e.1) && decide (e.1 ≤ t)

theorem grants_append_singleton (history : List (K × Bool)) (now s t : K) (granted : Bool) :
    grants (history ++ [(now, granted)]) s t =
      grants history s t + if granted = true ∧ s ≤ now ∧ now ≤ t then 1 else 0 := by
  simp only [grants, List.countP_append, List.countP_singleton, Bool.and_eq_true,
    decide_eq_true_eq, and_assoc]

/-- Beyond the last reading the end of the window does not matter. -/
theorem grants_eq_of_past (history : List (K × Bool)) (last s t : K)
    (hpast : ∀ e ∈ history, e.1 ≤ last) (ht : last ≤ t) :
    grants history s t = grants history s last := by
  apply List.countP_congr
  intro e he
  have hle := hpast e he
  simp [hle, le_trans hle ht]

theorem grants_eq_zero (history : List (K × Bool)) (last s t : K)
    (hpast : ∀ e ∈ history, e.1 ≤ last) (hs : last < s) : grants history s t = 0 := by
  unfold grants
  rw [List.countP_eq_zero]
  intro e he
  have hlt : e.1 < s := lt_of_le_of_lt (hpast e he) hs
  simp [not_le.mpr hlt]

/-! ## The bucket -/

/-- The tokens of a bucket at the time of its last call. -/
structure Bucket (K : Type) where
  tokens : K
  last : K

variable [CommRing K] (rate capacity : K) (b : Bucket K) (now : K)

/-- The tokens a call at `now` finds: nothing flows in when the clock did not
    advance. -/
def Bucket.refilled : K :=
  if b.last < now then min capacity (b.tokens + rate * (now - b.last)) else b.tokens

/-- One call: whether it is granted, and the bucket it leaves. -/
def Bucket.call : Bool × Bucket K :=
  let tokens := b.refilled rate capacity now
  if 1 ≤ tokens then (true, { tokens := tokens - 1, last := now })
  else (false, { tokens, last := now })

/-- What is known of a bucket and the calls it answered. -/
structure Bounded (history : List (K × Bool)) : Prop where
  nonneg : 0 ≤ b.tokens
  le_capacity : b.tokens ≤ capacity
  past : ∀ e ∈ history, e.1 ≤ b.last
  spent : ∀ s ≤ b.last, grants history s b.last + b.tokens ≤ capacity + rate * (b.last - s)
  window : ∀ s t, s ≤ t → grants history s t ≤ capacity + rate * (t - s)

theorem refilled_le_capacity (h : b.tokens ≤ capacity) :
    b.refilled rate capacity now ≤ capacity := by
  unfold Bucket.refilled
  split
  · exact min_le_left _ _
  · exact h

@[simp] theorem call_last : (b.call rate capacity now).2.last = now := by
  unfold Bucket.call
  dsimp only
  split <;> rfl

/-- A call pays for its grant with a token. -/
theorem call_balance :
    (b.call rate capacity now).2.tokens + (if (b.call rate capacity now).1 = true then 1 else 0) =
      b.refilled rate capacity now := by
  unfold Bucket.call
  dsimp only
  split <;> simp

variable [IsStrictOrderedRing K]

theorem refilled_le (hrate : 0 ≤ rate) (hnow : b.last ≤ now) :
    b.refilled rate capacity now ≤ b.tokens + rate * (now - b.last) := by
  unfold Bucket.refilled
  split
  · exact min_le_right _ _
  · have hflow : 0 ≤ rate * (now - b.last) := mul_nonneg hrate (sub_nonneg.mpr hnow)
    linarith

theorem refilled_nonneg (hrate : 0 ≤ rate) (hcap : 0 ≤ capacity) (h : 0 ≤ b.tokens) :
    0 ≤ b.refilled rate capacity now := by
  unfold Bucket.refilled
  split
  · rename_i hlt
    have hflow : 0 ≤ rate * (now - b.last) := mul_nonneg hrate (sub_nonneg.mpr (le_of_lt hlt))
    exact le_min hcap (by linarith)
  · exact h

/-- Enough time to fill up from nothing leaves a full bucket. -/
theorem refilled_eq_capacity (h : 0 ≤ b.tokens) (hlt : b.last < now)
    (hflow : capacity ≤ rate * (now - b.last)) : b.refilled rate capacity now = capacity := by
  unfold Bucket.refilled
  rw [if_pos hlt]
  exact min_eq_left (by linarith)

theorem call_nonneg (h : 0 ≤ b.refilled rate capacity now) :
    0 ≤ (b.call rate capacity now).2.tokens := by
  unfold Bucket.call
  dsimp only
  split
  · rename_i hone
    exact sub_nonneg.mpr hone
  · exact h

/-! ## The bound -/

variable {rate capacity b} {history : List (K × Bool)}

/-- A full bucket that nothing was taken from. -/
theorem Bounded.full (hrate : 0 ≤ rate) (hcap : 0 ≤ capacity) :
    Bounded rate capacity { tokens := capacity, last := now } [] := by
  constructor
  · exact hcap
  · exact le_refl _
  · simp
  · intro s hs
    have hflow : 0 ≤ rate * (now - s) := mul_nonneg hrate (sub_nonneg.mpr hs)
    simp only [grants, List.countP_nil, Nat.cast_zero]
    linarith
  · intro s t hst
    have hflow : 0 ≤ rate * (t - s) := mul_nonneg hrate (sub_nonneg.mpr hst)
    simp only [grants, List.countP_nil, Nat.cast_zero]
    linarith

/-- A call whose reading is not before the last one keeps the bound. -/
theorem Bounded.call (h : Bounded rate capacity b history) (hrate : 0 ≤ rate)
    (hnow : b.last ≤ now) :
    Bounded rate capacity (b.call rate capacity now).2
      (history ++ [(now, (b.call rate capacity now).1)]) := by
  have hcap : 0 ≤ capacity := le_trans h.nonneg h.le_capacity
  have hrefilled := refilled_nonneg rate capacity b now hrate hcap h.nonneg
  have hflow := refilled_le rate capacity b now hrate hnow
  have hle := refilled_le_capacity rate capacity b now h.le_capacity
  have hbalance := call_balance rate capacity b now
  have hlast := call_last rate capacity b now
  have htokens := call_nonneg rate capacity b now hrefilled
  generalize b.call rate capacity now = r at hbalance hlast htokens ⊢
  obtain ⟨granted, b'⟩ := r
  dsimp only at hbalance hlast htokens ⊢
  have hpast : ∀ e ∈ history ++ [(now, granted)], e.1 ≤ now := by
    intro e he
    rcases List.mem_append.mp he with he | he
    · exact le_trans (h.past e he) hnow
    · rw [List.mem_singleton.mp he]
  -- what was granted since `s`, with this call, plus what is left
  have hspent : ∀ s ≤ now, (grants (history ++ [(now, granted)]) s now : K) + b'.tokens ≤
      capacity + rate * (now - s) := by
    intro s hs
    have hcount : (grants (history ++ [(now, granted)]) s now : K) =
        grants history s now + if granted = true then 1 else 0 := by
      rw [grants_append_singleton]
      simp [hs]
    by_cases hold : s ≤ b.last
    · have hbefore := h.spent s hold
      have hsplit : rate * (now - s) = rate * (now - b.last) + rate * (b.last - s) := by ring
      rw [hcount, grants_eq_of_past history b.last s now h.past hnow]
      linarith
    · have hwindow : 0 ≤ rate * (now - s) := mul_nonneg hrate (sub_nonneg.mpr hs)
      rw [hcount, grants_eq_zero history b.last s now h.past (not_le.mp hold), Nat.cast_zero]
      linarith
  constructor
  · exact htokens
  · split at hbalance <;> linarith
  · rw [hlast]
    exact hpast
  · rw [hlast]
    exact hspent
  · intro s t hst
    by_cases hin : granted = true ∧ s ≤ now ∧ now ≤ t
    · -- the window reaches beyond this call, so it is bounded by what is spent now
      have hnow_spent := hspent s hin.2.1
      have hmore : rate * (now - s) ≤ rate * (t - s) :=
        mul_le_mul_of_nonneg_left (by linarith [hin.2.2]) hrate
      rw [grants_eq_of_past _ now s t hpast hin.2.2]
      linarith
    · rw [grants_append_singleton, if_neg hin, Nat.add_zero]
      exact h.window s t hst

end TokenBucket
