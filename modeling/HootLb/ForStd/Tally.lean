import Mathlib.Algebra.Ring.Nat
import Mathlib.Data.List.Range

/-!
# Tallies

How many elements of a list fall on each of the places `0, …, n - 1`. One more
element is one more at its place, and the sum over the first places is the number
of elements that fall before the next.
-/

namespace Tally

variable {α : Type} (place : α → Nat)

/-- How many elements fall on each of the first `n` places. -/
def tally (n : Nat) (xs : List α) : List Nat :=
  (List.range n).map fun i => xs.countP fun x => place x = i

@[simp] theorem length_tally (n : Nat) (xs : List α) : (tally place n xs).length = n := by
  simp [tally]

theorem tally_nil (n : Nat) : tally place n [] = List.replicate n 0 := by
  simp [tally, List.map_const']

theorem take_tally {i n : Nat} (h : i ≤ n) (xs : List α) :
    (tally place n xs).take i = tally place i xs := by
  rw [tally, ← List.map_take, List.take_range, Nat.min_eq_left h, tally]

theorem tally_concat (n : Nat) (xs : List α) (x : α) :
    tally place n (xs ++ [x]) = (tally place n xs).modify (place x) (· + 1) := by
  apply List.ext_getElem?
  intro i
  rw [List.getElem?_modify]
  unfold tally
  rw [List.getElem?_map, List.getElem?_map]
  by_cases hi : i < n
  · rw [List.getElem?_range hi]
    simp only [Option.map_some, Option.map_eq_map, List.countP_append, List.countP_singleton,
      decide_eq_true_eq]
    split <;> rfl
  · simp [List.getElem?_eq_none (show (List.range n).length ≤ i by simpa using hi)]

/-- An element that falls before place `n + 1` falls before `n` or on it. -/
theorem countP_lt_succ (n : Nat) (xs : List α) :
    (xs.countP fun x => place x < n + 1) =
      (xs.countP fun x => place x < n) + xs.countP fun x => place x = n := by
  induction xs with
  | nil => rfl
  | cons x xs ih =>
    simp only [List.countP_cons, ih, decide_eq_true_eq]
    rcases Nat.lt_trichotomy (place x) n with h | h | h
    · rw [if_pos (by omega), if_pos h, if_neg (by omega)]
      omega
    · rw [if_pos (by omega), if_neg (by omega), if_pos h]
      omega
    · rw [if_neg (by omega), if_neg (by omega), if_neg (by omega)]
      omega

theorem sum_tally (n : Nat) (xs : List α) :
    (tally place n xs).sum = xs.countP fun x => place x < n := by
  induction n with
  | zero => simp [tally]
  | succ n ih =>
    rw [tally, List.range_succ, List.map_append, List.sum_append, countP_lt_succ, ← ih]
    simp [tally]

end Tally
