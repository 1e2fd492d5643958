import Mathlib.Algebra.BigOperators.Group.List.Basic
import Mathlib.Algebra.Ring.Nat
import Mathlib.Data.Finset.Card
import Mathlib.Order.Interval.Finset.Nat

/-!
# Slots of given widths

The numbers below the sum of a list of widths, cut into consecutive intervals of these
widths. `slot` finds the interval of a number by subtracting widths; each interval
has as many numbers as its width, and they come in the order of the list.
-/

namespace WeightedSlots

/-- The position of the interval that a number lies in. -/
def slot : List Nat → Nat → Option Nat
  | [], _ => none
  | w :: ws, r => if r < w then some 0 else (slot ws (r - w)).map (· + 1)

@[simp] theorem slot_nil (r : Nat) : slot [] r = none := rfl

theorem slot_cons_lt {w r : Nat} (ws : List Nat) (h : r < w) : slot (w :: ws) r = some 0 :=
  if_pos h

theorem slot_cons_ge {w r : Nat} (ws : List Nat) (h : w ≤ r) :
    slot (w :: ws) r = (slot ws (r - w)).map (· + 1) :=
  if_neg (by omega)

/-- The numbers of an interval. -/
theorem slot_eq_some_iff (ws : List Nat) (r i : Nat) :
    slot ws r = some i ↔
      i < ws.length ∧ (ws.take i).sum ≤ r ∧ r < (ws.take (i + 1)).sum := by
  induction ws generalizing r i with
  | nil => simp
  | cons w ws ih =>
    by_cases h : r < w
    · rw [slot_cons_lt ws h]
      cases i with
      | zero => simpa using h
      | succ i =>
        simp only [Option.some.injEq, List.take_succ_cons, List.sum_cons, List.length_cons]
        omega
    · rw [slot_cons_ge ws (by omega)]
      cases i with
      | zero => simp; omega
      | succ i =>
        simp only [Option.map_eq_some_iff, Nat.add_right_cancel_iff, exists_eq_right, ih,
          List.length_cons, List.take_succ_cons, List.sum_cons]
        omega

/-- Every number below the sum has an interval. -/
theorem exists_slot {ws : List Nat} {r : Nat} (h : r < ws.sum) : ∃ i, slot ws r = some i := by
  induction ws generalizing r with
  | nil => simp at h
  | cons w ws ih =>
    by_cases hr : r < w
    · exact ⟨0, slot_cons_lt ws hr⟩
    · rw [List.sum_cons] at h
      obtain ⟨i, hi⟩ := ih (show r - w < ws.sum by omega)
      exact ⟨i + 1, by rw [slot_cons_ge ws (by omega), hi]; rfl⟩

/-- An interval has as many numbers as it is wide. -/
theorem card_slot {ws : List Nat} {i w : Nat} (h : ws[i]? = some w) :
    ((Finset.range ws.sum).filter fun r => slot ws r = some i).card = w := by
  obtain ⟨hi, hw⟩ := List.getElem?_eq_some_iff.mp h
  have htake : (ws.take (i + 1)).sum = (ws.take i).sum + w := by
    rw [List.take_succ_eq_append_getElem hi, List.sum_append, List.sum_singleton, hw]
  have hle : (ws.take (i + 1)).sum ≤ ws.sum := by
    have := List.sum_take_add_sum_drop ws (i + 1)
    omega
  have hset : ((Finset.range ws.sum).filter fun r => slot ws r = some i) =
      Finset.Ico (ws.take i).sum (ws.take (i + 1)).sum := by
    ext r
    rw [Finset.mem_filter, Finset.mem_range, Finset.mem_Ico, slot_eq_some_iff]
    omega
  rw [hset, Nat.card_Ico]
  omega

/-- The intervals come in the order of the list. -/
theorem slot_mono {ws : List Nat} {r r' i i' : Nat} (hle : r ≤ r') (h : slot ws r = some i)
    (h' : slot ws r' = some i') : i ≤ i' := by
  induction ws generalizing r r' i i' with
  | nil => cases h
  | cons w ws ih =>
    by_cases hr : r < w
    · rw [slot_cons_lt ws hr] at h
      cases h
      exact Nat.zero_le _
    · rw [slot_cons_ge ws (by omega)] at h
      rw [slot_cons_ge ws (by omega)] at h'
      obtain ⟨j, hj, rfl⟩ := Option.map_eq_some_iff.mp h
      obtain ⟨j', hj', rfl⟩ := Option.map_eq_some_iff.mp h'
      exact Nat.succ_le_succ (ih (by omega) hj hj')

/-! ## Entries with widths -/

section Select

variable {β : Type*} (width : β → Nat)

/-- The entry in whose interval a number lies. -/
def select (xs : List β) (r : Nat) : Option β := (slot (xs.map width) r).bind (xs[·]?)

theorem select_cons (x : β) (xs : List β) (r : Nat) :
    select width (x :: xs) r =
      if r < width x then some x else select width xs (r - width x) := by
  unfold select
  by_cases h : r < width x
  · rw [List.map_cons, slot_cons_lt _ h, if_pos h]
    rfl
  · rw [List.map_cons, slot_cons_ge _ (by omega), if_neg h, Option.bind_map]
    rfl

theorem select_append (xs ys : List β) (r : Nat) :
    select width (xs ++ ys) r =
      if r < (xs.map width).sum then select width xs r
      else select width ys (r - (xs.map width).sum) := by
  induction xs generalizing r with
  | nil => simp
  | cons x xs ih =>
    rw [List.cons_append, select_cons, select_cons, ih, List.map_cons, List.sum_cons]
    by_cases h : r < width x
    · rw [if_pos h, if_pos h, if_pos (by omega)]
    · rw [if_neg h, if_neg h, Nat.sub_add_eq]
      by_cases h' : r - width x < (xs.map width).sum
      · rw [if_pos h', if_pos (by omega)]
      · rw [if_neg h', if_neg (by omega)]

/-- The interval of one entry and those around it. -/
theorem select_append_cons (xs ys : List β) (x : β) (r : Nat) :
    select width (xs ++ x :: ys) r =
      if r < (xs.map width).sum then select width xs r
      else if r < (xs.map width).sum + width x then some x
      else select width ys (r - (xs.map width).sum - width x) := by
  rw [select_append, select_cons]
  by_cases h : r < (xs.map width).sum
  · rw [if_pos h, if_pos h]
  · rw [if_neg h, if_neg h]
    by_cases h' : r < (xs.map width).sum + width x
    · rw [if_pos h', if_pos (by omega)]
    · rw [if_neg h', if_neg (by omega)]

theorem select_congr {width' : β → Nat} {xs : List β} (h : ∀ x ∈ xs, width' x = width x)
    (r : Nat) : select width' xs r = select width xs r := by
  unfold select
  rw [List.map_congr_left h]

theorem mem_of_select {xs : List β} {r : Nat} {x : β} (h : select width xs r = some x) :
    x ∈ xs := by
  obtain ⟨i, -, hi⟩ := Option.bind_eq_some_iff.mp h
  exact List.mem_of_getElem? hi

theorem exists_select {xs : List β} {r : Nat} (h : r < (xs.map width).sum) :
    ∃ x, select width xs r = some x := by
  obtain ⟨i, hi⟩ := exists_slot h
  have hlt := ((slot_eq_some_iff _ _ _).mp hi).1
  rw [List.length_map] at hlt
  exact ⟨xs[i], by rw [select, hi, Option.bind_some, List.getElem?_eq_getElem hlt]⟩

/-- The numbers of the first entry. -/
theorem select_cons_eq_head_iff {x : β} {xs : List β} (hx : x ∉ xs) (r : Nat) :
    select width (x :: xs) r = some x ↔ r < width x := by
  rw [select_cons]
  by_cases h : r < width x
  · simp [h]
  · rw [if_neg h]
    exact ⟨fun hsel => absurd (mem_of_select width hsel) hx, fun hlt => absurd hlt h⟩

/-- If the numbers below the sum can be turned by an offset without changing any entry,
    the offset is a multiple of the sum. -/
theorem dvd_of_select_rotate {xs : List β} (hnd : xs.Nodup) (hpos : ∀ x ∈ xs, 0 < width x)
    (htwo : 2 ≤ xs.length) (offset : Nat)
    (h : ∀ r < (xs.map width).sum,
      select width xs ((r + offset) % (xs.map width).sum) = select width xs r) :
    (xs.map width).sum ∣ offset := by
  match xs, htwo with
  | x :: y :: ys, _ =>
    have hx : x ∉ y :: ys := (List.nodup_cons.mp hnd).1
    have hwx := hpos x List.mem_cons_self
    have hwy := hpos y (List.mem_cons_of_mem _ List.mem_cons_self)
    have hsum : ((x :: y :: ys).map width).sum = width x + width y + (ys.map width).sum := by
      simp only [List.map_cons, List.sum_cons]
      omega
    generalize ((x :: y :: ys).map width).sum = total at *
    by_contra hdvd
    have hturn : 0 < offset % total := Nat.pos_of_ne_zero fun h0 => hdvd (Nat.dvd_of_mod_eq_zero h0)
    have hlt := Nat.mod_lt offset (show 0 < total by omega)
    have hdiv := Nat.div_add_mod offset total
    -- what is turned onto 0 belongs to the first entry
    have hzero := h (total - offset % total) (by omega)
    rw [show total - offset % total + offset = total * (offset / total + 1) by
        rw [Nat.mul_add]; omega, Nat.mul_mod_right,
      (select_cons_eq_head_iff width hx 0).mpr hwx, eq_comm, select_cons_eq_head_iff width hx]
      at hzero
    -- and so does the number before it, which is turned onto the last one
    have hlast := h (total - offset % total - 1) (by omega)
    rw [show total - offset % total - 1 + offset = total - 1 + total * (offset / total) by omega,
      Nat.add_mul_mod_self_left, Nat.mod_eq_of_lt (by omega),
      (select_cons_eq_head_iff width hx (total - offset % total - 1)).mpr (by omega),
      select_cons_eq_head_iff width hx] at hlast
    omega

end Select

end WeightedSlots
