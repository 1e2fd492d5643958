import Mathlib.Algebra.BigOperators.Ring.Finset
import Mathlib.Algebra.Order.BigOperators.Group.Finset
import Mathlib.Algebra.Order.Ring.Int
import Mathlib.Tactic.Linarith
import Mathlib.Tactic.Ring

/-!
# Smooth weighted schedules

A finite set of members with positive weights takes turns. In each round every
member's credit grows by its weight, a member with the largest credit is served,
and the served member pays the total weight. Whatever the rule for ties, a cycle
of as many rounds as the total weight serves every member exactly as often as its
weight says and brings all credits back to zero.

The argument: the credits always add up to zero, so the largest grown credit is
positive and paying never takes a credit down to minus the total weight. A
member's credit is its share of the rounds minus what it paid, so at the end of a
cycle that bound says it was served at most its weight; the counts add up to the
length of the cycle, so none can be less.
-/

namespace SmoothSchedule

variable {ι : Type} [DecidableEq ι] (s : Finset ι) (w : ι → ℤ)

/-- What a served member pays. -/
def total : ℤ := ∑ k ∈ s, w k

/-- One round from the credits `x`, serving `i` and leaving the credits `x'`. -/
structure Round (x : ι → ℤ) (i : ι) (x' : ι → ℤ) : Prop where
  mem : i ∈ s
  largest : ∀ j ∈ s, x j + w j ≤ x i + w i
  credit : ∀ j ∈ s, x' j = x j + w j - if j = i then total s w else 0

/-- Rounds one after another, with the members served. -/
inductive Rounds : (ι → ℤ) → List ι → (ι → ℤ) → Prop
  | nil (x : ι → ℤ) : Rounds x [] x
  | cons {x x' x'' : ι → ℤ} {i : ι} {is : List ι} (hd : Round s w x i x')
      (tl : Rounds x' is x'') : Rounds x (i :: is) x''

/-- The credits of a schedule: they add up to zero and none is down to minus the
    total weight. -/
structure Balanced (x : ι → ℤ) : Prop where
  sum_eq_zero : ∑ j ∈ s, x j = 0
  gt_neg_total : ∀ j ∈ s, - total s w < x j

variable {s w} {x x' : ι → ℤ} {i : ι}

/-! ## One round -/

omit [DecidableEq ι] in
theorem total_pos (hw : ∀ j ∈ s, 0 < w j) (hi : i ∈ s) : 0 < total s w :=
  Finset.sum_pos hw ⟨i, hi⟩

omit [DecidableEq ι] in
/-- Zero credits are balanced. -/
theorem Balanced.of_zero (hw : ∀ j ∈ s, 0 < w j) (h : ∀ j ∈ s, x j = 0) : Balanced s w x := by
  constructor
  · exact Finset.sum_eq_zero h
  · intro j hj
    have hpos := total_pos hw hj
    rw [h j hj]
    omega

/-- A single member pays exactly what it gains. -/
theorem Round.singleton (w : ι → ℤ) (x : ι → ℤ) (i : ι) : Round {i} w x i x := by
  constructor
  · exact Finset.mem_singleton_self i
  · intro j hj
    rw [Finset.mem_singleton.mp hj]
  · intro j hj
    rw [Finset.mem_singleton.mp hj, if_pos rfl, total, Finset.sum_singleton]
    ring

/-- The total weight is handed out and paid in. -/
theorem Round.sum_eq (h : Round s w x i x') : ∑ j ∈ s, x' j = ∑ j ∈ s, x j := by
  have hpay : ∑ j ∈ s, (if j = i then total s w else 0) = total s w := by
    rw [Finset.sum_ite_eq' s i fun _ => total s w, if_pos h.mem]
  calc ∑ j ∈ s, x' j
      = ∑ j ∈ s, (x j + w j - if j = i then total s w else 0) := Finset.sum_congr rfl h.credit
    _ = ∑ j ∈ s, x j + total s w - total s w := by
        rw [Finset.sum_sub_distrib, Finset.sum_add_distrib, hpay]
        rfl
    _ = ∑ j ∈ s, x j := by ring

/-- The member served has a positive grown credit. -/
theorem Round.served_pos (h : Round s w x i x') (hw : ∀ j ∈ s, 0 < w j) (hb : Balanced s w x) :
    0 < x i + w i := by
  by_contra hle
  -- otherwise no grown credit is positive, but they add up to the total weight
  have hsum : ∑ j ∈ s, (x j + w j) ≤ 0 := by
    apply Finset.sum_nonpos
    intro j hj
    have := h.largest j hj
    omega
  rw [Finset.sum_add_distrib, hb.sum_eq_zero, zero_add] at hsum
  have hpos : 0 < ∑ j ∈ s, w j := total_pos hw h.mem
  omega

theorem Round.balanced (h : Round s w x i x') (hw : ∀ j ∈ s, 0 < w j) (hb : Balanced s w x) :
    Balanced s w x' := by
  constructor
  · rw [h.sum_eq, hb.sum_eq_zero]
  · intro j hj
    have hgt := hb.gt_neg_total j hj
    have hwj := hw j hj
    rw [h.credit j hj]
    by_cases hji : j = i
    · subst hji
      have hpos := h.served_pos hw hb
      rw [if_pos rfl]
      omega
    · rw [if_neg hji]
      omega

/-! ## Many rounds -/

theorem Rounds.balanced {is : List ι} (h : Rounds s w x is x') (hw : ∀ j ∈ s, 0 < w j)
    (hb : Balanced s w x) : Balanced s w x' := by
  induction h with
  | nil x => exact hb
  | cons hd tl ih => exact ih (hd.balanced hw hb)

theorem Rounds.served_mem {is : List ι} (h : Rounds s w x is x') : ∀ i ∈ is, i ∈ s := by
  induction h with
  | nil x => simp
  | cons hd tl ih =>
    intro j hj
    rcases List.mem_cons.mp hj with rfl | hj
    · exact hd.mem
    · exact ih j hj

/-- A member's credit is its share of the rounds minus what it paid. -/
theorem Rounds.credit_eq {is : List ι} (h : Rounds s w x is x') (j : ι) (hj : j ∈ s) :
    x' j = x j + is.length * w j - is.count j * total s w := by
  induction h with
  | nil x => simp
  | @cons x x₁ x₂ i is hd tl ih =>
    rw [ih, hd.credit j hj, List.length_cons, List.count_cons]
    by_cases hji : j = i
    · subst hji
      simp only [if_true, beq_self_eq_true]
      push_cast
      ring
    · have hij : (i == j) = false := beq_eq_false_iff_ne.mpr (Ne.symm hji)
      simp only [hji, hij, if_false, Bool.false_eq_true]
      push_cast
      ring

/-- A cycle serves every member exactly as often as its weight says, and ends
    where it began. -/
theorem Rounds.cycle {is : List ι} (h : Rounds s w x is x') (hw : ∀ j ∈ s, 0 < w j)
    (hx : ∀ j ∈ s, x j = 0) (hlen : (is.length : ℤ) = total s w) :
    ∀ j ∈ s, (is.count j : ℤ) = w j ∧ x' j = 0 := by
  have hbal := h.balanced hw (.of_zero hw hx)
  -- nobody is served more often than its weight
  have hle : ∀ j ∈ s, (is.count j : ℤ) ≤ w j := by
    intro j hj
    have hcredit := h.credit_eq j hj
    have hgt := hbal.gt_neg_total j hj
    have hpos := total_pos hw hj
    rw [hx j hj, hlen] at hcredit
    by_contra hmore
    have hmul : (w j + 1) * total s w ≤ is.count j * total s w := by
      apply Int.mul_le_mul_of_nonneg_right _ (le_of_lt hpos)
      omega
    linarith
  have hsum : ∑ j ∈ s, (is.count j : ℤ) = ∑ j ∈ s, w j := by
    -- the turns of all members make up the whole run
    have hcount := Multiset.sum_count_eq_card (m := (is : Multiset ι)) h.served_mem
    simp only [Multiset.coe_count, Multiset.coe_card] at hcount
    rw [← Nat.cast_sum, hcount, hlen]
    rfl
  have heq := (Finset.sum_eq_sum_iff_of_le hle).mp hsum
  intro j hj
  refine ⟨heq j hj, ?_⟩
  rw [h.credit_eq j hj, hx j hj, hlen, heq j hj]
  ring

/-! ## Changing membership -/

variable (s w)

/-- The credits of members that take turns in changing company: they add up to zero,
    and no group of members has got far ahead of the others. -/
structure Spread (x : ι → ℤ) : Prop where
  sum_eq_zero : ∑ j ∈ s, x j = 0
  sum_le : ∀ t ⊆ s, ∑ j ∈ t, x j ≤ total s w * (t.card * (s.card - t.card))

variable {s w} {h t : Finset ι}

omit [DecidableEq ι] in
theorem Spread.of_zero (hw : ∀ j ∈ s, 0 < w j) (hx : ∀ j ∈ s, x j = 0) : Spread s w x := by
  refine ⟨Finset.sum_eq_zero hx, fun t ht => ?_⟩
  rw [Finset.sum_eq_zero fun j hj => hx j (ht hj)]
  have htotal : 0 ≤ total s w := Finset.sum_nonneg fun j hj => (hw j hj).le
  have hcard : (t.card : ℤ) ≤ s.card := Int.ofNat_le.mpr (Finset.card_le_card ht)
  exact mul_nonneg htotal (mul_nonneg (Int.natCast_nonneg _) (by omega))

/-- The credits of a group after a round among the members `h`. -/
theorem Round.sum_group (hr : Round h w x i x') (hother : ∀ j ∉ h, x' j = x j) (t : Finset ι) :
    ∑ j ∈ t, x' j =
      ∑ j ∈ t, x j + ∑ j ∈ t ∩ h, w j - if i ∈ t then total h w else 0 := by
  have hcredit : ∀ j ∈ t, x' j =
      x j + (if j ∈ h then w j else 0) - if j = i then total h w else 0 := by
    intro j _
    by_cases hj : j ∈ h
    · rw [hr.credit j hj, if_pos hj]
    · have hne : j ≠ i := fun heq => hj (heq ▸ hr.mem)
      rw [hother j hj, if_neg hj, if_neg hne]
      ring
  rw [Finset.sum_congr rfl hcredit, Finset.sum_sub_distrib, Finset.sum_add_distrib,
    Finset.sum_ite_mem, Finset.sum_ite_eq' t i]

/-- A round among some of the members keeps the credits together. -/
theorem Round.spread (hr : Round h w x i x') (hother : ∀ j ∉ h, x' j = x j) (hsub : h ⊆ s)
    (hw : ∀ j ∈ s, 0 < w j) (hs : Spread s w x) : Spread s w x' := by
  have hpos : ∀ j ∈ h, 0 ≤ w j := fun j hj => (hw j (hsub hj)).le
  refine ⟨?_, fun t ht => ?_⟩
  · rw [hr.sum_group hother s, if_pos (hsub hr.mem), Finset.inter_eq_right.mpr hsub, hs.sum_eq_zero]
    simp [total]
  · rw [hr.sum_group hother t]
    by_cases hi : i ∈ t
    · -- the group paid at least as much as it gained
      have hgain : ∑ j ∈ t ∩ h, w j ≤ total h w :=
        Finset.sum_le_sum_of_subset_of_nonneg Finset.inter_subset_right fun j hj _ => hpos j hj
      have hle := hs.sum_le t ht
      rw [if_pos hi]
      omega
    · rw [if_neg hi, sub_zero]
      rcases (t ∩ h).eq_empty_or_nonempty with hempty | ⟨j, hj⟩
      · rw [hempty, Finset.sum_empty, add_zero]
        exact hs.sum_le t ht
      · -- a member `j` of the group lost to `i`: compare with the groups that have `i`
        -- in addition and that lack `j`
        obtain ⟨hjt, hjh⟩ := Finset.mem_inter.mp hj
        have hmore := hs.sum_le (insert i t) (Finset.insert_subset (hsub hr.mem) ht)
        have hless := hs.sum_le (t.erase j) ((Finset.erase_subset j t).trans ht)
        have hcard : ((t.erase j).card : ℤ) = t.card - 1 := by
          have := Finset.card_erase_add_one hjt
          omega
        rw [Finset.sum_insert hi, Finset.card_insert_of_notMem hi] at hmore
        rw [Finset.sum_erase_eq_sub hjt, hcard] at hless
        push_cast at hmore
        have hlost := hr.largest j hjh
        have hgain : ∑ k ∈ t ∩ h, w k + w i ≤ total s w := by
          have hnot : i ∉ t ∩ h := fun hc => hi (Finset.mem_inter.mp hc).1
          rw [add_comm, ← Finset.sum_insert hnot]
          refine Finset.sum_le_sum_of_subset_of_nonneg ?_ fun k hk _ => (hw k hk).le
          exact Finset.insert_subset (hsub hr.mem) (Finset.inter_subset_left.trans ht)
        have hring : total s w * ((t.card + 1) * (s.card - (t.card + 1))) +
            total s w * ((t.card - 1) * (s.card - (t.card - 1))) =
            2 * (total s w * (t.card * (s.card - t.card))) - 2 * total s w := by ring
        have hwi := hw i (hsub hr.mem)
        have hwj := hw j (hsub hjh)
        linarith

/-- No credit leaves the range of the total weight times the number of the others. -/
theorem Spread.credit_abs_le (hs : Spread s w x) (hi : i ∈ s) :
    |x i| ≤ total s w * (s.card - 1) := by
  rw [abs_le]
  constructor
  · -- the others together
    have hothers := hs.sum_le (s.erase i) (Finset.erase_subset i s)
    have hcard : ((s.erase i).card : ℤ) = s.card - 1 := by
      have := Finset.card_erase_add_one hi
      omega
    rw [Finset.sum_erase_eq_sub hi, hs.sum_eq_zero, hcard] at hothers
    linarith
  · have halone := hs.sum_le {i} (Finset.singleton_subset_iff.mpr hi)
    simpa using halone

end SmoothSchedule
