import HootLb.ForStd.SmoothSchedule
import HootLb.Spec.BalancerSound

/-!
# Weighted round robin is exactly proportional

`WeightedRoundRobin.Pick` is a round of a smooth schedule over the positions of
the eligible backends: the scan adds every candidate's weight to its current
weight and keeps the first largest one, which pays the weight of all candidates.
A single candidate is returned without touching the weights, which is the same
round, since it would pay exactly what it gained.

## Key results

- `pick_round`: one `Pick` is one round
- `picks_cycle`: a whole cycle of picks from zero weights ends at zero weights
- `smooth_wrr_proportional`: every block of consecutive picks as long as the
  total weight returns every eligible backend as often as its weight says
-/

namespace HootLb.Balancer

open SmoothSchedule

variable {ρ : Type}

/-! ## Positions of the eligible backends -/

/-- The positions of the eligible backends, in order. -/
def eligibleIdx (deref : ρ → Server) (backends : List ρ) : List Nat :=
  (backends.zipIdx.filter fun p => (deref p.1).eligible).map (·.2)

/-- The weight of the backend at a position. -/
def weightAt (deref : ρ → Server) (backends : List ρ) (j : Nat) : Int :=
  (backends[j]?.map fun b => (deref b).weight).getD 0

/-- The total weight of the eligible backends. -/
def eligibleWeight (deref : ρ → Server) (backends : List ρ) : Int :=
  ((backends.filter fun b => (deref b).eligible).map fun b => (deref b).weight).sum

theorem mem_eligibleIdx (deref : ρ → Server) (backends : List ρ) (j : Nat) :
    j ∈ eligibleIdx deref backends ↔ ∃ b, backends[j]? = some b ∧ (deref b).eligible := by
  simp only [eligibleIdx, List.mem_map, List.mem_filter]
  constructor
  · intro h
    obtain ⟨⟨b, i⟩, ⟨hmem, helig⟩, rfl⟩ := h
    exact ⟨b, List.mem_zipIdx_iff_getElem?.mp hmem, helig⟩
  · intro h
    obtain ⟨b, hb, helig⟩ := h
    exact ⟨(b, j), ⟨List.mem_zipIdx_iff_getElem?.mpr hb, helig⟩, rfl⟩

theorem eligibleIdx_lt (deref : ρ → Server) (backends : List ρ) (j : Nat)
    (h : j ∈ eligibleIdx deref backends) : j < backends.length := by
  obtain ⟨b, hb, -⟩ := (mem_eligibleIdx deref backends j).mp h
  exact (List.getElem?_eq_some_iff.mp hb).1

theorem eligibleIdx_nodup (deref : ρ → Server) (backends : List ρ) :
    (eligibleIdx deref backends).Nodup := by
  have hsub : (eligibleIdx deref backends).Sublist (backends.zipIdx.map (·.2)) :=
    List.Sublist.map _ List.filter_sublist
  apply hsub.nodup
  rw [List.zipIdx_map_snd]
  exact List.nodup_range'

/-- The candidates of a `Pick`. -/
theorem healthy_eq (deref : ρ → Server) (w : WeightedRoundRobin ρ) :
    w.healthy deref =
      (eligibleIdx deref w.backends).map fun j => (j, weightAt deref w.backends j) := by
  unfold WeightedRoundRobin.healthy eligibleIdx
  rw [List.map_map]
  apply List.map_congr_left
  intro p hp
  have hget := List.mem_zipIdx_iff_getElem?.mp (List.mem_filter.mp hp).1
  simp [weightAt, hget]

/-! ## The scan -/

/-- The scan adds every candidate's weight once. -/
theorem scan_weights (wt : Nat → Int) (js : List Nat) (hnd : js.Nodup) (weights : List Int)
    (hlt : ∀ j ∈ js, j < weights.length) (best : Option (Nat × Int)) (k : Nat) :
    (WeightedRoundRobin.scan weights best (js.map fun j => (j, wt j))).1.getD k 0 =
      weights.getD k 0 + if k ∈ js then wt k else 0 := by
  induction js generalizing weights best with
  | nil => simp [WeightedRoundRobin.scan]
  | cons j rest ih =>
    obtain ⟨hj, hrest⟩ := List.nodup_cons.mp hnd
    have hjlt : j < weights.length := hlt j List.mem_cons_self
    have hlt' : ∀ i ∈ rest, i < (weights.set j (weights.getD j 0 + wt j)).length := by
      intro i hi
      rw [List.length_set]
      exact hlt i (List.mem_cons_of_mem j hi)
    -- whatever becomes of the best so far, the weights go on from the same list
    have hstep : ∀ best', (WeightedRoundRobin.scan (weights.set j (weights.getD j 0 + wt j)) best'
        (rest.map fun j => (j, wt j))).1.getD k 0 =
        weights.getD k 0 + if k ∈ j :: rest then wt k else 0 := by
      intro best'
      rw [ih hrest _ hlt' best']
      by_cases hkj : k = j
      · subst hkj
        simp [List.getD_eq_getElem?_getD, hjlt, hj]
      · have hne : j ≠ k := Ne.symm hkj
        simp [List.getD_eq_getElem?_getD, hne, hkj]
    cases best with
    | none => exact hstep _
    | some b => exact hstep _

theorem scan_length (cs : List (Nat × Int)) (weights : List Int) (best : Option (Nat × Int)) :
    (WeightedRoundRobin.scan weights best cs).1.length = weights.length := by
  induction cs generalizing weights best with
  | nil => rfl
  | cons c rest ih =>
    cases best with
    | none => exact (ih _ _).trans List.length_set
    | some b => exact (ih _ _).trans List.length_set

/-- The winner of the scan is one of the candidates, or the best it started with,
    and no candidate's grown weight is larger. -/
theorem scan_winner (wt : Nat → Int) (js : List Nat) (hnd : js.Nodup) (weights : List Int)
    (hlt : ∀ j ∈ js, j < weights.length) (best : Option (Nat × Int)) (i : Nat) (v : Int)
    (h : (WeightedRoundRobin.scan weights best (js.map fun j => (j, wt j))).2 = some (i, v)) :
    (best = some (i, v) ∨ i ∈ js ∧ v = weights.getD i 0 + wt i) ∧
      (∀ j ∈ js, weights.getD j 0 + wt j ≤ v) ∧ ∀ b, best = some b → b.2 ≤ v := by
  induction js generalizing weights best with
  | nil =>
    simp only [List.map_nil, WeightedRoundRobin.scan] at h
    subst h
    simp
  | cons j rest ih =>
    obtain ⟨hj, hrest⟩ := List.nodup_cons.mp hnd
    have hlt' : ∀ k ∈ rest, k < (weights.set j (weights.getD j 0 + wt j)).length := by
      intro k hk
      rw [List.length_set]
      exact hlt k (List.mem_cons_of_mem j hk)
    -- the later candidates still have the weights they started with
    have hsame : ∀ k ∈ rest,
        (weights.set j (weights.getD j 0 + wt j)).getD k 0 = weights.getD k 0 := by
      intro k hk
      have hne : j ≠ k := fun heq => hj (heq ▸ hk)
      simp [List.getD_eq_getElem?_getD, hne]
    have hstep : ∀ best', (WeightedRoundRobin.scan (weights.set j (weights.getD j 0 + wt j)) best'
        (rest.map fun j => (j, wt j))).2 = some (i, v) →
        (best' = some (i, v) ∨ i ∈ rest ∧ v = weights.getD i 0 + wt i) ∧
          (∀ k ∈ rest, weights.getD k 0 + wt k ≤ v) ∧ ∀ b, best' = some b → b.2 ≤ v := by
      intro best' hbest'
      obtain ⟨hwin, hmax, hstart⟩ := ih hrest _ hlt' best' hbest'
      refine ⟨?_, ?_, hstart⟩
      · rcases hwin with hwin | ⟨hi, hv⟩
        · exact .inl hwin
        · exact .inr ⟨hi, by rw [hv, hsame i hi]⟩
      · intro k hk
        have hk' := hmax k hk
        rwa [hsame k hk] at hk'
    cases best with
    | none =>
      obtain ⟨hwin, hmax, hstart⟩ := hstep _ h
      have hjv : weights.getD j 0 + wt j ≤ v := hstart _ rfl
      refine ⟨.inr ?_, List.forall_mem_cons.mpr ⟨hjv, hmax⟩, fun b hb => by cases hb⟩
      rcases hwin with hwin | ⟨hi, hv⟩
      · cases hwin
        exact ⟨List.mem_cons_self, rfl⟩
      · exact ⟨List.mem_cons_of_mem j hi, hv⟩
    | some b =>
      obtain ⟨hwin, hmax, hstart⟩ := hstep _ h
      -- the best after this candidate is the larger of the two
      have hboth : weights.getD j 0 + wt j ≤ v ∧ b.2 ≤ v := by
        split at hstart
        · have := hstart _ rfl
          dsimp only at this
          omega
        · have := hstart _ rfl
          dsimp only at this
          omega
      refine ⟨?_, List.forall_mem_cons.mpr ⟨hboth.1, hmax⟩, fun b' hb' => ?_⟩
      · rcases hwin with hwin | ⟨hi, hv⟩
        · split at hwin
          · cases hwin
            exact .inr ⟨List.mem_cons_self, rfl⟩
          · exact .inl hwin
        · exact .inr ⟨List.mem_cons_of_mem j hi, hv⟩
      · cases hb'
        exact hboth.2

/-! ## One pick -/

/-- The current weight at a position. -/
def WeightedRoundRobin.credit (w : WeightedRoundRobin ρ) (j : Nat) : Int :=
  w.currentWeights.getD j 0

/-- What a `Pick` that settles on a position returns. -/
def selectAt (backends : List ρ) (i : Nat) : PickResult ρ :=
  match backends[i]? with
  | some b => .ok b
  | none => .panic

/-- The positions that take turns. -/
def members (deref : ρ → Server) (backends : List ρ) : Finset Nat :=
  (eligibleIdx deref backends).toFinset

theorem sum_healthy (deref : ρ → Server) (w : WeightedRoundRobin ρ) :
    ((w.healthy deref).map (·.2)).sum =
      total (members deref w.backends) (weightAt deref w.backends) := by
  rw [healthy_eq, List.map_map]
  exact (List.sum_toFinset _ (eligibleIdx_nodup deref w.backends)).symm

/-- The winner pays, and the others keep what they have. -/
theorem getD_set_sub (weights : List Int) {i : Nat} (hi : i < weights.length) (pay : Int)
    (k : Nat) :
    (weights.set i (weights.getD i 0 - pay)).getD k 0 =
      weights.getD k 0 - if k = i then pay else 0 := by
  by_cases hki : k = i
  · subst hki
    rw [if_pos rfl]
    simp [List.getD_eq_getElem?_getD, hi]
  · have hik : i ≠ k := Ne.symm hki
    rw [if_neg hki]
    simp [List.getD_eq_getElem?_getD, hik]

/-- One `Pick` is one round over the eligible positions, and leaves every other
    weight alone. -/
theorem pick_round (deref : ρ → Server) (w : WeightedRoundRobin ρ)
    (hlen : w.currentWeights.length = w.backends.length)
    (hne : eligibleIdx deref w.backends ≠ []) :
    ∃ i, (w.pick deref).1 = selectAt w.backends i ∧
      Round (members deref w.backends) (weightAt deref w.backends) w.credit i
        (w.pick deref).2.credit ∧
      (∀ j ∉ members deref w.backends, (w.pick deref).2.credit j = w.credit j) ∧
      (w.pick deref).2.currentWeights.length = w.currentWeights.length ∧
      (w.pick deref).2.backends = w.backends ∧
      (w.pick deref).2.totalWeight = w.totalWeight := by
  have hnonempty : w.backends.length ≠ 0 := by
    intro hzero
    have hnil := List.length_eq_zero_iff.mp hzero
    rw [hnil] at hne
    exact hne rfl
  have hsum := sum_healthy deref w
  have hcands := healthy_eq deref w
  have hmem : ∀ j, j ∈ members deref w.backends ↔ j ∈ eligibleIdx deref w.backends :=
    fun j => List.mem_toFinset
  unfold WeightedRoundRobin.pick
  rw [if_neg hnonempty]
  dsimp only
  split
  · rename_i hnil
    rw [hcands] at hnil
    exact absurd (List.map_eq_nil_iff.mp hnil) hne
  · rename_i c hc
    obtain ⟨j, hj, hcj⟩ := List.map_eq_singleton_iff.mp (hcands.symm.trans hc)
    have hone : members deref w.backends = {j} := by
      unfold members
      rw [hj]
      rfl
    refine ⟨j, by rw [← hcj]; rfl, ?_, fun _ _ => rfl, rfl, rfl, rfl⟩
    rw [hone]
    exact .singleton _ _ j
  · rename_i hc _
    have hnd := eligibleIdx_nodup deref w.backends
    have hlt : ∀ j ∈ eligibleIdx deref w.backends, j < w.currentWeights.length := by
      intro j hj
      rw [hlen]
      exact eligibleIdx_lt deref w.backends j hj
    obtain ⟨⟨i, v⟩, hbest⟩ := Option.isSome_iff_exists.mp
      (scan_best_isSome w.currentWeights none (w.healthy deref) (.inr hc))
    have hgrown := scan_weights (weightAt deref w.backends) _ hnd w.currentWeights hlt none
    have hlength := scan_length (w.healthy deref) w.currentWeights none
    rw [hsum]
    rw [hcands] at hbest hlength ⊢
    obtain ⟨hwin, hmax, -⟩ := scan_winner _ _ hnd w.currentWeights hlt none i v hbest
    have hi : i ∈ eligibleIdx deref w.backends := by
      rcases hwin with hwin | hwin
      · cases hwin
      · exact hwin.1
    have hv : v = w.currentWeights.getD i 0 + weightAt deref w.backends i := by
      rcases hwin with hwin | hwin
      · cases hwin
      · exact hwin.2
    have hilt := hlt i hi
    simp only [hbest, Option.map_some, Option.getD_some]
    generalize hscan : (WeightedRoundRobin.scan w.currentWeights none
      ((eligibleIdx deref w.backends).map fun j => (j, weightAt deref w.backends j))).1 = grown
      at hgrown hlength ⊢
    have hafter := getD_set_sub grown (by omega : i < grown.length)
      (total (members deref w.backends) (weightAt deref w.backends))
    refine ⟨i, rfl, ⟨(hmem i).mpr hi, ?_, ?_⟩, ?_, ?_, trivial, trivial⟩
    · intro j hj
      have hle := hmax j ((hmem j).mp hj)
      rw [hv] at hle
      exact hle
    · intro j hj
      simp only [WeightedRoundRobin.credit]
      rw [hafter j, hgrown j, if_pos ((hmem j).mp hj)]
    · intro j hj
      have hji : j ≠ i := by
        intro heq
        subst heq
        exact hj ((hmem j).mpr hi)
      have hnot : j ∉ eligibleIdx deref w.backends := fun h => hj ((hmem j).mpr h)
      simp only [WeightedRoundRobin.credit]
      rw [hafter j, hgrown j, if_neg hnot, if_neg hji]
      ring
    · rw [List.length_set, hlength]

/-! ## Consecutive picks -/

/-- `n` calls of `Pick` one after another. -/
def WeightedRoundRobin.picks (deref : ρ → Server) :
    Nat → WeightedRoundRobin ρ → List (PickResult ρ) × WeightedRoundRobin ρ
  | 0, w => ([], w)
  | n + 1, w =>
    let rest := picks deref n (w.pick deref).2
    ((w.pick deref).1 :: rest.1, rest.2)

theorem picks_add (deref : ρ → Server) (m n : Nat) (w : WeightedRoundRobin ρ) :
    w.picks deref (m + n) =
      ((w.picks deref m).1 ++ ((w.picks deref m).2.picks deref n).1,
        ((w.picks deref m).2.picks deref n).2) := by
  induction m generalizing w with
  | zero => simp [WeightedRoundRobin.picks]
  | succ m ih =>
    rw [Nat.succ_add]
    simp only [WeightedRoundRobin.picks, ih, List.cons_append]

/-- Consecutive picks are consecutive rounds. -/
theorem picks_rounds (deref : ρ → Server) (n : Nat) (w : WeightedRoundRobin ρ)
    (hlen : w.currentWeights.length = w.backends.length)
    (hne : eligibleIdx deref w.backends ≠ []) :
    ∃ is, is.length = n ∧ (w.picks deref n).1 = is.map (selectAt w.backends) ∧
      Rounds (members deref w.backends) (weightAt deref w.backends) w.credit is
        (w.picks deref n).2.credit ∧
      (∀ j ∉ members deref w.backends, (w.picks deref n).2.credit j = w.credit j) ∧
      (w.picks deref n).2.currentWeights.length = w.currentWeights.length ∧
      (w.picks deref n).2.backends = w.backends ∧
      (w.picks deref n).2.totalWeight = w.totalWeight := by
  induction n generalizing w with
  | zero => exact ⟨[], rfl, rfl, .nil _, fun _ _ => rfl, rfl, rfl, rfl⟩
  | succ n ih =>
    obtain ⟨i, hres, hround, hother, hlength, hback, htotal⟩ := pick_round deref w hlen hne
    obtain ⟨is, hn, hress, hrounds, hothers, hlengths, hbacks, htotals⟩ :=
      ih (w.pick deref).2 (by rw [hlength, hback, hlen]) (by rw [hback]; exact hne)
    rw [hback] at hress hrounds hothers hbacks
    refine ⟨i :: is, by simp [hn], ?_, .cons hround hrounds, ?_, ?_, ?_, ?_⟩
    · simp only [WeightedRoundRobin.picks, hres, hress, List.map_cons]
    · intro j hj
      exact (hothers j hj).trans (hother j hj)
    · exact hlengths.trans hlength
    · exact hbacks
    · exact htotals.trans htotal

/-! ## Counting what was returned -/

theorem eligibleWeight_eq_total (deref : ρ → Server) (backends : List ρ) :
    eligibleWeight deref backends = total (members deref backends) (weightAt deref backends) := by
  have hsum := sum_healthy deref (newWeightedRoundRobin deref backends)
  simp only [newWeightedRoundRobin] at hsum
  rw [← hsum]
  unfold eligibleWeight WeightedRoundRobin.healthy
  conv_lhs => rw [← List.zipIdx_map_fst 0 backends]
  rw [List.filter_map, List.map_map, List.map_map]
  rfl

theorem selectAt_eq_ok (backends : List ρ) (j : Nat) (b : ρ) :
    selectAt backends j = .ok b ↔ backends[j]? = some b := by
  unfold selectAt
  cases backends[j]? <;> simp

/-- Only eligible positions are ever settled on. -/
theorem selectAt_of_mem (deref : ρ → Server) (backends : List ρ) (j : Nat)
    (h : j ∈ members deref backends) :
    ∃ b ∈ backends, (deref b).eligible ∧ selectAt backends j = .ok b := by
  obtain ⟨b, hb, helig⟩ := (mem_eligibleIdx deref backends j).mp (List.mem_toFinset.mp h)
  exact ⟨b, List.mem_of_getElem? hb, helig, (selectAt_eq_ok backends j b).mpr hb⟩

section Count

variable [DecidableEq ρ]

/-- How often a backend is returned, position by position. -/
theorem count_selectAt (backends : List ρ) (S : Finset Nat) (is : List Nat)
    (h : ∀ i ∈ is, i ∈ S) (b : ρ) :
    (is.map (selectAt backends)).count (.ok b) =
      ∑ j ∈ S, if backends[j]? = some b then is.count j else 0 := by
  induction is with
  | nil => simp
  | cons i rest ih =>
    have hi : i ∈ S := h i List.mem_cons_self
    have hrest := ih fun k hk => h k (List.mem_cons_of_mem i hk)
    -- the first pick counts once, at its own position
    have hsplit : ∀ j ∈ S, (if backends[j]? = some b then (i :: rest).count j else 0) =
        (if backends[j]? = some b then rest.count j else 0) +
          if i = j then (if backends[i]? = some b then 1 else 0) else 0 := by
      intro j _
      rw [List.count_cons]
      by_cases hij : i = j
      · subst hij
        by_cases hb : backends[i]? = some b <;> simp [hb]
      · simp [hij]
    rw [List.map_cons, List.count_cons, hrest, Finset.sum_congr rfl hsplit,
      Finset.sum_add_distrib, Finset.sum_ite_eq S i, if_pos hi]
    simp only [beq_iff_eq, selectAt_eq_ok]

/-- Adding up over the positions of a backend. -/
theorem sum_positions (backends : List ρ) (b : ρ) (c : ℤ) :
    ∑ j ∈ Finset.range backends.length, (if backends[j]? = some b then c else 0) =
      backends.count b * c := by
  induction backends with
  | nil => simp
  | cons a rest ih =>
    rw [List.length_cons, Finset.sum_range_succ']
    simp only [List.getElem?_cons_succ, List.getElem?_cons_zero, Option.some.injEq]
    rw [ih, List.count_cons]
    by_cases hab : a = b
    · subst hab
      simp
      ring
    · simp [hab]

/-- Turns proportional to the weights return an eligible backend as often as the
    weights of its positions say. -/
theorem count_of_turns (deref : ρ → Server) (backends : List ρ) (is : List Nat)
    (hmem : ∀ i ∈ is, i ∈ members deref backends)
    (hturns : ∀ j ∈ members deref backends, (is.count j : ℤ) = weightAt deref backends j)
    (b : ρ) (hb : (deref b).eligible) :
    ((is.map (selectAt backends)).count (.ok b) : ℤ) = backends.count b * (deref b).weight := by
  have hsub : members deref backends ⊆ Finset.range backends.length := by
    intro j hj
    exact Finset.mem_range.mpr (eligibleIdx_lt deref backends j (List.mem_toFinset.mp hj))
  have hturn : ∀ j ∈ members deref backends,
      (if backends[j]? = some b then (is.count j : ℤ) else 0) =
        if backends[j]? = some b then (deref b).weight else 0 := by
    intro j hj
    by_cases hjb : backends[j]? = some b
    · rw [if_pos hjb, if_pos hjb, hturns j hj]
      simp [weightAt, hjb]
    · rw [if_neg hjb, if_neg hjb]
  -- every position of an eligible backend is among the members
  have houtside : ∀ j ∈ Finset.range backends.length, j ∉ members deref backends →
      (if backends[j]? = some b then (deref b).weight else 0) = 0 := by
    intro j _ hj
    apply if_neg
    intro hjb
    exact hj (List.mem_toFinset.mpr ((mem_eligibleIdx deref backends j).mpr ⟨b, hjb, hb⟩))
  rw [count_selectAt backends (members deref backends) is hmem b]
  push_cast
  rw [Finset.sum_congr rfl hturn, Finset.sum_subset hsub houtside, sum_positions]

end Count

/-! ## Cycles -/

/-- All current weights are zero. -/
private theorem weights_eq_zero (weights : List Int) (backends : List ρ)
    (hlen : weights.length = backends.length) (h : ∀ j, weights.getD j 0 = 0) :
    weights = backends.map fun _ => 0 := by
  rw [List.map_const', ← hlen, List.eq_replicate_iff]
  refine ⟨rfl, fun c hc => ?_⟩
  obtain ⟨j, hj⟩ := List.getElem?_of_mem hc
  have hzero := h j
  rwa [List.getD_eq_getElem?_getD, hj, Option.getD_some] at hzero

/-- A new balancer owes nothing to any backend. -/
@[simp] theorem newWeightedRoundRobin_credit (deref : ρ → Server) (backends : List ρ) (j : Nat) :
    (newWeightedRoundRobin deref backends).credit j = 0 := by
  simp only [WeightedRoundRobin.credit, newWeightedRoundRobin]
  rw [List.getD_eq_getElem?_getD, List.getElem?_map]
  cases backends[j]? <;> rfl

theorem eligibleIdx_ne_nil {deref : ρ → Server} {backends : List ρ}
    (h : ∃ b ∈ backends, (deref b).eligible) : eligibleIdx deref backends ≠ [] := by
  obtain ⟨b, hb, helig⟩ := h
  obtain ⟨j, hj⟩ := List.getElem?_of_mem hb
  exact List.ne_nil_of_mem ((mem_eligibleIdx deref backends j).mpr ⟨b, hj, helig⟩)

theorem weightAt_pos_of_member {deref : ρ → Server} {backends : List ρ}
    (hpos : ∀ b ∈ backends, 0 < (deref b).weight) :
    ∀ j ∈ members deref backends, 0 < weightAt deref backends j := by
  intro j hj
  obtain ⟨b, hb, -⟩ := (mem_eligibleIdx deref backends j).mp (List.mem_toFinset.mp hj)
  simp only [weightAt, hb, Option.map_some, Option.getD_some]
  exact hpos b (List.mem_of_getElem? hb)

/-- As many picks as the total weight, from the state the constructor makes: the
    turns are the weights, and the state is that of the constructor again. -/
theorem picks_cycle (deref : ρ → Server) (backends : List ρ)
    (hpos : ∀ b ∈ backends, 0 < (deref b).weight) (hsome : ∃ b ∈ backends, (deref b).eligible) :
    let w₀ := newWeightedRoundRobin deref backends
    let W := (eligibleWeight deref backends).toNat
    (w₀.picks deref W).2 = w₀ ∧
      ∃ is : List Nat, (w₀.picks deref W).1 = is.map (selectAt backends) ∧
        (∀ i ∈ is, i ∈ members deref backends) ∧
        ∀ j ∈ members deref backends, (is.count j : ℤ) = weightAt deref backends j := by
  intro w₀ W
  have hback : w₀.backends = backends := rfl
  have hw := weightAt_pos_of_member hpos
  have hzero : ∀ j, w₀.credit j = 0 := newWeightedRoundRobin_credit deref backends
  obtain ⟨is, hlen, hres, hrounds, hother, hlength, hbacks, htotals⟩ :=
    picks_rounds deref W w₀ (by simp [w₀, newWeightedRoundRobin]) (eligibleIdx_ne_nil hsome)
  rw [hback] at hres hrounds hother hbacks
  have hW : (is.length : ℤ) = total (members deref backends) (weightAt deref backends) := by
    have hnonneg : 0 ≤ eligibleWeight deref backends := by
      rw [eligibleWeight_eq_total]
      exact Finset.sum_nonneg fun j hj => le_of_lt (hw j hj)
    rw [hlen, ← eligibleWeight_eq_total]
    exact Int.toNat_of_nonneg hnonneg
  have hcycle := hrounds.cycle hw (fun j _ => hzero j) hW
  -- after a cycle no backend is owed anything, and the others never were
  have hweights : (w₀.picks deref W).2.currentWeights = w₀.currentWeights := by
    apply weights_eq_zero
    · rw [hlength]
      simp [w₀, newWeightedRoundRobin]
    · intro j
      by_cases hj : j ∈ members deref backends
      · exact (hcycle j hj).2
      · exact (hother j hj).trans (hzero j)
  refine ⟨?_, is, hres, hrounds.served_mem, fun j hj => (hcycle j hj).1⟩
  -- the balancer is the one at the beginning, field by field
  generalize (w₀.picks deref W).2 = w at hbacks hweights htotals
  obtain ⟨wb, wc, wt⟩ := w
  dsimp only at hbacks hweights htotals
  rw [hbacks, hweights, htotals]
  rfl

/-- From the constructor's state, or that of `UpdateBackends`, with the same
    backends eligible throughout: among any `W` consecutive picks, `W` being the
    eligible backends' total weight, every eligible backend is returned exactly as
    often as its weight says (a backend listed several times, that often at each
    of its positions), nothing else is returned, and after each block of `W` picks
    all current weights are zero again. -/
theorem smooth_wrr_proportional [DecidableEq ρ] (deref : ρ → Server) (backends : List ρ)
    (hpos : ∀ b ∈ backends, 0 < (deref b).weight) (hsome : ∃ b ∈ backends, (deref b).eligible)
    (w₀ : WeightedRoundRobin ρ)
    (hw₀ : w₀ = newWeightedRoundRobin deref backends ∨
      ∃ old : WeightedRoundRobin ρ, w₀ = old.updateBackends deref backends) (m : Nat) :
    let W := (eligibleWeight deref backends).toNat
    let block := (w₀.picks deref m).2.picks deref W
    (∀ b ∈ backends, (deref b).eligible →
      (block.1.count (.ok b) : ℤ) = backends.count b * (deref b).weight) ∧
    (∀ r ∈ block.1, ∃ b ∈ backends, (deref b).eligible ∧ r = .ok b) ∧
    (W ∣ m → ∀ c ∈ block.2.currentWeights, c = 0) := by
  intro W block
  have hnew : w₀ = newWeightedRoundRobin deref backends := by
    rcases hw₀ with h | ⟨old, h⟩
    · exact h
    · exact h
  obtain ⟨hcycle, is, hturn, hmem, hturns⟩ := picks_cycle deref backends hpos hsome
  rw [← hnew] at hcycle hturn
  have hback : (w₀.picks deref W).2 = w₀ := hcycle
  have hres : (w₀.picks deref W).1 = is.map (selectAt backends) := hturn
  have hleft : (w₀.picks deref (m + W)).1 = (w₀.picks deref m).1 ++ block.1 := by
    rw [picks_add]
  have hright : (w₀.picks deref (W + m)).1 = (w₀.picks deref W).1 ++ (w₀.picks deref m).1 := by
    rw [picks_add, hback]
  -- a block after `m` picks holds the same picks as the first block, in some order
  have hperm : ((w₀.picks deref m).1 ++ block.1).Perm
      ((w₀.picks deref W).1 ++ (w₀.picks deref m).1) := by
    rw [← hleft, ← hright, Nat.add_comm]
  have hblock : block.1.Perm (w₀.picks deref W).1 := by
    have hswap := hperm.trans List.perm_append_comm
    exact (List.perm_append_left_iff _).mp hswap
  refine ⟨?_, ?_, ?_⟩
  · intro b _ hb
    rw [hblock.count_eq, hres]
    exact count_of_turns deref backends is hmem hturns b hb
  · intro r hr
    have hr' : r ∈ is.map (selectAt backends) := hres ▸ hblock.mem_iff.mp hr
    obtain ⟨i, hi, hir⟩ := List.mem_map.mp hr'
    obtain ⟨b, hb, helig, hsel⟩ := selectAt_of_mem deref backends i (hmem i hi)
    exact ⟨b, hb, helig, hir.symm.trans hsel⟩
  · intro hdvd
    obtain ⟨k, hk⟩ := hdvd
    have hstay : ∀ k, (w₀.picks deref (W * k)).2 = w₀ := by
      intro k
      induction k with
      | zero => rfl
      | succ k ih =>
        rw [Nat.mul_succ, picks_add]
        dsimp only
        rw [ih, hback]
    have hend : block.2 = w₀ := by
      simp only [block]
      rw [hk, hstay k, hback]
    intro c hc
    rw [hend, hnew] at hc
    obtain ⟨b, -, hzero⟩ := List.mem_map.mp hc
    exact hzero.symm

/-- Three backends of weight 5, 1 and 1, all eligible. -/
def fiveOneOne : Nat → Server
  | 0 => newServer "10.0.0.1:8080" 5
  | n => newServer ("10.0.0." ++ toString (n + 1) ++ ":8080") 1

/-- Seven picks after the first two: five of the heavy backend, one of each light
    one. -/
theorem smooth_wrr_five_one_one :
    let block := ((newWeightedRoundRobin fiveOneOne [0, 1, 2]).picks fiveOneOne 2).2.picks
      fiveOneOne (eligibleWeight fiveOneOne [0, 1, 2]).toNat
    (block.1.count (.ok 0) : ℤ) = 5 ∧ (block.1.count (.ok 1) : ℤ) = 1 := by
  have h := smooth_wrr_proportional fiveOneOne [0, 1, 2] (by decide) ⟨0, by decide, by decide⟩ _
    (.inl rfl) 2
  exact ⟨h.1 0 (by decide) (by decide), h.1 1 (by decide) (by decide)⟩

end HootLb.Balancer
