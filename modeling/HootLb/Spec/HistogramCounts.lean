import HootLb.ForStd.List
import HootLb.ForStd.Tally
import HootLb.Native.Exposition

/-!
# Cumulative counts

A histogram counts an observation at the first boundary that is not below it. Added
up along the sorted boundaries, the counts are those of the observations up to each
boundary, whatever order the boundaries were given in and however often one of them
occurs.

## Key results

- `searchFloat64s_le_iff`: where an observation is counted
- `counts_observeAll`: the counts after any observations
- `histogram_cumulative`: what is written for the boundaries, for `+Inf` and as the
  number of observations
-/

namespace HootLb.Metrics

/-! ## Running totals -/

theorem length_accumulate (cumSum : Nat) (l : List Nat) :
    (accumulate cumSum l).length = l.length := by
  induction l generalizing cumSum with
  | nil => rfl
  | cons c rest ih => rw [accumulate, List.length_cons, ih, List.length_cons]

/-- A running total is the sum up to its place. -/
theorem getElem?_accumulate (cumSum : Nat) (l : List Nat) (i : Nat) (hi : i < l.length) :
    (accumulate cumSum l)[i]? = some (cumSum + (l.take (i + 1)).sum) := by
  induction l generalizing cumSum i with
  | nil => exact absurd hi (by simp)
  | cons c rest ih =>
    cases i with
    | zero => simp [accumulate]
    | succ i =>
      rw [accumulate, List.getElem?_cons_succ, ih (cumSum + c) i (by simpa using hi),
        List.take_succ_cons, List.sum_cons, Nat.add_assoc]

/-! ## One observation -/

variable {β : Type} [LinearOrder β]

/-- A boundary that is not below an observation is followed by others like it. -/
theorem passes_mono {bs : List β} (hs : bs.Pairwise (· ≤ ·)) (x : β) (a b : Nat) (hab : a ≤ b)
    (hb : b < bs.length) (hpass : ((bs[a]?).any fun y => decide (x ≤ y)) = true) :
    ((bs[b]?).any fun y => decide (x ≤ y)) = true := by
  have ha : a < bs.length := by omega
  simp only [List.getElem?_eq_getElem ha, List.getElem?_eq_getElem hb, Option.any_some,
    decide_eq_true_eq] at hpass ⊢
  rcases Nat.lt_or_eq_of_le hab with hlt | rfl
  · exact le_trans hpass (List.pairwise_iff_getElem.mp hs a b ha hb hlt)
  · exact hpass

/-- An observation is counted at a boundary or before it exactly if it is not
    greater. -/
theorem searchFloat64s_le_iff {bs : List β} (hs : bs.Pairwise (· ≤ ·)) (x : β) {i : Nat}
    (hi : i < bs.length) : searchFloat64s bs x ≤ i ↔ x ≤ bs[i] := by
  rw [searchFloat64s, Search.search_le_iff (passes_mono hs x) hi, List.getElem?_eq_getElem hi,
    Option.any_some, decide_eq_true_eq]

/-- What is greater than every boundary is counted after the last. -/
theorem searchFloat64s_le_length {bs : List β} (hs : bs.Pairwise (· ≤ ·)) (x : β) :
    searchFloat64s bs x ≤ bs.length :=
  (Search.splits_search (passes_mono hs x)).le

/-- How many observations are counted at each place. -/
def tally (bs xs : List β) : List Nat := Tally.tally (searchFloat64s bs) (bs.length + 1) xs

/-! ## Any observations -/

/-- The histogram after a list of observations. -/
def Histogram.observeAll (nanos : β → Int) (h : Histogram β) (xs : List β) : Histogram β :=
  xs.foldl (Histogram.observe nanos) h

/-- The counts of the observations so far. -/
theorem counts_observeAll (nanos : β → Int) (buckets xs : List β) :
    ((newHistogram buckets).observeAll nanos xs).buckets = (newHistogram buckets).buckets ∧
      ((newHistogram buckets).observeAll nanos xs).count = xs.length ∧
      ((newHistogram buckets).observeAll nanos xs).counts =
        tally (newHistogram buckets).buckets xs := by
  have hrun := List.foldl_history (Histogram.observe nanos)
    (fun h past => h.buckets = (newHistogram buckets).buckets ∧ h.count = past.length ∧
      h.counts = tally (newHistogram buckets).buckets past) ?_ (newHistogram buckets) [] xs ?_
  · exact hrun
  · intro h past x hpast
    obtain ⟨hbuckets, hcount, hcounts⟩ := hpast
    refine ⟨hbuckets, ?_, ?_⟩
    · simp [Histogram.observe, hcount]
    · rw [tally, Tally.tally_concat, ← tally, ← hcounts, ← hbuckets]
      rfl
  · exact ⟨rfl, rfl, (Tally.tally_nil _ _).symm⟩

/-- The running totals over the places of the boundaries. -/
theorem getElem?_accumulate_tally (bs xs : List β) {i : Nat} (hi : i < bs.length + 1) :
    (accumulate 0 (tally bs xs))[i]? = some (xs.countP fun x => searchFloat64s bs x < i + 1) := by
  have hlen : (tally bs xs).length = bs.length + 1 := Tally.length_tally _ _ _
  rw [getElem?_accumulate 0 _ i (by omega), Nat.zero_add, tally, Tally.take_tally _ (by omega),
    Tally.sum_tally]

/-- What is written for the boundaries. -/
theorem zip_accumulate_tally {bs : List β} (hs : bs.Pairwise (· ≤ ·)) (xs : List β) :
    bs.zip (accumulate 0 (tally bs xs)) = bs.map fun b => (b, xs.countP fun x => x ≤ b) := by
  have hlen : (accumulate 0 (tally bs xs)).length = bs.length + 1 := by
    simp [length_accumulate, tally]
  apply List.ext_getElem
  · rw [List.length_zip, List.length_map, hlen]
    omega
  · intro i hi hi'
    have hib : i < bs.length := by simpa using hi'
    have htotal := getElem?_accumulate_tally bs xs (show i < bs.length + 1 by omega)
    rw [List.getElem?_eq_getElem (by omega), Option.some_inj] at htotal
    rw [List.getElem_zip, List.getElem_map, htotal]
    -- counted at this boundary or before it is the same as not above it
    have hcount : (xs.countP fun x => decide (searchFloat64s bs x < i + 1)) =
        xs.countP fun x => decide (x ≤ bs[i]) := by
      apply List.countP_congr
      intro x _
      rw [decide_eq_true_eq, decide_eq_true_eq, Nat.lt_succ_iff, searchFloat64s_le_iff hs x hib]
    rw [hcount]

/-- What is written for `+Inf`. -/
theorem getLast?_accumulate_tally {bs : List β} (hs : bs.Pairwise (· ≤ ·)) (xs : List β) :
    (accumulate 0 (tally bs xs)).getLast? = some xs.length := by
  have hlen : (accumulate 0 (tally bs xs)).length = bs.length + 1 := by
    simp [length_accumulate, tally]
  rw [List.getLast?_eq_getElem?, hlen, Nat.add_sub_cancel,
    getElem?_accumulate_tally bs xs (by omega), List.countP_eq_length.mpr]
  intro x _
  have hle := searchFloat64s_le_length hs x
  simpa using Nat.lt_succ_iff.mpr hle

/-- For every list of boundaries and every list of observations,
    `writeSingleHistogram` writes each boundary, in their order, with the number of
    observations that are not above it, and `+Inf` and `_count` with the number of
    all observations. The counts do not decrease along the boundaries. -/
theorem histogram_cumulative (num : NumberText β) (nanos : β → Int) (name : String)
    (labelNames labelValues : List String) (buckets xs : List β) :
    let h := (newHistogram buckets).observeAll nanos xs
    let counted := (buckets.mergeSort fun a b => decide (a ≤ b)).map fun b =>
      (b, xs.countP fun x => x ≤ b)
    let bucket (le : String) (count : Nat) : Row :=
      { name := name ++ "_bucket", labelNames := labelNames ++ ["le"]
        labelValues := labelValues ++ [le], value := fmtUint64 count }
    writeSingleHistogram num name labelNames labelValues h =
      (counted.map (fun c => bucket (num.fmtFloat c.1) c.2) ++
        [bucket "+Inf" xs.length,
          { name := name ++ "_sum", labelNames, labelValues
            value := num.fmtFloat (num.seconds h.sum) },
          { name := name ++ "_count", labelNames, labelValues
            value := fmtUint64 xs.length }]).mapM Row.write ∧
      (counted.map Prod.snd).Pairwise (· ≤ ·) := by
  obtain ⟨hbuckets, hcount, hcounts⟩ := counts_observeAll nanos buckets xs
  have hsorted := (newHistogram buckets).sorted
  have hrows : ((newHistogram buckets).observeAll nanos xs).bucketRows =
      (newHistogram buckets).buckets.map fun b => (b, xs.countP fun x => x ≤ b) := by
    rw [Histogram.bucketRows, hbuckets, hcounts, zip_accumulate_tally hsorted]
  have hinf : ((newHistogram buckets).observeAll nanos xs).infCount = xs.length := by
    rw [Histogram.infCount, hcounts, getLast?_accumulate_tally hsorted]
    rfl
  dsimp only
  constructor
  · rw [writeSingleHistogram, histogramRows, hrows, hinf, hcount]
    rfl
  · rw [List.map_map, List.pairwise_map]
    refine hsorted.imp fun hab => ?_
    apply List.countP_mono_left
    intro x _ hx
    simp only [decide_eq_true_eq] at hx ⊢
    exact le_trans hx hab

end HootLb.Metrics
