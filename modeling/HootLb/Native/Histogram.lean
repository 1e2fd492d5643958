import HootLb.ForStd.Search
import Mathlib.Data.List.Sort

/-!
# Histograms

`internal/metrics/histogram.go` without the vector, and the numbers that
`writeSingleHistogram` computes from a histogram. The source observes floats; here
the observations are of any totally ordered type, and `nanos` is the conversion to
the integer that is added to the sum. The counters are natural numbers.
-/

namespace HootLb.Metrics

variable {β : Type} [LinearOrder β]

/-- `sort.SearchFloat64s`. -/
def searchFloat64s (a : List β) (x : β) : Nat :=
  Search.search a.length fun i => (a[i]?).any fun b => decide (x ≤ b)

/-- `Histogram`: the boundaries are sorted, and there is a count for each of them
    and one more. -/
structure Histogram (β : Type) [LinearOrder β] where
  buckets : List β
  counts : List Nat
  sum : Int
  count : Nat
  sorted : buckets.Pairwise (· ≤ ·)
  length_counts : counts.length = buckets.length + 1

theorem pairwise_sortedBuckets (buckets : List β) :
    (buckets.mergeSort fun a b => decide (a ≤ b)).Pairwise (· ≤ ·) := by
  have htrans : ∀ a b c : β, decide (a ≤ b) = true → decide (b ≤ c) = true →
      decide (a ≤ c) = true := by
    intro a b c hab hbc
    simp only [decide_eq_true_eq] at hab hbc ⊢
    exact le_trans hab hbc
  have htotal : ∀ a b : β, (decide (a ≤ b) || decide (b ≤ a)) = true := by
    intro a b
    simpa using le_total a b
  exact (List.pairwise_mergeSort htrans htotal buckets).imp fun hab => by simpa using hab

/-- `NewHistogram`. -/
def newHistogram (buckets : List β) : Histogram β :=
  let sorted := buckets.mergeSort fun a b => decide (a ≤ b)
  { buckets := sorted
    counts := List.replicate (sorted.length + 1) 0
    sum := 0
    count := 0
    sorted := pairwise_sortedBuckets buckets
    length_counts := List.length_replicate }

/-- `Observe`. -/
def Histogram.observe (nanos : β → Int) (h : Histogram β) (seconds : β) : Histogram β :=
  { h with
    sum := h.sum + nanos seconds
    count := h.count + 1
    counts := h.counts.modify (searchFloat64s h.buckets seconds) (· + 1)
    length_counts := (List.length_modify (· + 1) _ _).trans h.length_counts }

/-- The loop of `writeSingleHistogram` that adds the counts up. -/
def accumulate : Nat → List Nat → List Nat
  | _, [] => []
  | cumSum, c :: rest => (cumSum + c) :: accumulate (cumSum + c) rest

/-- The boundaries and the counts written with them. -/
def Histogram.bucketRows (h : Histogram β) : List (β × Nat) :=
  h.buckets.zip (accumulate 0 h.counts)

/-- The count written for `+Inf`, which is the last one. -/
def Histogram.infCount (h : Histogram β) : Nat := ((accumulate 0 h.counts).getLast?).getD 0

end HootLb.Metrics
