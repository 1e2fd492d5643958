import HootLb.Native.Balancer
import Mathlib.Data.Int.Log
import Mathlib.Data.Rat.Floor

/-!
# Retry decisions

`internal/retry`: the retry budget, what counts as retryable, and the backoff
between attempts. Floating point is rounded to nearest, ties to even, at 53 bits;
no value here comes near the ends of the exponent range except through
`math.Pow`, which is treated apart.
-/

namespace HootLb

open Config

namespace Float64

/-- Nearest integer, ties to even. -/
def roundHalfEven (q : ℚ) : Int :=
  let f := ⌊q⌋
  let d := q - f
  if d < 1 / 2 then f
  else if d > 1 / 2 then f + 1
  else if f % 2 = 0 then f else f + 1

/-- The nearest number with 53 significant bits. -/
def round (q : ℚ) : ℚ :=
  if q = 0 then 0
  else
    let ulp : ℚ := 2 ^ (Int.log 2 |q| - 52)
    roundHalfEven (q / ulp) * ulp

/-- `float64(a) / float64(b)` for a positive `b`. -/
def quot (a b : Int) : Float64 := .fin (round (round a / round b))

end Float64

namespace Retry

/-- `Budget`: retries and calls of `Allow` in the current window. -/
structure Budget where
  windowStart : Int
  windowSize : Duration
  budgetRatio : Float64
  retriesWindow : Int
  totalWindow : Int
  deriving DecidableEq

/-- `NewBudgetFromRatio`, with a window of ten seconds. -/
def newBudgetFromRatio (ratio : Float64) (now : Int) : Budget :=
  { windowStart := now, windowSize := 10000000000, budgetRatio := ratio
    retriesWindow := 0, totalWindow := 0 }

/-- `Budget.Allow`. -/
def Budget.allow (b : Budget) (now : Int) : Bool × Budget :=
  let b :=
    if now - b.windowStart > b.windowSize then
      { b with retriesWindow := 0, totalWindow := 0, windowStart := now }
    else b
  let b := { b with totalWindow := b.totalWindow + 1 }
  if b.budgetRatio.le (.fin 0) then (false, b)
  -- never the case: the total has just been incremented
  else if b.retriesWindow = 0 ∧ b.totalWindow = 0 then (true, b)
  else ((Float64.quot b.retriesWindow b.totalWindow).lt b.budgetRatio, b)

/-- `Budget.RecordRetry`. -/
def Budget.recordRetry (b : Budget) : Budget := { b with retriesWindow := b.retriesWindow + 1 }

/-- `IsRetryable` for a response. -/
def isRetryable (statusCode : Int) (codes : List Int) : Bool := codes.contains statusCode

/-- `IsRetryableBody`: a limit that is not positive means 1 MiB. -/
def isRetryableBody (bodySize maxBodyBytes : Int) : Bool :=
  if bodySize < 0 then false
  else decide (bodySize ≤ if maxBodyBytes ≤ 0 then 2 ^ 20 else maxBodyBytes)

/-- `time.Duration(float64(base) * math.Pow(2, float64(attempt)))`. A value that
    does not fit, and the infinite power from 1024 on, convert to the smallest
    64-bit integer, as on amd64. -/
def scaledBackoff (base : Duration) (attempt : Nat) : Duration :=
  let v := Float64.round base * 2 ^ attempt
  if attempt < 1024 ∧ -(2 ^ 63) ≤ v ∧ v < 2 ^ 63 then ⌊v⌋ else -(2 ^ 63)

/-- `BackoffDuration`; `draw` is the random source of the jitter. `none` is the
    panic of `rand.Int63n` on an argument that is not positive. -/
def backoffDuration (base max : Duration) (attempt draw : Nat) : Option Duration :=
  let dur := scaledBackoff base attempt
  let dur := if dur > max then max else dur
  let half := dur.tdiv 2
  if half ≤ 0 then none else some (Balancer.goInt (dur + draw % half))

end Retry

end HootLb
