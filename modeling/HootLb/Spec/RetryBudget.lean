import HootLb.Spec.RetryRun
import HootLb.Spec.ValidateSound
import Mathlib.Tactic.NormNum
import Mathlib.Tactic.Positivity

/-!
# Whether a configured retry takes place

The budget of a request is made when the request begins, charged after every
failed attempt, and asked before every retry. Before the first retry it has one
retry on one request to its account, a ratio of one, which is below no ratio that
validation accepts: the retry is refused unless the ten-second window has run out
in the meantime and the charge with it.

## Key results

- `allow_after_failure`: what the budget says before the first retry
- `backoff_isSome_iff`: for which durations the first backoff is computed
- `retry_takes_place_iff`: when the answer of the second attempt is returned
-/

namespace HootLb

namespace Float64

/-! ## Rounding -/

theorem floor_le_roundHalfEven (q : ℚ) : ⌊q⌋ ≤ roundHalfEven q := by
  unfold roundHalfEven
  dsimp only
  split_ifs <;> omega

/-- Rounding does not leave the binade below. -/
theorem two_zpow_log_le_round (q : ℚ) (h : 0 < q) : (2 : ℚ) ^ Int.log 2 q ≤ round q := by
  have hulp : (0 : ℚ) < 2 ^ (Int.log 2 q - 52) := zpow_pos (by norm_num) _
  have hlog : ((2 : ℕ) : ℚ) ^ Int.log 2 q ≤ q := Int.zpow_log_le_self (by norm_num) h
  -- the significand is at least 2^52
  have hsig : (2 : ℚ) ^ (52 : ℤ) ≤ q / 2 ^ (Int.log 2 q - 52) := by
    rw [le_div_iff₀ hulp, ← zpow_add₀ (by norm_num)]
    simpa using hlog
  have hint : (2 : ℚ) ^ (52 : ℤ) ≤ (roundHalfEven (q / 2 ^ (Int.log 2 q - 52)) : ℤ) := by
    have hfloor : (4503599627370496 : ℤ) ≤ ⌊q / 2 ^ (Int.log 2 q - 52)⌋ := by
      apply Int.le_floor.mpr
      norm_num at hsig ⊢
      exact hsig
    have hround : (4503599627370496 : ℤ) ≤ roundHalfEven (q / 2 ^ (Int.log 2 q - 52)) :=
      le_trans hfloor (floor_le_roundHalfEven _)
    have hcast : ((4503599627370496 : ℤ) : ℚ) ≤ _ := Int.cast_le.mpr hround
    norm_num at hcast ⊢
    exact hcast
  unfold round
  rw [if_neg (ne_of_gt h), abs_of_pos h]
  dsimp only
  calc (2 : ℚ) ^ Int.log 2 q
      = (2 : ℚ) ^ (52 : ℤ) * 2 ^ (Int.log 2 q - 52) := by
        rw [← zpow_add₀ (by norm_num)]
        simp
    _ ≤ _ := mul_le_mul_of_nonneg_right hint (le_of_lt hulp)

theorem round_zero : round 0 = 0 := rfl

theorem round_one : round 1 = 1 := by
  have hlog : Int.log 2 (1 : ℚ) = 0 := Int.log_one_right 2
  unfold round
  rw [if_neg one_ne_zero, abs_one, hlog]
  norm_num [roundHalfEven]

/-- An integer of at least two rounds to at least two. -/
theorem two_le_round (n : Int) (h : 2 ≤ n) : 2 ≤ round n := by
  have hn : (2 : ℚ) ≤ n := by exact_mod_cast h
  have hpos : (0 : ℚ) < n := lt_of_lt_of_le (by norm_num) hn
  have hlog : (1 : ℤ) ≤ Int.log 2 (n : ℚ) := by
    rw [← Int.zpow_le_iff_le_log (by norm_num) hpos]
    simpa using hn
  calc (2 : ℚ) = 2 ^ (1 : ℤ) := by norm_num
    _ ≤ 2 ^ Int.log 2 (n : ℚ) := zpow_le_zpow_right₀ (by norm_num) hlog
    _ ≤ round n := two_zpow_log_le_round n hpos

theorem quot_zero_one : quot 0 1 = .fin 0 := by
  simp [quot, round_zero, round_one]

theorem quot_one_one : quot 1 1 = .fin 1 := by
  simp [quot, round_one]

end Float64

namespace Retry

/-! ## The budget before the first retry -/

/-- A ratio that validation accepts and that is positive. -/
structure RatioOk (ratio : Float64) : Prop where
  pos : (Float64.fin 0).lt ratio = true
  le_one : (Float64.fin 1).lt ratio = false

theorem RatioOk.not_le_zero {ratio : Float64} (h : RatioOk ratio) :
    ratio.le (.fin 0) = false := by
  have hpos := h.pos
  cases ratio with
  | nan | negInf => cases hpos
  | posInf => rfl
  | fin q =>
    simp only [Float64.lt, decide_eq_true_eq] at hpos
    simp only [Float64.le, decide_eq_false_iff_not, not_le]
    exact hpos

/-- After one failed attempt the budget allows a retry exactly when its window has
    run out. -/
theorem allow_after_failure (ratio : Float64) (h : RatioOk ratio) (start now : Int) :
    ((newBudgetFromRatio ratio start).recordRetry.allow now).1 =
      decide (now - start > 10000000000) := by
  have hratio := h.not_le_zero
  unfold Budget.allow newBudgetFromRatio Budget.recordRetry
  dsimp only
  by_cases hwindow : now - start > 10000000000
  · -- the charge is gone with the window
    simp only [hwindow, if_true, hratio, Bool.false_eq_true, if_false]
    simp [Float64.quot_zero_one, h.pos]
  · -- one retry on one request
    simp only [hwindow, if_false, hratio, Bool.false_eq_true]
    simp [Float64.quot_one_one, h.le_one]

/-! ## The first backoff -/

theorem tdiv_two_pos_iff (d : Int) : 0 < d.tdiv 2 ↔ 2 ≤ d := by
  by_cases hd : 0 ≤ d
  · rw [Int.tdiv_eq_ediv_of_nonneg hd]
    omega
  · have hneg : d.tdiv 2 = -((-d) / 2) := by
      rw [← Int.tdiv_eq_ediv_of_nonneg (by omega), Int.neg_tdiv, neg_neg]
    rw [hneg]
    omega

/-- The backoff before the first retry is computed when the base is at least two
    nanoseconds and still fits after rounding; otherwise `rand.Int63n` panics. -/
theorem backoff_isSome_iff (base max : Int) (hbase : 0 < base) (hmax : base ≤ max)
    (draw : Nat) :
    (backoffDuration base max 0 draw).isSome ↔ 1 < base ∧ Float64.round base < 2 ^ 63 := by
  have hpos : (0 : ℚ) < base := by exact_mod_cast hbase
  have hrounded : (0 : ℚ) < Float64.round base :=
    lt_of_lt_of_le (zpow_pos (by norm_num) _) (Float64.two_zpow_log_le_round base hpos)
  have hscaled : scaledBackoff base 0 =
      if Float64.round base < 2 ^ 63 then ⌊Float64.round base⌋ else -(2 ^ 63) := by
    have hlow : -(2 ^ 63) ≤ Float64.round base := le_trans (by norm_num) (le_of_lt hrounded)
    simp [scaledBackoff, hlow]
  have hsome : (backoffDuration base max 0 draw).isSome ↔
      2 ≤ (if scaledBackoff base 0 > max then max else scaledBackoff base 0) := by
    rw [← tdiv_two_pos_iff]
    unfold backoffDuration
    dsimp only
    generalize Int.tdiv (if scaledBackoff base 0 > max then max else scaledBackoff base 0) 2 = half
    by_cases hhalf : half ≤ 0
    · simp [hhalf]
    · simp [hhalf, not_le.mp hhalf]
  rw [hsome, hscaled]
  by_cases hfit : Float64.round base < 2 ^ 63
  · rw [if_pos hfit, and_iff_left hfit]
    constructor
    · intro hdur
      by_contra hsmall
      -- a base of one nanosecond has no half
      have hone : base = 1 := by omega
      subst hone
      have hround : Float64.round ((1 : Int) : ℚ) = 1 := by
        rw [Int.cast_one, Float64.round_one]
      have hle : ¬ (1 : Int) > max := by omega
      rw [hround, Int.floor_one, if_neg hle] at hdur
      omega
    · intro hbig
      have hfloor : (2 : Int) ≤ ⌊Float64.round base⌋ := by
        apply Int.le_floor.mpr
        exact_mod_cast Float64.two_le_round base hbig
      split_ifs <;> omega
  · have hle : ¬ (-(2 ^ 63) : Int) > max := by omega
    rw [if_neg hfit, if_neg hle]
    constructor
    · intro hdur
      omega
    · intro h
      exact absurd h.2 hfit

end Retry

namespace L7

open Config Balancer HootLb.Retry

/-! ## The second attempt -/

/-- What `validateRetry` leaves of a configuration. -/
theorem of_validateRetry (rc : Config.RetryConfig) (path : String)
    (h : validateRetry rc path = []) :
    2 ≤ rc.maxAttempts ∧ (Float64.fin 1).lt rc.retryBudgetRatio = false ∧
      0 < rc.backoffBase ∧ rc.backoffBase ≤ rc.backoffMax := by
  simp only [validateRetry, checkDuration, List.append_eq_nil_iff, check_eq_nil,
    decide_eq_false_iff_not, Bool.or_eq_false_iff, not_lt, not_le] at h
  obtain ⟨⟨⟨⟨⟨hattempts, -, hone⟩, hbase⟩, -⟩, hmax⟩, -⟩ := h
  exact ⟨hattempts, hone, hbase, hmax⟩

/-- The body was read to its end and is at most this long. -/
def RequestBody.FitsIn : RequestBody → Int → Prop
  | .absent, _ => True
  | .complete size, limit => size ≤ limit
  | .failing .., _ => False

/-- The round trip returned an answer with the status `code`. -/
def Answered (r : List Effect × RoundTripResult) (code : Int) : Prop :=
  ∃ resp, r.2 = .response code resp

/-- A request whose body fits enters the loop with a body that can be sent
    again. -/
theorem roundTrip_eq_loop (ctx : Context) (rcfg : RetryConfig) (herr : ctx.err = none)
    (hretry : ctx.retry = some rcfg) (hattempts : 2 ≤ rcfg.maxAttempts)
    (hlimit : 0 < rcfg.maxBodyBytes) (body : RequestBody) (hbody : body.FitsIn rcfg.maxBodyBytes)
    (start : Int) (io : Nat → AttemptIO) :
    ctx.roundTrip body start io =
      ctx.retryLoop rcfg true io rcfg.maxAttempts.toNat 0
        (newBudgetFromRatio rcfg.retryBudgetRatio start) none := by
  have hbodies : ∀ size : Nat, (size : Int) ≤ rcfg.maxBodyBytes →
      isRetryableBody size rcfg.maxBodyBytes = true := by
    intro size hsize
    simp [isRetryableBody, not_le.mpr hlimit, hsize]
  simp only [Context.roundTrip, herr, hretry, Context.roundTripWithRetry, not_lt.mpr hattempts,
    if_false]
  cases body with
  | absent =>
    dsimp only
    rw [hbodies 0 (le_of_lt hlimit)]
  | complete size =>
    dsimp only
    rw [hbodies size hbody]
  | failing size why => exact absurd hbody id

/-- The loop with a failed first attempt and a second that would be answered: the
    answer is returned exactly when the budget allows the retry and the backoff is
    defined. -/
theorem retryLoop_second_iff (ctx : Context) (rcfg : RetryConfig) (io : Nat → AttemptIO)
    (remaining : Nat) (budget : Budget) (b : String) (code : Int)
    (hfail : failedAttempt rcfg (io 0).result = true) (hpick : (io 1).pick = .ok b)
    (hok : (io 1).result = .ok code)
    (hcode : isRetryable code rcfg.retryableStatusCodes = false) :
    Answered (ctx.retryLoop rcfg true io (remaining + 2) 0 budget none) code ↔
      (budget.recordRetry.allow (io 1).now).1 = true ∧
        (backoffDuration rcfg.backoffBase rcfg.backoffMax 0 (io 1).draw).isSome := by
  obtain ⟨code', resp, hcode', hanswer⟩ := tryAttempt_inr ctx rcfg 1 b (.ok code) hcode
  cases hcode'
  -- both attempts as pairs of what they do and where they lead
  have hfirst : ctx.tryAttempt rcfg 0 ctx.host (io 0).result =
      ((ctx.tryAttempt rcfg 0 ctx.host (io 0).result).1, .inl (attemptError (io 0).result)) :=
    Prod.ext rfl (tryAttempt_inl ctx rcfg 0 ctx.host (io 0).result hfail)
  have hsecond : ctx.tryAttempt rcfg 1 b (.ok code) =
      ((ctx.tryAttempt rcfg 1 b (.ok code)).1, .inr (.response code resp)) := Prod.ext rfl hanswer
  generalize (ctx.tryAttempt rcfg 0 ctx.host (io 0).result).1 = made₀ at hfirst
  generalize (ctx.tryAttempt rcfg 1 b (.ok code)).1 = made at hsecond
  simp only [Context.retryLoop, Context.prepare, if_true, hfirst, Nat.zero_add, Nat.one_ne_zero,
    if_false, Bool.not_true, Bool.false_eq_true, Nat.sub_self]
  generalize budget.recordRetry.allow (io 1).now = r
  obtain ⟨allowed, budget'⟩ := r
  cases allowed with
  | false => simp [Answered]
  | true =>
    cases backoffDuration rcfg.backoffBase rcfg.backoffMax 0 (io 1).draw with
    | none => simp [Answered]
    | some dur =>
      simp only [Bool.not_true, Bool.false_eq_true, if_false, hpick, hok, hsecond]
      simp [Answered]

/-- For a retry configuration that validation accepts, with a positive budget
    ratio, a request whose body fits, and a pick that succeeds: when the first
    attempt fails and the second would be answered with a status that is not
    retryable, that answer is returned exactly when the budget's window has run
    out by the time it is asked, and the backoff base neither is a single
    nanosecond nor overflows. -/
theorem retry_takes_place_iff (rc : Config.RetryConfig) (path : String)
    (hvalid : validateRetry rc path = [])
    (hratio : (Float64.fin 0).lt rc.retryBudgetRatio = true) (maxBodyBytes : Int)
    (rcfg : RetryConfig) (hrcfg : retryConfigFromPool (some rc) maxBodyBytes = some rcfg)
    (ctx : Context) (herr : ctx.err = none) (hretry : ctx.retry = some rcfg)
    (body : RequestBody) (hbody : body.FitsIn rcfg.maxBodyBytes) (start : Int)
    (io : Nat → AttemptIO) (b : String) (hpick : (io 1).pick = .ok b)
    (hfail : failedAttempt rcfg (io 0).result = true) (code : Int)
    (hok : (io 1).result = .ok code)
    (hcode : isRetryable code rcfg.retryableStatusCodes = false) :
    Answered (ctx.roundTrip body start io) code ↔
      (io 1).now - start > 10000000000 ∧ 1 < rc.backoffBase ∧
        Float64.round rc.backoffBase < 2 ^ 63 := by
  obtain ⟨hattempts, hone, hbase, hmax⟩ := of_validateRetry rc path hvalid
  have hratios : rcfg.retryBudgetRatio = rc.retryBudgetRatio := by cases hrcfg; rfl
  have hbases : rcfg.backoffBase = rc.backoffBase := by cases hrcfg; rfl
  have hmaxs : rcfg.backoffMax = rc.backoffMax := by cases hrcfg; rfl
  have hcount : 2 ≤ rcfg.maxAttempts := by cases hrcfg; exact hattempts
  have hlimit : 0 < rcfg.maxBodyBytes := by
    cases hrcfg
    dsimp only
    split_ifs <;> omega
  obtain ⟨remaining, hremaining⟩ : ∃ n, rcfg.maxAttempts.toNat = n + 2 :=
    ⟨rcfg.maxAttempts.toNat - 2, by omega⟩
  rw [roundTrip_eq_loop ctx rcfg herr hretry hcount hlimit body hbody start io, hremaining,
    retryLoop_second_iff ctx rcfg io remaining _ b code hfail hpick hok hcode, hratios, hbases,
    hmaxs, allow_after_failure _ ⟨hratio, hone⟩, backoff_isSome_iff _ _ hbase hmax,
    decide_eq_true_eq]

/-! ## A retry that never happens -/

/-- Two attempts on a 503, with the largest budget ratio there is. -/
def fullBudget : Config.RetryConfig :=
  { maxAttempts := 2, retryBudgetRatio := .fin 1, backoffBase := 100000000
    backoffMax := 1000000000, retryableStatusCodes := [503] }

/-- A request at `10.0.0.1:8080` under that configuration. -/
def retryContext : Context :=
  { err := none, backend := some "10.0.0.1:8080", releaser := false, fr := false, outcome := false
    metrics := none, retry := convertRetryConfig (some fullBudget), host := "10.0.0.1:8080" }

/-- The first attempt is answered 503 after `elapsed`, the second would be
    answered 200. -/
def unavailableThenOk (elapsed : Int) (attempt : Nat) : AttemptIO :=
  { now := elapsed, draw := 0, pick := .ok "10.0.0.2:8080"
    result := .ok (if attempt = 0 then 503 else 200) }

/-- A first attempt of one second leaves the request without a retry. -/
theorem prompt_failure_not_retried :
    validateRetry fullBudget "pools[0].retry" = [] ∧
      (retryContext.roundTrip .absent 0 (unavailableThenOk 1000000000)).2 =
        .error (some (.retryableStatus 503)) := by
  refine ⟨by decide, ?_⟩
  decide +kernel

/-- A first attempt of eleven seconds outlasts the budget's window. -/
theorem slow_failure_retried :
    Answered (retryContext.roundTrip .absent 0 (unavailableThenOk 11000000000)) 200 := by
  have hround : Float64.round ((100000000 : Int) : ℚ) < 2 ^ 63 := by
    decide +kernel
  exact (retry_takes_place_iff fullBudget "pools[0].retry" (by decide) (by decide) 0 _ rfl
    retryContext rfl rfl .absent trivial 0 (unavailableThenOk 11000000000) "10.0.0.2:8080" rfl
    (by decide) 200 rfl (by decide)).mpr ⟨by decide, by decide, hround⟩

end L7

end HootLb
