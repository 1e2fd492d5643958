import HootLb.Spec.RateBound
import HootLb.Spec.ValidateSound

/-!
# Idle eviction

A swept client comes back with a full bucket. That is what the retained bucket
would have found as well if the rate, over the shortest idle time that is swept,
yields the whole burst. The limiter with sweeps and the one without are then
related at every operation: their buckets agree, but for clients that were swept
and whose retained bucket is full by the time of the next call.

If the rate yields less, a client that spends its burst, is swept, and comes back
is granted requests the retained bucket refuses.

## Key results

- `Swept`: a limiter with sweeps against one without
- `eviction_invisible_iff`: the configurations for which sweeps cannot be noticed
-/

namespace HootLb.Ratelimit

open Config

/-! ## Sweeps -/

theorem lookup_keepActive (idleTTL : Duration) (now : Int) (m : GoMap Bucket) (clientIP : String) :
    (keepActive idleTTL now m).lookup clientIP =
      (m.lookup clientIP).filter fun b => !decide (now - b.lastTime > idleTTL) := by
  apply Option.ext
  intro b
  rw [Option.filter_eq_some_iff, ← Option.mem_def, ← Option.mem_def, AList.mem_lookup_iff,
    AList.mem_lookup_iff]
  exact List.mem_filter

theorem bucket?_evict (l : Limiter) (now : Int) (clientIP : String) :
    (l.evict now).bucket? clientIP =
      (l.bucket? clientIP).filter fun b => !decide (now - b.lastTime > l.idleTTL) :=
  lookup_keepActive l.idleTTL now _ clientIP

/-- The level found depends on the client's bucket and the limits alone. -/
theorem level_congr {l l' : Limiter} {clientIP : String} (hrate : l.rate = l'.rate)
    (hcap : l.capacity = l'.capacity) (hb : l.bucket? clientIP = l'.bucket? clientIP) (now : Int) :
    l.level clientIP now = l'.level clientIP now := by
  unfold Limiter.level Limiter.bucketAt
  rw [hrate, hcap, hb]

/-- A client without a bucket finds the whole burst. -/
theorem level_of_absent {l : Limiter} {clientIP : String} (h : l.bucket? clientIP = none)
    (now : Int) : l.level clientIP now = l.capacity := by
  unfold Limiter.level Limiter.bucketAt Bucket.level
  rw [h, Option.getD_none]
  simp [seconds]

theorem level_of_present {l : Limiter} {clientIP : String} {b : Bucket}
    (h : l.bucket? clientIP = some b) (now : Int) :
    l.level clientIP now = b.level l.rate l.capacity now := by
  unfold Limiter.level Limiter.bucketAt
  rw [h, Option.getD_some]

/-! ## Refilling while idle -/

/-- The limits `validateRateLimit` accepts, and the rate yields the whole burst
    over the shortest idle time that is swept, one tick more than the TTL. -/
structure RefillsWhileIdle (rate : Float64) (burst : ℚ) (idleTTL : Duration) : Prop where
  burst_pos : 0 < burst
  ttl_pos : 0 < idleTTL
  covers : (Float64.fin burst).le (rate.mulFin (seconds (idleTTL + 1)))

theorem seconds_pos {d : Int} (h : 0 < d) : 0 < seconds d := by
  unfold seconds
  positivity

/-- Such a rate is infinite, or finite and large enough. -/
theorem RefillsWhileIdle.rate_cases {rate : Float64} {burst : ℚ} {idleTTL : Duration}
    (h : RefillsWhileIdle rate burst idleTTL) :
    rate = .posInf ∨ ∃ r, rate = .fin r ∧ 0 < r ∧ burst ≤ r * seconds (idleTTL + 1) := by
  have hcovers := h.covers
  have hsec : 0 < seconds (idleTTL + 1) := seconds_pos (Int.lt_add_one_of_le (le_of_lt h.ttl_pos))
  cases rate with
  | nan => simp [Float64.mulFin, Float64.le] at hcovers
  | negInf => simp [Float64.mulFin, Float64.le, hsec.ne', hsec] at hcovers
  | posInf => exact .inl rfl
  | fin r =>
    have hle : burst ≤ r * seconds (idleTTL + 1) := by
      simpa [Float64.mulFin, Float64.le] using hcovers
    refine .inr ⟨r, rfl, ?_, hle⟩
    exact (pos_iff_pos_of_mul_pos (lt_of_lt_of_le h.burst_pos hle)).mpr hsec

/-- With an infinite rate a bucket is full as soon as any time has passed. -/
theorem Bucket.level_posInf (burst x : ℚ) (last now : Int) :
    Bucket.level .posInf (.fin burst) { tokens := .fin x, lastTime := last } now =
      if seconds (now - last) > 0 then .fin burst else .fin x := by
  unfold Bucket.level
  dsimp only
  split
  · rename_i helapsed
    simp [Float64.mulFin, ne_of_gt helapsed, helapsed, Float64.add, Float64.lt]
  · rfl

/-- Tokens stay finite and do not go below zero. -/
theorem RefillsWhileIdle.level_nonneg {rate : Float64} {burst x : ℚ} {idleTTL : Duration}
    (h : RefillsWhileIdle rate burst idleTTL) (hx : 0 ≤ x) (last now : Int) :
    ∃ y, 0 ≤ y ∧
      Bucket.level rate (.fin burst) { tokens := .fin x, lastTime := last } now = .fin y := by
  obtain rfl | ⟨r, rfl, hr, -⟩ := h.rate_cases
  · rw [Bucket.level_posInf]
    split
    · exact ⟨burst, le_of_lt h.burst_pos, rfl⟩
    · exact ⟨x, hx, rfl⟩
  · rw [Bucket.level_fin]
    refine ⟨_, ?_, rfl⟩
    exact TokenBucket.refilled_nonneg r burst { tokens := x, last := seconds last } (seconds now)
      (le_of_lt hr) (le_of_lt h.burst_pos) hx

/-- A bucket that a sweep would drop is full at the next call. -/
theorem RefillsWhileIdle.level_of_idle {rate : Float64} {burst x : ℚ} {idleTTL : Duration}
    (h : RefillsWhileIdle rate burst idleTTL) (hx : 0 ≤ x) {last now : Int}
    (hidle : idleTTL < now - last) :
    Bucket.level rate (.fin burst) { tokens := .fin x, lastTime := last } now = .fin burst := by
  have helapsed : 0 < seconds (now - last) := seconds_pos (lt_trans h.ttl_pos hidle)
  obtain rfl | ⟨r, rfl, hr, hcovers⟩ := h.rate_cases
  · rw [Bucket.level_posInf, if_pos helapsed]
  · have hflow : burst ≤ r * (seconds now - seconds last) := by
      calc burst ≤ r * seconds (idleTTL + 1) := hcovers
        _ ≤ r * seconds (now - last) := by
          apply mul_le_mul_of_nonneg_left _ (le_of_lt hr)
          exact (seconds_le_seconds _ _).mpr hidle
        _ = r * (seconds now - seconds last) := by rw [seconds_sub]
    rw [seconds_sub, sub_pos] at helapsed
    rw [Bucket.level_fin, TokenBucket.refilled_eq_capacity r burst
      { tokens := x, last := seconds last } (seconds now) hx helapsed hflow]

theorem take_tokens_nonneg {y : ℚ} (hy : 0 ≤ y) (now : Int) :
    ∃ z, 0 ≤ z ∧ (take (.fin y) now).2.tokens = .fin z := by
  unfold take
  simp only [Float64.le, decide_eq_true_eq]
  split
  · rename_i hone
    exact ⟨y + -1, by linarith, rfl⟩
  · exact ⟨y, hy, rfl⟩

/-! ## With sweeps and without -/

/-- A limiter `l` with sweeps up to the time `now` against `l'` without: a client
    `l` has no bucket for may have one in `l'` that is idle long enough to be
    swept. -/
structure Swept (burst : ℚ) (now : Int) (l l' : Limiter) : Prop where
  rate_eq : l.rate = l'.rate
  capacity_eq : l.capacity = .fin burst
  capacity_eq' : l'.capacity = .fin burst
  idleTTL_eq : l.idleTTL = l'.idleTTL
  refills : RefillsWhileIdle l'.rate burst l'.idleTTL
  bucket : ∀ clientIP, l.bucket? clientIP = l'.bucket? clientIP ∨
    l.bucket? clientIP = none ∧ ∀ b ∈ l'.bucket? clientIP, l'.idleTTL < now - b.lastTime
  tokens : ∀ clientIP, ∀ b ∈ l'.bucket? clientIP, ∃ x, 0 ≤ x ∧ b.tokens = .fin x

theorem Swept.later {burst : ℚ} {now later : Int} {l l' : Limiter} (h : Swept burst now l l')
    (hle : now ≤ later) : Swept burst later l l' := by
  refine { h with bucket := fun clientIP => ?_ }
  refine (h.bucket clientIP).imp_right fun hswept => ⟨hswept.1, fun b hb => ?_⟩
  exact lt_of_lt_of_le (hswept.2 b hb) (Int.sub_le_sub_right hle _)

theorem Swept.evict {burst : ℚ} {now : Int} {l l' : Limiter} (h : Swept burst now l l') :
    Swept burst now (l.evict now) l' := by
  refine { h with bucket := fun clientIP => ?_ }
  rw [bucket?_evict]
  obtain heq | ⟨hnone, hidle⟩ := h.bucket clientIP
  · rw [heq]
    cases hb : l'.bucket? clientIP with
    | none => exact .inl rfl
    | some b =>
      by_cases hidle : l.idleTTL < now - b.lastTime
      · -- the sweep drops it here
        refine .inr ⟨by simpa [lt_sub_iff_add_lt] using hidle, ?_⟩
        intro b' hb'
        cases hb'
        exact h.idleTTL_eq ▸ hidle
      · exact .inl (by simp [hidle])
  · rw [hnone]
    exact .inr ⟨rfl, hidle⟩

/-- Both limiters find the same tokens. -/
theorem Swept.level_eq {burst : ℚ} {now : Int} {l l' : Limiter} (h : Swept burst now l l')
    (clientIP : String) : l.level clientIP now = l'.level clientIP now := by
  obtain heq | ⟨hnone, hidle⟩ := h.bucket clientIP
  · exact level_congr h.rate_eq (h.capacity_eq.trans h.capacity_eq'.symm) heq now
  · rw [level_of_absent hnone, h.capacity_eq]
    cases hb : l'.bucket? clientIP with
    | none => rw [level_of_absent hb, h.capacity_eq']
    | some b =>
      obtain ⟨x, hx, htokens⟩ := h.tokens clientIP b hb
      rw [level_of_present hb, h.capacity_eq']
      obtain ⟨tokens, last⟩ := b
      cases htokens
      exact (h.refills.level_of_idle hx (hidle _ hb)).symm

theorem Swept.level_nonneg {burst : ℚ} {now : Int} {l l' : Limiter} (h : Swept burst now l l')
    (clientIP : String) : ∃ y, 0 ≤ y ∧ l'.level clientIP now = .fin y := by
  cases hb : l'.bucket? clientIP with
  | none => exact ⟨burst, le_of_lt h.refills.burst_pos, by rw [level_of_absent hb, h.capacity_eq']⟩
  | some b =>
    obtain ⟨x, hx, htokens⟩ := h.tokens clientIP b hb
    rw [level_of_present hb, h.capacity_eq']
    obtain ⟨tokens, last⟩ := b
    cases htokens
    exact h.refills.level_nonneg hx last now

theorem Swept.allow {burst : ℚ} {now : Int} {l l' : Limiter} (h : Swept burst now l l')
    (clientIP : String) :
    (l.allow clientIP now).1 = (l'.allow clientIP now).1 ∧
      Swept burst now (l.allow clientIP now).2 (l'.allow clientIP now).2 := by
  have hlevel := h.level_eq clientIP
  refine ⟨by rw [allow_result, allow_result, hlevel], ?_⟩
  refine ⟨h.rate_eq, h.capacity_eq, h.capacity_eq', h.idleTTL_eq, h.refills, ?_, ?_⟩
  · intro other
    by_cases hother : other = clientIP
    · rw [hother, bucket?_allow_self, bucket?_allow_self, hlevel]
      exact .inl rfl
    · rw [bucket?_allow_of_ne _ _ _ _ hother, bucket?_allow_of_ne _ _ _ _ hother]
      exact h.bucket other
  · intro other b hb
    by_cases hother : other = clientIP
    · rw [hother, bucket?_allow_self] at hb
      obtain ⟨y, hy, hlevel'⟩ := h.level_nonneg clientIP
      cases hb
      rw [hlevel']
      exact take_tokens_nonneg hy now
    · rw [bucket?_allow_of_ne _ _ _ _ hother] at hb
      exact h.tokens other b hb

/-- Along every time-ordered run the two limiters give the same answers. -/
theorem Swept.results {burst : ℚ} {now : Int} {l l' : Limiter} (h : Swept burst now l l')
    (run : List LimiterOp) (hnow : ∀ op ∈ run, now ≤ op.time)
    (hordered : run.Pairwise fun a b => a.time ≤ b.time) :
    l.results run = l'.results (run.filter (·.isAllow)) := by
  -- the relation between the two limiters is kept by each operation at its own time
  induction run generalizing now l l' with
  | nil => rfl
  | cons op rest ih =>
    rw [List.pairwise_cons] at hordered
    have h := h.later (hnow op List.mem_cons_self)
    cases op with
    | allow clientIP at_ =>
      obtain ⟨hresult, hnext⟩ := h.allow clientIP
      exact congrArg₂ List.cons hresult (ih hnext hordered.1 hordered.2)
    | evict at_ =>
      -- a sweep gives no answer and is not in the filtered run
      exact ih h.evict hordered.1 hordered.2

/-! ## A client that spends its burst -/

/-- The limiter after an operation. -/
def Limiter.step (l : Limiter) : LimiterOp → Limiter
  | .allow clientIP now => (l.allow clientIP now).2
  | .evict now => l.evict now

theorem results_append (l : Limiter) (run rest : List LimiterOp) :
    l.results (run ++ rest) = l.results run ++ (run.foldl Limiter.step l).results rest := by
  induction run generalizing l with
  | nil => rfl
  | cons op run ih =>
    cases op with
    | allow clientIP now => exact congrArg (List.cons _) (ih _)
    | evict now => exact ih _

/-- At the same instant the next call finds what this one left. -/
theorem level_allow_self (l : Limiter) (clientIP : String) (now : Int) :
    (l.allow clientIP now).2.level clientIP now = (take (l.level clientIP now) now).2.tokens := by
  rw [level_of_present (bucket?_allow_self l clientIP now), Bucket.level, take_lastTime]
  simp [seconds]

theorem le_succ_iff (n : Nat) (level : Float64) :
    (Float64.fin (n + 1 : Nat)).le level ↔
      (Float64.fin 1).le level ∧ (Float64.fin n).le (level.add (.fin (-1))) := by
  cases level with
  | nan => simp [Float64.le]
  | negInf => simp [Float64.le]
  | posInf => simp [Float64.le, Float64.add]
  | fin x =>
    have hn : (0 : ℚ) ≤ n := Nat.cast_nonneg n
    simp only [Float64.le, Float64.add, decide_eq_true_eq, Nat.cast_add, Nat.cast_one]
    constructor
    · intro h
      exact ⟨by linarith, by linarith⟩
    · intro h
      linarith [h.2]

theorem take_granted (level : Float64) (now : Int) :
    (take level now).1 = (Float64.fin 1).le level := by
  unfold take
  cases (Float64.fin 1).le level <;> rfl

theorem take_of_le {level : Float64} (h : (Float64.fin 1).le level) (now : Int) :
    (take level now).2 = { tokens := level.add (.fin (-1)), lastTime := now } := by
  unfold take
  rw [if_pos h]

/-- A number of calls at one instant. -/
def calls (n : Nat) (clientIP : String) (now : Int) : List LimiterOp :=
  List.replicate n (.allow clientIP now)

theorem results_calls_succ (l : Limiter) (clientIP : String) (now : Int) (n : Nat) :
    l.results (calls (n + 1) clientIP now) = (Float64.fin 1).le (l.level clientIP now) ::
      (l.allow clientIP now).2.results (calls n clientIP now) := by
  rw [← take_granted _ now, ← allow_result]
  rfl

/-- They are all granted if the first finds that many tokens. -/
theorem results_calls_iff (l : Limiter) (clientIP : String) (now : Int) (n : Nat) :
    l.results (calls (n + 1) clientIP now) = List.replicate (n + 1) true ↔
      (Float64.fin (n + 1 : Nat)).le (l.level clientIP now) := by
  induction n generalizing l with
  | zero =>
    rw [results_calls_succ, List.replicate_succ, List.cons.injEq, zero_add, Nat.cast_one]
    exact and_iff_left rfl
  | succ n ih =>
    rw [results_calls_succ, List.replicate_succ, List.cons.injEq, ih, level_allow_self,
      le_succ_iff (n + 1)]
    apply and_congr_right
    intro hone
    rw [take_of_le hone]

/-- What calls that are all granted leave in the bucket. -/
theorem bucket?_calls {l : Limiter} {clientIP : String} {now : Int} {x : ℚ} {n : Nat}
    (hx : l.level clientIP now = .fin x) (hn : (n + 1 : Nat) ≤ x) :
    ((calls (n + 1) clientIP now).foldl Limiter.step l).bucket? clientIP =
      some { tokens := .fin (x - (n + 1 : Nat)), lastTime := now } := by
  induction n generalizing l x with
  | zero =>
    have hone : (Float64.fin 1).le (l.level clientIP now) := by
      rw [hx]
      simpa [Float64.le] using hn
    have hself := bucket?_allow_self l clientIP now
    rw [take_of_le hone, hx] at hself
    simpa [calls, Limiter.step, Float64.add, sub_eq_add_neg] using hself
  | succ n ih =>
    have hpos : (0 : ℚ) ≤ n := Nat.cast_nonneg n
    push_cast at hn
    have hone : (Float64.fin 1).le (l.level clientIP now) := by
      rw [hx]
      simp only [Float64.le, decide_eq_true_eq]
      linarith
    have hnext : (l.allow clientIP now).2.level clientIP now = .fin (x + -1) := by
      rw [level_allow_self, take_of_le hone, hx]
      rfl
    have hrest := ih hnext (by push_cast; linarith)
    have htokens : x + -1 - (n + 1 : Nat) = x - (n + 1 + 1 : Nat) := by
      push_cast
      ring
    rw [htokens] at hrest
    exact hrest

/-- Operations leave the limits alone. -/
theorem foldl_step_limits (l : Limiter) (run : List LimiterOp) :
    (run.foldl Limiter.step l).rate = l.rate ∧ (run.foldl Limiter.step l).capacity = l.capacity ∧
      (run.foldl Limiter.step l).idleTTL = l.idleTTL := by
  induction run generalizing l with
  | nil => exact ⟨rfl, rfl, rfl⟩
  | cons op rest ih =>
    cases op with
    | allow clientIP now => exact ih (l.allow clientIP now).2
    | evict now => exact ih (l.evict now)

/-- A client spends its burst at time zero, is swept as soon as that is possible,
    and asks for its burst again. -/
def spendAndReturn (burst : Nat) (idleTTL : Duration) : List LimiterOp :=
  calls burst "10.0.0.9" 0 ++ .evict (idleTTL + 1) :: calls burst "10.0.0.9" (idleTTL + 1)

theorem spendAndReturn_ordered (burst : Nat) {idleTTL : Duration} (h : 0 < idleTTL) :
    (spendAndReturn burst idleTTL).Pairwise fun a b => a.time ≤ b.time := by
  have hlater : (0 : Int) ≤ idleTTL + 1 := le_of_lt (Int.lt_add_one_of_le (le_of_lt h))
  simp only [spendAndReturn, calls, List.pairwise_append, List.pairwise_cons, List.mem_replicate,
    List.pairwise_replicate]
  refine ⟨.inr (le_refl _), ⟨?_, .inr (le_refl _)⟩, ?_⟩
  · rintro op ⟨-, rfl⟩
    exact le_refl _
  · rintro first ⟨-, rfl⟩ op hop
    simp only [List.mem_cons, List.mem_replicate] at hop
    obtain rfl | ⟨-, rfl⟩ := hop <;> exact hlater

theorem filter_isAllow_spendAndReturn (burst : Nat) (idleTTL : Duration) :
    (spendAndReturn burst idleTTL).filter (·.isAllow) =
      calls burst "10.0.0.9" 0 ++ calls burst "10.0.0.9" (idleTTL + 1) := by
  simp [spendAndReturn, calls, LimiterOp.isAllow]

/-- An empty bucket that finds the whole burst got it from the rate. -/
theorem le_mulFin_of_le_level {rate : Float64} {burst : ℚ} {idle : Int} (hidle : 0 < idle)
    (h : (Float64.fin burst).le
      (Bucket.level rate (.fin burst) { tokens := .fin 0, lastTime := 0 } idle)) :
    (Float64.fin burst).le (rate.mulFin (seconds idle)) := by
  have hadd : ∀ y : Float64, Float64.add (.fin 0) y = y := by
    intro y
    cases y <;> simp [Float64.add]
  simp only [Bucket.level, sub_zero, gt_iff_lt, seconds_pos hidle, if_true, hadd] at h
  generalize rate.mulFin (seconds idle) = y at h
  cases y with
  | nan => exact h
  | negInf => exact h
  | posInf => rfl
  | fin q =>
    by_cases hlt : burst < q
    · simpa [Float64.le] using le_of_lt hlt
    · simpa [Float64.lt, hlt] using h

/-- If the sweep is not noticed, the empty bucket has filled up in the time that
    is swept. -/
theorem covers_of_invisible (rate : Float64) (burst : Nat) (hburst : 0 < burst)
    (idleTTL : Duration) (httl : 0 < idleTTL)
    (h : (newLimiter rate burst idleTTL).results (spendAndReturn burst idleTTL) =
      (newLimiter rate burst idleTTL).results
        ((spendAndReturn burst idleTTL).filter (·.isAllow))) :
    (Float64.fin burst).le (rate.mulFin (seconds (idleTTL + 1))) := by
  obtain ⟨n, rfl⟩ := Nat.exists_eq_succ_of_ne_zero (ne_of_gt hburst)
  have hfull : (newLimiter rate (n + 1 : Nat) idleTTL).level "10.0.0.9" 0 = .fin (n + 1 : Nat) :=
    level_of_absent rfl 0
  -- the first burst leaves an empty bucket
  have hbucket := bucket?_calls hfull (le_refl _)
  obtain ⟨hrate, hcap, hidle⟩ :=
    foldl_step_limits (newLimiter rate (n + 1 : Nat) idleTTL) (calls (n + 1) "10.0.0.9" 0)
  rw [filter_isAllow_spendAndReturn, spendAndReturn, results_append, results_append] at h
  generalize (calls (n + 1) "10.0.0.9" 0).foldl Limiter.step
    (newLimiter rate (n + 1 : Nat) idleTTL) = l at h hbucket hrate hcap hidle
  have h := List.append_cancel_left h
  -- after the sweep the second burst is granted, so it is without the sweep
  have hdropped : (l.evict (idleTTL + 1)).bucket? "10.0.0.9" = none := by
    rw [bucket?_evict, hbucket, hidle]
    simp [newLimiter]
  have hswept : (l.evict (idleTTL + 1)).results (calls (n + 1) "10.0.0.9" (idleTTL + 1)) =
      List.replicate (n + 1) true := by
    rw [results_calls_iff, level_of_absent hdropped]
    simp [Limiter.evict, hcap, newLimiter, Float64.le]
  have hretained := (results_calls_iff l "10.0.0.9" (idleTTL + 1) n).mp (h.symm.trans hswept)
  rw [level_of_present hbucket, hrate, hcap, sub_self] at hretained
  apply le_mulFin_of_le_level (Int.lt_add_one_of_le (le_of_lt httl))
  exact hretained

/-! ## Which configurations hide their sweeps -/

/-- What `validateRateLimit` leaves of a configuration. -/
theorem of_validateRateLimit (rl : RateLimitConfig) (path : String)
    (h : validateRateLimit rl path = []) : 0 < rl.burst ∧ 0 < rl.clientIdleEviction := by
  simp only [validateRateLimit, checkDuration, checkPositive, List.append_eq_nil_iff, check_eq_nil,
    decide_eq_false_iff_not, not_le] at h
  exact ⟨h.1.2, h.2⟩

/-- `NewLimiter` on an accepted configuration. -/
def limiterOf (rl : RateLimitConfig) : Limiter :=
  newLimiter rl.requestsPerSecond rl.burst rl.clientIdleEviction

/-- For an accepted configuration: in every time-ordered sequence of calls and
    sweeps the answers are those without the sweeps, if and only if the rate
    yields the whole burst over the shortest idle time that is swept. -/
theorem eviction_invisible_iff (rl : RateLimitConfig) (path : String)
    (hvalid : validateRateLimit rl path = []) :
    (∀ run : List LimiterOp, run.Pairwise (fun a b => a.time ≤ b.time) →
      (limiterOf rl).results run = (limiterOf rl).results (run.filter (·.isAllow))) ↔
      (Float64.fin rl.burst).le
        (rl.requestsPerSecond.mulFin (seconds (rl.clientIdleEviction + 1))) := by
  obtain ⟨hburst, httl⟩ := of_validateRateLimit rl path hvalid
  constructor
  · intro h
    obtain ⟨burst, hnat⟩ := Int.eq_ofNat_of_zero_le (le_of_lt hburst)
    have hrun := h (spendAndReturn burst rl.clientIdleEviction) (spendAndReturn_ordered burst httl)
    unfold limiterOf at hrun
    rw [hnat] at hburst hrun ⊢
    exact covers_of_invisible _ burst (Int.natCast_pos.mp hburst) _ httl hrun
  · intro hcovers run hordered
    have hrefills : RefillsWhileIdle rl.requestsPerSecond rl.burst rl.clientIdleEviction :=
      ⟨Int.cast_pos.mpr hburst, httl, hcovers⟩
    cases run with
    | nil => rfl
    | cons op rest =>
      have hinit : Swept rl.burst op.time (limiterOf rl) (limiterOf rl) := by
        refine ⟨rfl, rfl, rfl, rfl, hrefills, fun _ => .inl rfl, fun _ b hb => ?_⟩
        cases hb
      apply hinit.results _ _ hordered
      intro other hother
      obtain rfl | hrest := List.mem_cons.mp hother
      · exact le_refl _
      · exact (List.pairwise_cons.mp hordered).1 other hrest

/-- One request a minute, a burst of two, and buckets dropped after a second. -/
def minuteLimit : RateLimitConfig :=
  { requestsPerSecond := .fin (1 / 60), burst := 2, clientIdleEviction := 1000000000 }

/-- A client that has spent its burst is granted two more after the sweep. -/
theorem sweep_grants_refused_request :
    validateRateLimit minuteLimit "rate_limit" = [] ∧
      (limiterOf minuteLimit).results (spendAndReturn 2 1000000000) = [true, true, true, true] ∧
      (limiterOf minuteLimit).results ((spendAndReturn 2 1000000000).filter (·.isAllow)) =
        [true, true, false, false] := by
  decide +kernel

/-- Ten requests a second, a burst of twenty, and buckets dropped after a minute. -/
def usualLimit : RateLimitConfig :=
  { requestsPerSecond := .fin 10, burst := 20, clientIdleEviction := 60000000000 }

theorem usualLimit_eviction_invisible :
    validateRateLimit usualLimit "rate_limit" = [] ∧
      ∀ run : List LimiterOp, run.Pairwise (fun a b => a.time ≤ b.time) →
        (limiterOf usualLimit).results run =
          (limiterOf usualLimit).results (run.filter (·.isAllow)) := by
  have hvalid : validateRateLimit usualLimit "rate_limit" = [] := by decide +kernel
  refine ⟨hvalid, (eviction_invisible_iff usualLimit "rate_limit" hvalid).mpr ?_⟩
  decide +kernel

end HootLb.Ratelimit
