import HootLb.Native.Metrics
import HootLb.Spec.DirectorSound

/-!
# Metric calls of a request

Everything that is counted for a request is counted under the pool label it was
given and under the backend that the Director chose (`requestLog_countedUnder`),
whatever the retries did. The gauge of active connections is taken down once for
each attempt (`requestLog_gaugeCalls`).
-/

namespace HootLb.L7

open Balancer HootLb.Runtime HootLb.Metrics HootLb.Retry

/-- The round trip of a request and what closing its response does. -/
def Context.requestLog (ctx : Context) (body : RequestBody) (start : Int) (io : Nat → AttemptIO)
    (closes : Nat) : List Effect :=
  (ctx.roundTrip body start io).1 ++ (ctx.roundTrip body start io).2.closing closes

theorem httpRequest_eq (directed : List Effect) (ctx : Context) (body : RequestBody) (start : Int)
    (io : Nat → AttemptIO) (closes : Nat) :
    httpRequest directed ctx body start io closes =
      (directed ++ ctx.requestLog body start io closes).flatMap ofEffect := by
  unfold httpRequest Context.requestLog
  dsimp only
  rw [List.append_assoc]
  cases (ctx.roundTrip body start io).2 <;> rfl

/-! ## Labels -/

/-- The pool and the backend a metric update is made under. -/
def Effect.counted : Effect → Option (String × String)
  | .connectionsTotal pool addr => some (pool, addr)
  | .connectionsActive pool addr _ => some (pool, addr)
  | .dialFailures pool addr => some (pool, addr)
  | .backendLatency pool addr => some (pool, addr)
  | .requestDuration pool addr => some (pool, addr)
  | .acquire _ | .release _ | .reportFailure _ | .recordFailure _ | .recordSuccess _ | .send _
  | .discardBody _ => none

/-- Every metric update in `es` is made under these labels. -/
def CountedUnder (pool addr : String) (es : List Effect) : Prop :=
  ∀ e ∈ es, ∀ labels, e.counted = some labels → labels = (pool, addr)

section CountedUnder

variable (pool addr : String)

@[simp] theorem countedUnder_nil : CountedUnder pool addr [] := nofun

@[simp] theorem countedUnder_cons (e : Effect) (es : List Effect) :
    CountedUnder pool addr (e :: es) ↔
      (∀ labels, e.counted = some labels → labels = (pool, addr)) ∧ CountedUnder pool addr es := by
  simp only [CountedUnder, List.mem_cons, forall_eq_or_imp]

@[simp] theorem countedUnder_append (es fs : List Effect) :
    CountedUnder pool addr (es ++ fs) ↔ CountedUnder pool addr es ∧ CountedUnder pool addr fs := by
  simp only [CountedUnder, List.mem_append, or_imp, forall_and]

@[simp] theorem countedUnder_if (c : Prop) [Decidable c] (es fs : List Effect) :
    CountedUnder pool addr (if c then es else fs) ↔
      (c → CountedUnder pool addr es) ∧ (¬ c → CountedUnder pool addr fs) := by
  by_cases hc : c <;> simp [hc]

end CountedUnder

section Request

variable (ctx : Context) (m : L7Metrics) (b₀ : String)

theorem countedUnder_metric (hm : ctx.metrics = some m) (f : String → List Effect)
    (hf : CountedUnder m.pool b₀ (f m.pool)) : CountedUnder m.pool b₀ (ctx.metric f) := by
  simpa only [Context.metric, hm] using hf

theorem countedUnder_latency (hm : ctx.metrics = some m) :
    CountedUnder m.pool b₀ (ctx.latency b₀) := by
  simp [Context.latency, hm, Effect.counted]

theorem countedUnder_onClose (hm : ctx.metrics = some m) :
    CountedUnder m.pool b₀ (ctx.wrapBody b₀).onClose := by
  simp only [Context.wrapBody, countedUnder_append]
  exact ⟨by simp [Effect.counted], countedUnder_metric ctx m b₀ hm _ (by simp [Effect.counted])⟩

theorem fullLog_countedUnder (hctx : ctx.Directed b₀) (hm : ctx.metrics = some m)
    (rcfg : RetryConfig) (io : Nat → AttemptIO) (closes k : Nat) :
    CountedUnder m.pool b₀ (fullLog ctx rcfg io closes k) := by
  unfold fullLog
  rw [countedUnder_append, countedUnder_cons, afterSend_eq ctx rcfg b₀ hctx.backend]
  refine ⟨by simp [acquireIf, Effect.counted], by simp [Effect.counted], ?_⟩
  cases (io k).result with
  | error why =>
    rw [countedUnder_append]
    exact ⟨by simp [Effect.counted],
      countedUnder_metric ctx m b₀ hm _ (by simp [Effect.counted])⟩
  | ok code =>
    -- a retryable status is booked at once, any other answer when its body is closed
    rw [countedUnder_if, countedUnder_cons, countedUnder_append, countedUnder_append]
    refine ⟨fun _ => ⟨by simp [Effect.counted], by simp [Effect.counted], ?_⟩, fun _ => ⟨?_, ?_⟩⟩
    · exact countedUnder_metric ctx m b₀ hm _ (by simp [Effect.counted])
    · simp [Effect.counted, countedUnder_latency ctx m b₀ hm]
    · simp [countedUnder_onClose ctx m b₀ hm]

theorem roundTripSingle_countedUnder (hctx : ctx.Directed b₀) (hm : ctx.metrics = some m)
    (closes : Nat) (result : Except String Int) :
    CountedUnder m.pool b₀
      ((ctx.roundTripSingle result).1 ++ (ctx.roundTripSingle result).2.closing closes) := by
  rw [roundTripSingle_log ctx b₀ hctx.backend, countedUnder_cons]
  refine ⟨by simp [Effect.counted], ?_⟩
  cases result with
  | error why =>
    rw [countedUnder_append]
    exact ⟨by simp [Effect.counted],
      countedUnder_metric ctx m b₀ hm _ (by simp [Effect.counted])⟩
  | ok code =>
    dsimp only
    rw [countedUnder_append, countedUnder_append]
    refine ⟨⟨countedUnder_latency ctx m b₀ hm, ?_⟩, by simp [countedUnder_onClose ctx m b₀ hm]⟩
    by_cases hcode : code ≥ 500 <;> simp [hcode, Effect.counted]

/-- The labels of a request are those of the Director, on every path of the round
    trip. -/
theorem requestLog_countedUnder (hctx : ctx.Directed b₀) (hm : ctx.metrics = some m)
    (body : RequestBody) (start : Int) (io : Nat → AttemptIO) (closes : Nat) :
    CountedUnder m.pool b₀ (ctx.requestLog body start io closes) := by
  unfold Context.requestLog Context.roundTrip
  simp only [hctx.err]
  cases ctx.retry with
  | none => exact roundTripSingle_countedUnder ctx m b₀ hctx hm closes _
  | some rcfg =>
    cases roundTripWithRetry_run ctx rcfg start io body with
    | single _ hrun =>
      dsimp only
      rw [hrun]
      exact roundTripSingle_countedUnder ctx m b₀ hctx hm closes _
    | unread _ _ why hrun =>
      dsimp only
      rw [hrun]
      exact countedUnder_nil m.pool b₀
    | loop _ size n _ _ _ hlog _ =>
      dsimp only
      rw [hlog closes]
      intro e he
      obtain ⟨k, -, hk⟩ := List.mem_flatMap.mp he
      exact fullLog_countedUnder ctx m b₀ hctx hm rcfg io closes k e hk

end Request

/-! ## The gauge -/

/-- The calls on the vector of active connections in a list of effects. -/
def gaugeCallsOf (es : List Effect) : List GaugeCall := gaugeCalls (es.flatMap ofEffect)

section GaugeCalls

@[simp] theorem gaugeCallsOf_nil : gaugeCallsOf [] = [] := rfl

@[simp] theorem gaugeCallsOf_append (es fs : List Effect) :
    gaugeCallsOf (es ++ fs) = gaugeCallsOf es ++ gaugeCallsOf fs := by
  simp [gaugeCallsOf, gaugeCalls]

/-- Only updates of the gauge of active connections are calls on its vector. -/
@[simp] theorem gaugeCallsOf_cons (e : Effect) (es : List Effect) :
    gaugeCallsOf (e :: es) =
      (match e with
        | .connectionsActive pool addr delta =>
          [.withLabels ["", pool, addr, "http"], .adjust delta]
        | _ => []) ++ gaugeCallsOf es := by
  cases e <;> rfl

@[simp] theorem gaugeCallsOf_if (c : Prop) [Decidable c] (es fs : List Effect) :
    gaugeCallsOf (if c then es else fs) = if c then gaugeCallsOf es else gaugeCallsOf fs := by
  by_cases hc : c <;> simp [hc]

@[simp] theorem gaugeCallsOf_latency (ctx : Context) (b : String) :
    gaugeCallsOf (ctx.latency b) = [] := by
  unfold Context.latency
  cases ctx.metrics with
  | none => rfl
  | some m => simp

@[simp] theorem gaugeCallsOf_acquireIf (releaser : Bool) (b : String) :
    gaugeCallsOf (acquireIf releaser b) = [] := by
  simp [acquireIf]

/-- One way down. -/
def takeDown (pool addr : String) : List GaugeCall :=
  [.withLabels ["", pool, addr, "http"], .adjust (-1)]

variable (ctx : Context) (m : L7Metrics) (b₀ : String)

theorem gaugeCallsOf_metric (hm : ctx.metrics = some m) (f : String → List Effect) :
    gaugeCallsOf (ctx.metric f) = gaugeCallsOf (f m.pool) := by
  simp only [Context.metric, hm]

theorem gaugeCallsOf_onClose (hm : ctx.metrics = some m) :
    gaugeCallsOf (ctx.wrapBody b₀).onClose = takeDown m.pool b₀ := by
  simp [Context.wrapBody, gaugeCallsOf_metric ctx m hm, takeDown]

/-- An attempt takes the gauge down once, at its end or when its response is
    closed. -/
theorem fullLog_gaugeCalls (hctx : ctx.Directed b₀) (hm : ctx.metrics = some m)
    (rcfg : RetryConfig) (io : Nat → AttemptIO) (closes k : Nat) :
    gaugeCallsOf (fullLog ctx rcfg io (closes + 1) k) = takeDown m.pool b₀ := by
  unfold fullLog
  rw [gaugeCallsOf_append, gaugeCallsOf_cons, afterSend_eq ctx rcfg b₀ hctx.backend]
  cases (io k).result with
  | error why => simp [gaugeCallsOf_metric ctx m hm, takeDown]
  | ok code =>
    dsimp only
    split <;> simp [gaugeCallsOf_metric ctx m hm, gaugeCallsOf_onClose ctx m b₀ hm, takeDown]

theorem roundTripSingle_gaugeCalls (hctx : ctx.Directed b₀) (hm : ctx.metrics = some m)
    (closes : Nat) (result : Except String Int) :
    gaugeCallsOf ((ctx.roundTripSingle result).1 ++
      (ctx.roundTripSingle result).2.closing (closes + 1)) = takeDown m.pool b₀ := by
  rw [roundTripSingle_log ctx b₀ hctx.backend]
  cases result with
  | error why => simp [gaugeCallsOf_metric ctx m hm, takeDown]
  | ok code =>
    by_cases hcode : code ≥ 500 <;>
      simp [hcode, gaugeCallsOf_onClose ctx m b₀ hm]

/-- Attempt `k` is made for the request. -/
def Context.Attempts (ctx : Context) (body : RequestBody) (start : Int) (io : Nat → AttemptIO)
    (k : Nat) : Prop :=
  match ctx.retry with
  | none => k = 0
  | some rcfg => Attempted rcfg start io body k

/-- As many ways down as attempts. -/
theorem requestLog_gaugeCalls (hctx : ctx.Directed b₀) (hm : ctx.metrics = some m)
    (body : RequestBody) (start : Int) (io : Nat → AttemptIO) (closes : Nat) :
    ∃ n, (∀ k, ctx.Attempts body start io k ↔ k < n) ∧
      gaugeCallsOf (ctx.requestLog body start io (closes + 1)) =
        (List.replicate n (takeDown m.pool b₀)).flatten := by
  unfold Context.requestLog Context.roundTrip Context.Attempts
  simp only [hctx.err]
  cases ctx.retry with
  | none =>
    refine ⟨1, fun k => by simp, ?_⟩
    rw [roundTripSingle_gaugeCalls ctx m b₀ hctx hm]
    rfl
  | some rcfg =>
    cases roundTripWithRetry_run ctx rcfg start io body with
    | single hmax hrun =>
      refine ⟨1, fun k => by simp [Attempted, hmax], ?_⟩
      dsimp only
      rw [hrun, roundTripSingle_gaugeCalls ctx m b₀ hctx hm]
      rfl
    | unread _ hnone why hrun =>
      refine ⟨0, fun k => by simpa using hnone k, ?_⟩
      dsimp only
      rw [hrun]
      rfl
    | loop _ size n _ hmade _ hlog _ =>
      refine ⟨n + 1, fun k => (hmade k).trans Nat.lt_succ_iff.symm, ?_⟩
      dsimp only
      rw [hlog (closes + 1)]
      generalize n + 1 = count
      -- every attempt contributes the same
      induction count with
      | zero => rfl
      | succ count ih =>
        rw [List.range_succ, List.flatMap_append, gaugeCallsOf_append, ih, List.flatMap_singleton,
          fullLog_gaugeCalls ctx m b₀ hctx hm, List.replicate_succ', List.flatten_append]
        simp

end GaugeCalls

end HootLb.L7
