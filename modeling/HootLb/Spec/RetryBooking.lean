import HootLb.Spec.RetryRun

/-!
# What is booked for an attempt

After an attempt the transport tells the balancer, the health checker, the
breaker and the metrics how it went. With retries three things can go wrong. The
backend all of them are told about is the Director's, although every retry picks
its own. The breaker's verdict follows the list of retryable statuses, where the
plain path asks for a status of 500 or more. And a retryable status on the last
attempt is returned as an error, its response closed.

## Key results

- `attribution_iff`: when everything that is booked names the backend that was asked
- `one_verdict_iff`: when every attempt gives the breaker the verdict it should
- `response_kept_iff`: when the response of the last attempt is returned
-/

namespace HootLb.L7

open Balancer HootLb.Runtime HootLb.Retry

/-! ## Attribution -/

/-- The backend a call is about, for the calls that account for an attempt. -/
def Effect.booked : Effect → Option String
  | .release addr => some addr
  | .reportFailure addr => some addr
  | .recordFailure addr => some addr
  | .recordSuccess addr => some addr
  | .connectionsTotal _ addr => some addr
  | .connectionsActive _ addr _ => some addr
  | .dialFailures _ addr => some addr
  | .backendLatency _ addr => some addr
  | .requestDuration _ addr => some addr
  | .acquire _ | .send _ | .discardBody _ => none

/-- The host an attempt is sent to. -/
def Effect.sent : Effect → Option String
  | .send host => some host
  | _ => none

/-- Everything that is booked names the host of the attempt under way, which is the
    one sent last. -/
def Attributed : Option String → List Effect → Prop
  | _, [] => True
  | host, e :: rest =>
    (∀ addr, e.booked = some addr → host = some addr) ∧ Attributed (e.sent.or host) rest

/-- Calls of which none is a `send`. -/
def SendFree (es : List Effect) : Prop := ∀ e ∈ es, e.sent = none

section SendFree

@[simp] theorem sendFree_nil : SendFree [] := nofun

@[simp] theorem sendFree_cons (e : Effect) (es : List Effect) :
    SendFree (e :: es) ↔ e.sent = none ∧ SendFree es := by
  simp only [SendFree, List.mem_cons, forall_eq_or_imp]

@[simp] theorem sendFree_append (es fs : List Effect) :
    SendFree (es ++ fs) ↔ SendFree es ∧ SendFree fs := by
  simp only [SendFree, List.mem_append, or_imp, forall_and]

@[simp] theorem sendFree_if (c : Bool) (es : List Effect) :
    SendFree (if c = true then es else []) ↔ (c = true → SendFree es) := by
  cases c <;> simp

end SendFree

/-- Whatever is booked in `es` names `host`. -/
def NamesOnly (host : String) (es : List Effect) : Prop :=
  ∀ e ∈ es, ∀ addr, e.booked = some addr → host = addr

section NamesOnly

variable (host : String)

@[simp] theorem namesOnly_nil : NamesOnly host [] := nofun

@[simp] theorem namesOnly_cons (e : Effect) (es : List Effect) :
    NamesOnly host (e :: es) ↔
      (∀ addr, e.booked = some addr → host = addr) ∧ NamesOnly host es := by
  simp only [NamesOnly, List.mem_cons, forall_eq_or_imp]

@[simp] theorem namesOnly_append (es fs : List Effect) :
    NamesOnly host (es ++ fs) ↔ NamesOnly host es ∧ NamesOnly host fs := by
  simp only [NamesOnly, List.mem_append, or_imp, forall_and]

@[simp] theorem namesOnly_if (c : Bool) (es : List Effect) :
    NamesOnly host (if c = true then es else []) ↔ (c = true → NamesOnly host es) := by
  cases c <;> simp

/-- The booking of one attempt follows its `send`. -/
theorem attributed_attempt (before : Option String) (es rest : List Effect)
    (hsent : SendFree es) :
    Attributed before (.send host :: (es ++ rest)) ↔
      NamesOnly host es ∧ Attributed (some host) rest := by
  have hes : Attributed (some host) (es ++ rest) ↔
      NamesOnly host es ∧ Attributed (some host) rest := by
    induction es with
    | nil => simp
    | cons e es ih =>
      have he : e.sent.or (some host) = some host := by
        rw [hsent e List.mem_cons_self]
        rfl
      rw [List.cons_append, Attributed, he, ih fun e' h => hsent e' (List.mem_cons_of_mem e h),
        namesOnly_cons]
      simp only [Option.some.injEq, and_assoc]
  simp only [Attributed, Effect.booked, Effect.sent, reduceCtorEq, false_implies, implies_true,
    true_and]
  exact hes

end NamesOnly

section Attempt

variable (ctx : Context) (rcfg : RetryConfig) (b₀ : String)

/-- Whether anything is booked for an attempt with this result, its response body
    being closed `closes` times. -/
def Context.books (closes : Nat) : Except String Int → Bool
  | .error _ => ctx.releaser || ctx.fr || ctx.outcome || ctx.metrics.isSome
  | .ok code =>
    if isRetryable code rcfg.retryableStatusCodes then ctx.outcome || ctx.metrics.isSome
    else
      ctx.outcome || ctx.metrics.any (·.backendLatency) ||
        (decide (0 < closes) && (ctx.releaser || ctx.metrics.isSome))

/-- A metric update names the backend when metrics are on. -/
theorem namesOnly_metric (host : String) (f : String → List Effect)
    (hf : ∀ pool, NamesOnly host (f pool) ↔ host = b₀) :
    NamesOnly host (ctx.metric f) ↔ (ctx.metrics.isSome = true → host = b₀) := by
  unfold Context.metric
  cases ctx.metrics with
  | none => simp
  | some m => simp [hf]

theorem namesOnly_latency (host : String) :
    NamesOnly host (ctx.latency b₀) ↔
      (ctx.metrics.any (·.backendLatency) = true → host = b₀) := by
  unfold Context.latency
  cases ctx.metrics with
  | none => simp
  | some m => simp [Effect.booked]

theorem sendFree_metric (f : String → List Effect) (hf : ∀ pool, SendFree (f pool)) :
    SendFree (ctx.metric f) := by
  unfold Context.metric
  cases ctx.metrics with
  | none => exact sendFree_nil
  | some m => exact hf m.pool

theorem sendFree_latency : SendFree (ctx.latency b₀) := by
  unfold Context.latency
  cases ctx.metrics with
  | none => exact sendFree_nil
  | some m => simp [Effect.sent]

/-- An attempt is sent once. -/
theorem afterSend_sendFree (hb : ctx.backend = some b₀) (closes k : Nat) (host : String)
    (result : Except String Int) : SendFree (ctx.afterSend rcfg closes k host result) := by
  rw [afterSend_eq ctx rcfg b₀ hb]
  cases result with
  | error why =>
    simp [Effect.sent, sendFree_metric]
  | ok code =>
    dsimp only
    split
    · simp [Effect.sent, sendFree_metric]
    · by_cases hcloses : 0 < closes <;>
        simp [hcloses, Effect.sent, sendFree_metric, sendFree_latency, Context.wrapBody]

/-- An attempt is booked on the Director's backend. -/
theorem afterSend_namesOnly (hb : ctx.backend = some b₀) (closes k : Nat) (host : String)
    (result : Except String Int) :
    NamesOnly host (ctx.afterSend rcfg closes k host result) ↔
      (ctx.books rcfg closes result = true → host = b₀) := by
  rw [afterSend_eq ctx rcfg b₀ hb]
  cases result with
  | error why =>
    rw [namesOnly_append, namesOnly_metric ctx b₀ host _ (by simp [Effect.booked])]
    simp [Effect.booked, Context.books, or_imp, and_assoc]
  | ok code =>
    simp only [Context.books]
    split
    · rw [namesOnly_cons, namesOnly_append,
        namesOnly_metric ctx b₀ host _ (by simp [Effect.booked])]
      simp [Effect.booked, or_imp]
    · rw [namesOnly_append, namesOnly_append, namesOnly_latency]
      by_cases hcloses : 0 < closes
      · simp only [hcloses, if_true, Context.wrapBody, namesOnly_append]
        rw [namesOnly_metric ctx b₀ host _ (by simp [Effect.booked])]
        simp [Effect.booked, or_imp, and_assoc]
      · simp [hcloses, Effect.booked, or_imp]

/-- One attempt in a log. -/
theorem attributed_fullLog (hctx : ctx.Directed b₀) (io : Nat → AttemptIO) (closes k : Nat)
    (before : Option String) (rest : List Effect) :
    Attributed before (fullLog ctx rcfg io closes k ++ rest) ↔
      (ctx.books rcfg closes (io k).result = true → sentTo ctx io k = b₀) ∧
      Attributed (some (sentTo ctx io k)) rest := by
  have hacquire : ∀ log, Attributed before
      ((if k = 0 then [] else acquireIf ctx.releaser (sentTo ctx io k)) ++ log) ↔
        Attributed before log := by
    intro log
    unfold acquireIf
    split
    · rfl
    · split
      · simp [Attributed, Effect.booked, Effect.sent]
      · rfl
  unfold fullLog
  rw [List.append_assoc, hacquire, List.cons_append,
    attributed_attempt _ _ _ _ (afterSend_sendFree ctx rcfg b₀ hctx.backend closes k _ _),
    afterSend_namesOnly ctx rcfg b₀ hctx.backend]

theorem attributed_flatMap (hctx : ctx.Directed b₀) (io : Nat → AttemptIO) (closes : Nat)
    (ks : List Nat) (before : Option String) :
    Attributed before (ks.flatMap (fullLog ctx rcfg io closes)) ↔
      ∀ k ∈ ks, ctx.books rcfg closes (io k).result = true → sentTo ctx io k = b₀ := by
  induction ks generalizing before with
  | nil => simp [Attributed]
  | cons k ks ih =>
    rw [List.flatMap_cons, attributed_fullLog ctx rcfg b₀ hctx, ih]
    simp only [List.mem_cons, forall_eq_or_imp]

/-- Without retries there is one attempt. -/
theorem roundTripSingle_sends (hb : ctx.backend = some b₀) (result : Except String Int)
    (closes : Nat) :
    ∃ es, (ctx.roundTripSingle result).1 ++ (ctx.roundTripSingle result).2.closing closes =
      .send ctx.host :: es ∧ SendFree es ∧ NamesOnly b₀ es := by
  have hmetric : ∀ f, (∀ pool, NamesOnly b₀ (f pool)) → NamesOnly b₀ (ctx.metric f) :=
    fun f hf => (namesOnly_metric ctx b₀ b₀ f fun pool => iff_of_true (hf pool) rfl).mpr
      fun _ => rfl
  have hlatency : NamesOnly b₀ (ctx.latency b₀) :=
    (namesOnly_latency ctx b₀ b₀).mpr fun _ => rfl
  refine ⟨_, roundTripSingle_log ctx b₀ hb closes result, ?_, ?_⟩
  · cases result with
    | error why => simp [Effect.sent, sendFree_metric]
    | ok code =>
      by_cases hcode : code ≥ 500 <;> by_cases hcloses : 0 < closes <;>
        simp [Effect.sent, sendFree_metric, sendFree_latency, hcode, hcloses, Context.wrapBody]
  · cases result with
    | error why => simp [Effect.booked, hmetric]
    | ok code =>
      by_cases hcode : code ≥ 500 <;> by_cases hcloses : 0 < closes <;>
        simp [Effect.booked, hmetric, hlatency, hcode, hcloses, Context.wrapBody]

end Attempt

/-- Everything booked for an attempt names the backend it was sent to exactly when
    every retry for which something is booked picks the Director's backend again. -/
theorem attribution_iff (ctx : Context) (b₀ : String) (hctx : ctx.Directed b₀)
    (rcfg : RetryConfig) (body : RequestBody) (start : Int) (io : Nat → AttemptIO)
    (closes : Nat) :
    Attributed none ((ctx.roundTripWithRetry rcfg body start io).1 ++
        (ctx.roundTripWithRetry rcfg body start io).2.closing closes) ↔
      ∀ k, 0 < k → Attempted rcfg start io body k →
        ctx.books rcfg closes (io k).result = true → (io k).pick = .ok b₀ := by
  cases roundTripWithRetry_run ctx rcfg start io body with
  | single hmax hrun =>
    obtain ⟨es, hlog, hsend, hnames⟩ :=
      roundTripSingle_sends ctx b₀ hctx.backend (io 0).result closes
    have hattr : Attributed none (.send ctx.host :: (es ++ [])) :=
      (attributed_attempt ctx.host none es [] hsend).mpr ⟨hctx.host ▸ hnames, trivial⟩
    rw [List.append_nil] at hattr
    rw [hrun, hlog]
    refine iff_of_true hattr fun k hk hat => ?_
    simp only [Attempted, hmax, if_true] at hat
    omega
  | unread hmax hnone why hrun =>
    rw [hrun]
    exact iff_of_true trivial fun k _ hat => absurd hat (hnone k)
  | loop hmax size n hsize hmade hfailed hlog hresult =>
    rw [hlog, attributed_flatMap ctx rcfg b₀ hctx]
    simp only [List.mem_range, Nat.lt_succ_iff, ← hmade]
    constructor
    · intro h k hk hat hbooks
      obtain ⟨j, rfl⟩ : ∃ j, k = j + 1 := ⟨k - 1, by omega⟩
      exact (sentTo_eq_iff ctx rcfg start io body j hat b₀).mp (h (j + 1) hat hbooks)
    · intro h k hat hbooks
      cases k with
      | zero => exact hctx.host
      | succ j =>
        exact (sentTo_eq_iff ctx rcfg start io body j hat b₀).mpr
          (h (j + 1) (Nat.succ_pos j) hat hbooks)

/-- Two attempts on a 503 with the largest budget ratio that validation accepts. -/
def twoAttempts : RetryConfig :=
  { maxAttempts := 2, retryBudgetRatio := .fin 1, backoffBase := 100000000
    backoffMax := 1000000000, retryableStatusCodes := [503], maxBodyBytes := 1048576 }

/-- A request for which the Director picked `10.0.0.1:8080`, in a pool with a
    health checker and a breaker. -/
def watchedContext (retry : Option RetryConfig) : Context :=
  { err := none, backend := some "10.0.0.1:8080", releaser := false, fr := true, outcome := true
    metrics := none, retry, host := "10.0.0.1:8080" }

theorem watchedContext_directed (retry : Option RetryConfig) :
    (watchedContext retry).Directed "10.0.0.1:8080" := ⟨rfl, rfl, rfl⟩

/-- The first attempt is answered 503 after eleven seconds; the second goes to
    `other`, which refuses the connection. -/
def refusedByOther (other : String) (attempt : Nat) : AttemptIO :=
  { now := 11000000000, draw := 0, pick := .ok other
    result := if attempt = 0 then .ok 503 else .error "connection refused" }

/-- The backend that answered is reported for the one that refused. -/
theorem retry_blames_first_backend :
    ((watchedContext (some twoAttempts)).roundTripWithRetry twoAttempts .absent 0
        (refusedByOther "10.0.0.2:8080")).1 =
      [.send "10.0.0.1:8080", .discardBody "10.0.0.1:8080", .recordFailure "10.0.0.1:8080",
        .send "10.0.0.2:8080", .reportFailure "10.0.0.1:8080", .recordFailure "10.0.0.1:8080"] ∧
    ¬ Attributed none (((watchedContext (some twoAttempts)).roundTripWithRetry twoAttempts .absent 0
        (refusedByOther "10.0.0.2:8080")).1 ++
      ((watchedContext (some twoAttempts)).roundTripWithRetry twoAttempts .absent 0
        (refusedByOther "10.0.0.2:8080")).2.closing 0) := by
  have hrun : (watchedContext (some twoAttempts)).roundTripWithRetry twoAttempts .absent 0
      (refusedByOther "10.0.0.2:8080") =
        ([.send "10.0.0.1:8080", .discardBody "10.0.0.1:8080", .recordFailure "10.0.0.1:8080",
          .send "10.0.0.2:8080", .reportFailure "10.0.0.1:8080", .recordFailure "10.0.0.1:8080"],
          .error (some (.transport "connection refused"))) := by
    decide +kernel
  rw [hrun]
  refine ⟨rfl, ?_⟩
  simp [Attributed, Effect.booked, Effect.sent, RoundTripResult.closing]

/-- The theorem at a retry that picks the same backend again. -/
theorem retry_on_same_backend_attributed :
    Attributed none (((watchedContext (some twoAttempts)).roundTripWithRetry twoAttempts .absent 0
        (refusedByOther "10.0.0.1:8080")).1 ++
      ((watchedContext (some twoAttempts)).roundTripWithRetry twoAttempts .absent 0
        (refusedByOther "10.0.0.1:8080")).2.closing 0) :=
  (attribution_iff (watchedContext (some twoAttempts)) "10.0.0.1:8080"
    (watchedContext_directed _) twoAttempts .absent 0 (refusedByOther "10.0.0.1:8080") 0).mpr
    fun _ _ _ _ => rfl

/-! ## Verdicts -/

/-- An attempt begins, or the breaker hears how it ended. -/
inductive Signal where
  | sent
  | failure
  | success
  deriving DecidableEq

def Effect.signal : Effect → Option Signal
  | .send _ => some .sent
  | .recordFailure _ => some .failure
  | .recordSuccess _ => some .success
  | _ => none

def signals (log : List Effect) : List Signal := log.filterMap Effect.signal

/-- The number of attempts in a log. -/
def attemptsIn (log : List Effect) : Nat := (log.filterMap Effect.sent).length

/-- What the breaker should hear about an attempt: a transport error and a status
    of 500 or more are failures, everything else is a success. -/
def verdict : Except String Int → Signal
  | .error _ => .failure
  | .ok code => if code ≥ 500 then .failure else .success

/-- Every attempt in the log is followed by its verdict, and there are no others. -/
def OneVerdictEach (io : Nat → AttemptIO) (log : List Effect) : Prop :=
  signals log = (List.range (attemptsIn log)).flatMap fun k => [.sent, verdict (io k).result]

/-- What the retry loop tells the breaker about an attempt. -/
def loopVerdict (rcfg : RetryConfig) : Except String Int → Signal
  | .error _ => .failure
  | .ok code => if isRetryable code rcfg.retryableStatusCodes then .failure else .success

theorem loopVerdict_eq_iff (rcfg : RetryConfig) (result : Except String Int) :
    loopVerdict rcfg result = verdict result ↔
      ∀ code, result = .ok code →
        (isRetryable code rcfg.retryableStatusCodes = true ↔ 500 ≤ code) := by
  cases result with
  | error why => exact iff_of_true rfl nofun
  | ok code =>
    simp only [loopVerdict, verdict, Except.ok.injEq, forall_eq', ge_iff_le]
    by_cases hretry : isRetryable code rcfg.retryableStatusCodes = true <;>
      by_cases hcode : 500 ≤ code <;> simp [hretry, hcode]

section Verdict

variable (ctx : Context) (rcfg : RetryConfig) (b₀ : String)

@[simp] theorem signals_nil : signals [] = [] := rfl

@[simp] theorem signals_cons (e : Effect) (es : List Effect) :
    signals (e :: es) = e.signal.toList ++ signals es := by
  unfold signals
  cases h : e.signal with
  | none => rw [List.filterMap_cons_none h]; rfl
  | some s => rw [List.filterMap_cons_some h]; rfl

@[simp] theorem signals_append (es fs : List Effect) :
    signals (es ++ fs) = signals es ++ signals fs := List.filterMap_append

/-- Metrics tell the breaker nothing. -/
private theorem signals_metric (f : String → List Effect) (hf : ∀ pool, signals (f pool) = []) :
    signals (ctx.metric f) = [] := by
  unfold Context.metric
  cases ctx.metrics with
  | none => rfl
  | some m => exact hf m.pool

private theorem signals_latency : signals (ctx.latency b₀) = [] := by
  unfold Context.latency
  cases ctx.metrics with
  | none => rfl
  | some m =>
    dsimp only
    split <;> rfl

/-- Closing a response tells the breaker nothing. -/
private theorem signals_onClose : signals (ctx.wrapBody b₀).onClose = [] := by
  simp only [Context.wrapBody, signals_append]
  rw [signals_metric ctx _ fun _ => rfl]
  cases ctx.releaser <;> rfl

private theorem signals_closing (closes : Nat) :
    signals (if 0 < closes then (ctx.wrapBody b₀).onClose else []) = [] := by
  split
  · exact signals_onClose ctx b₀
  · rfl

theorem signals_fullLog (hctx : ctx.Directed b₀) (hout : ctx.outcome = true)
    (io : Nat → AttemptIO) (closes k : Nat) :
    signals (fullLog ctx rcfg io closes k) = [.sent, loopVerdict rcfg (io k).result] := by
  have hacquire :
      signals (if k = 0 then [] else acquireIf ctx.releaser (sentTo ctx io k)) = [] := by
    unfold acquireIf
    split
    · rfl
    · split <;> rfl
  have hafter : ∀ host, signals (ctx.afterSend rcfg closes k host (io k).result) =
      [loopVerdict rcfg (io k).result] := by
    intro host
    rw [afterSend_eq ctx rcfg b₀ hctx.backend]
    cases (io k).result with
    | error why =>
      simp only [signals_append, hout, if_true]
      rw [signals_metric ctx _ fun _ => rfl]
      cases ctx.releaser <;> cases ctx.fr <;> rfl
    | ok code =>
      simp only [loopVerdict, hout, if_true]
      split
      · simp only [signals_cons, signals_append]
        rw [signals_metric ctx _ fun _ => rfl]
        rfl
      · simp only [signals_append, signals_latency, signals_closing]
        rfl
  simp only [fullLog, signals_append, hacquire, signals_cons, hafter]
  rfl

/-- The plain path gives the verdict it should. -/
theorem signals_roundTripSingle (hctx : ctx.Directed b₀) (hout : ctx.outcome = true)
    (closes : Nat) (result : Except String Int) :
    signals ((ctx.roundTripSingle result).1 ++ (ctx.roundTripSingle result).2.closing closes) =
      [.sent, verdict result] := by
  rw [roundTripSingle_log ctx b₀ hctx.backend]
  cases result with
  | error why =>
    simp only [signals_cons, signals_append, hout, if_true]
    rw [signals_metric ctx _ fun _ => rfl]
    cases ctx.releaser <;> cases ctx.fr <;> rfl
  | ok code =>
    simp only [signals_cons, signals_append, hout, if_true, signals_latency, signals_closing,
      verdict]
    by_cases hcode : code ≥ 500 <;> simp only [hcode, if_true, if_false] <;> rfl

/-- Attempts in a log. -/
theorem attemptsIn_fullLog (hctx : ctx.Directed b₀) (io : Nat → AttemptIO) (closes : Nat)
    (ks : List Nat) : attemptsIn (ks.flatMap (fullLog ctx rcfg io closes)) = ks.length := by
  have hone : ∀ k, (fullLog ctx rcfg io closes k).filterMap Effect.sent = [sentTo ctx io k] := by
    intro k
    have hnil := List.filterMap_eq_nil_iff.mpr
      (afterSend_sendFree ctx rcfg b₀ hctx.backend closes k (sentTo ctx io k) (io k).result)
    have hsend : (Effect.send (sentTo ctx io k)).sent = some (sentTo ctx io k) := rfl
    unfold fullLog acquireIf
    rw [List.filterMap_append, List.filterMap_cons_some hsend, hnil]
    split
    · rfl
    · split <;> rfl
  unfold attemptsIn
  rw [List.filterMap_flatMap]
  simp [hone]

/-- Two sequences of verdicts agree when they do so for every attempt. -/
theorem verdicts_eq_iff (f g : Nat → Signal) (ks : List Nat) :
    (ks.flatMap fun k => [.sent, f k]) = (ks.flatMap fun k => [.sent, g k]) ↔
      ∀ k ∈ ks, f k = g k := by
  induction ks with
  | nil => simp
  | cons k ks ih => simp [ih]

end Verdict

theorem attemptsIn_roundTripSingle (ctx : Context) (b₀ : String) (hb : ctx.backend = some b₀)
    (result : Except String Int) (closes : Nat) :
    attemptsIn ((ctx.roundTripSingle result).1 ++
      (ctx.roundTripSingle result).2.closing closes) = 1 := by
  obtain ⟨es, hlog, hsend, -⟩ := roundTripSingle_sends ctx b₀ hb result closes
  have hhost : (Effect.send ctx.host).sent = some ctx.host := rfl
  rw [hlog, attemptsIn, List.filterMap_cons_some hhost, List.filterMap_eq_nil_iff.mpr hsend]
  rfl

/-- The plain path gives every attempt its verdict. -/
theorem roundTripSingle_oneVerdict (ctx : Context) (b₀ : String) (hctx : ctx.Directed b₀)
    (hout : ctx.outcome = true) (io : Nat → AttemptIO) (closes : Nat) :
    OneVerdictEach io ((ctx.roundTripSingle (io 0).result).1 ++
      (ctx.roundTripSingle (io 0).result).2.closing closes) := by
  unfold OneVerdictEach
  rw [attemptsIn_roundTripSingle ctx b₀ hctx.backend, signals_roundTripSingle ctx b₀ hctx hout]
  rfl

/-- The retry path does when the retryable statuses it meets are those of 500 or
    more. -/
theorem roundTripWithRetry_oneVerdict (ctx : Context) (b₀ : String) (hctx : ctx.Directed b₀)
    (hout : ctx.outcome = true) (rcfg : RetryConfig) (body : RequestBody) (start : Int)
    (io : Nat → AttemptIO) (closes : Nat) :
    OneVerdictEach io ((ctx.roundTripWithRetry rcfg body start io).1 ++
        (ctx.roundTripWithRetry rcfg body start io).2.closing closes) ↔
      (2 ≤ rcfg.maxAttempts → ∀ k, Attempted rcfg start io body k →
        ∀ code, (io k).result = .ok code →
          (isRetryable code rcfg.retryableStatusCodes = true ↔ 500 ≤ code)) := by
  cases roundTripWithRetry_run ctx rcfg start io body with
  | single hmax hrun =>
    rw [hrun]
    exact iff_of_true (roundTripSingle_oneVerdict ctx b₀ hctx hout io closes)
      fun hmax' => absurd hmax' (by omega)
  | unread hmax hnone why hrun =>
    rw [hrun]
    exact iff_of_true rfl fun _ k hat => absurd hat (hnone k)
  | loop hmax size n hsize hmade hfailed hlog hresult =>
    rw [hlog]
    unfold OneVerdictEach
    rw [attemptsIn_fullLog ctx rcfg b₀ hctx, List.length_range, signals, List.filterMap_flatMap]
    have heach : ∀ k, (fullLog ctx rcfg io closes k).filterMap Effect.signal =
        [.sent, loopVerdict rcfg (io k).result] :=
      fun k => signals_fullLog ctx rcfg b₀ hctx hout io closes k
    simp only [heach]
    rw [verdicts_eq_iff]
    simp only [List.mem_range, Nat.lt_succ_iff, ← hmade, loopVerdict_eq_iff, hmax, true_implies]

/-- The breaker hears one verdict for every attempt, and the right one, exactly
    when a request with retries gets no status below 500 that is retryable and none
    of 500 or more that is not. -/
theorem one_verdict_iff (ctx : Context) (b₀ : String) (hctx : ctx.Directed b₀)
    (hout : ctx.outcome = true) (body : RequestBody) (start : Int) (io : Nat → AttemptIO)
    (closes : Nat) :
    OneVerdictEach io ((ctx.roundTrip body start io).1 ++
        (ctx.roundTrip body start io).2.closing closes) ↔
      ∀ rcfg, ctx.retry = some rcfg → 2 ≤ rcfg.maxAttempts →
        ∀ k, Attempted rcfg start io body k → ∀ code, (io k).result = .ok code →
          (isRetryable code rcfg.retryableStatusCodes = true ↔ 500 ≤ code) := by
  simp only [Context.roundTrip, hctx.err]
  cases hretry : ctx.retry with
  | none => exact iff_of_true (roundTripSingle_oneVerdict ctx b₀ hctx hout io closes) nofun
  | some rcfg =>
    dsimp only
    rw [roundTripWithRetry_oneVerdict ctx b₀ hctx hout]
    simp only [Option.some.injEq, forall_eq']

/-- A single attempt that is answered at once. -/
def answeredWith (code : Int) (_ : Nat) : AttemptIO :=
  { now := 0, draw := 0, pick := .ok "10.0.0.2:8080", result := .ok code }

/-- With 404 configured as retryable, a 404 counts against the backend, and a 500
    for it. -/
theorem retryable_list_decides_verdict :
    signals ((watchedContext (some { twoAttempts with
        retryableStatusCodes := [404] })).roundTrip .absent 0 (answeredWith 404)).1 =
      [.sent, .failure] ∧
    signals ((watchedContext (some { twoAttempts with
        retryableStatusCodes := [404] })).roundTrip .absent 0 (answeredWith 500)).1 =
      [.sent, .success] ∧
    ¬ OneVerdictEach (answeredWith 404) (((watchedContext (some { twoAttempts with
        retryableStatusCodes := [404] })).roundTrip .absent 0 (answeredWith 404)).1 ++
      ((watchedContext (some { twoAttempts with
        retryableStatusCodes := [404] })).roundTrip .absent 0 (answeredWith 404)).2.closing 1) := by
  unfold OneVerdictEach
  decide +kernel

/-- The theorem at a request whose two attempts end in a 503 and a refused
    connection. -/
theorem retried_503_gives_two_verdicts :
    OneVerdictEach (refusedByOther "10.0.0.2:8080")
      (((watchedContext (some twoAttempts)).roundTrip .absent 0
          (refusedByOther "10.0.0.2:8080")).1 ++
        ((watchedContext (some twoAttempts)).roundTrip .absent 0
          (refusedByOther "10.0.0.2:8080")).2.closing 1) := by
  refine (one_verdict_iff (watchedContext (some twoAttempts)) "10.0.0.1:8080"
    (watchedContext_directed _) rfl .absent 0 (refusedByOther "10.0.0.2:8080") 1).mpr ?_
  intro rcfg hrcfg _ k _ code hcode
  cases hrcfg
  unfold refusedByOther at hcode
  dsimp only at hcode
  split at hcode
  · cases hcode
    decide
  · exact nomatch hcode

/-! ## Responses -/

theorem closing_zero (r : RoundTripResult) : r.closing 0 = [] := by
  cases r <;> rfl

/-- If the last attempt got a response, it is what is returned; and a single
    attempt ends as it would without retries. -/
structure ResponseKept (ctx : Context) (b₀ : String) (io : Nat → AttemptIO)
    (run : List Effect × RoundTripResult) : Prop where
  last : ∀ n, attemptsIn run.1 = n + 1 → ∀ code, (io n).result = .ok code →
    run.2 = .response code (ctx.wrapBody b₀)
  single : attemptsIn run.1 = 1 → run.2 = (ctx.roundTripSingle (io 0).result).2

section Response

variable (ctx : Context) (rcfg : RetryConfig) (b₀ : String) (bodyRetryable : Bool) (start : Int)
  (io : Nat → AttemptIO)

theorem roundTripSingle_result (hb : ctx.backend = some b₀) (result : Except String Int) :
    (ctx.roundTripSingle result).2 =
      match result with
      | .error why => .error (some (.transport why))
      | .ok code => .response code (ctx.wrapBody b₀) := by
  cases result <;> simp only [Context.roundTripSingle, hb]

/-- The response of the last attempt is returned unless its status is retryable. -/
theorem exitResult_response_iff (hb : ctx.backend = some b₀) (n : Nat) (code : Int)
    (hcode : (io n).result = .ok code) :
    exitResult ctx rcfg bodyRetryable start io n = .response code (ctx.wrapBody b₀) ↔
      isRetryable code rcfg.retryableStatusCodes = false := by
  have houtcome := tryAttempt_outcome ctx rcfg b₀ hb n (sentTo ctx io n) (io n).result
  rw [hcode] at houtcome
  unfold exitResult
  rw [hcode, houtcome]
  cases hretry : isRetryable code rcfg.retryableStatusCodes with
  | false => simp [hretry]
  | true =>
    refine iff_of_false ?_ (by simp)
    simp only [hretry, if_true]
    -- every exit after a retryable status is an error or a panic
    split
    · split
      · exact nofun
      · split <;> exact nofun
    · exact nofun

/-- The error of a first attempt is returned unless the loop goes on to a retry
    that is not made. -/
theorem exitResult_error_iff (hmax : 2 ≤ rcfg.maxAttempts) (why : String)
    (hwhy : (io 0).result = .error why) :
    exitResult ctx rcfg bodyRetryable start io 0 = .error (some (.transport why)) ↔
      (bodyRetryable &&
        ((newBudgetFromRatio rcfg.retryBudgetRatio start).recordRetry.allow (io 1).now).1) =
          false := by
  have hfailed : failedAttempt rcfg (io 0).result = true := by
    rw [hwhy]
    rfl
  have hleft : ((0 + 1 : Nat) : Int) < rcfg.maxAttempts := by omega
  rw [exitResult_failed ctx rcfg bodyRetryable start io 0 _ rfl hfailed, hwhy]
  simp only [hleft, true_and, attemptError, Nat.zero_add]
  cases bodyRetryable &&
      ((newBudgetFromRatio rcfg.retryBudgetRatio start).recordRetry.allow (io 1).now).1 with
  | false => simp
  | true =>
    refine iff_of_false ?_ (by simp)
    simp only [if_true]
    split
    · intro h
      cases h
    · split
      · simp
      · intro h
        cases h

end Response

/-- A request with a retry configuration keeps the response of its last attempt,
    and a single attempt ends as without retries, exactly when the last attempt has
    no retryable status and, if it is the first and the connection failed, the body
    or the budget ends the loop. -/
theorem response_kept_iff (ctx : Context) (b₀ : String) (hctx : ctx.Directed b₀)
    (rcfg : RetryConfig) (body : RequestBody) (start : Int) (io : Nat → AttemptIO) :
    ResponseKept ctx b₀ io (ctx.roundTripWithRetry rcfg body start io) ↔
      (2 ≤ rcfg.maxAttempts → ∀ n, Attempted rcfg start io body n →
        ¬ Attempted rcfg start io body (n + 1) →
        NoRetryableStatus rcfg (io n).result ∧
        (n = 0 → ∀ why, (io 0).result = .error why → ∀ size, body.size = some size →
          (isRetryableBody size rcfg.maxBodyBytes &&
            ((newBudgetFromRatio rcfg.retryBudgetRatio start).recordRetry.allow (io 1).now).1) =
              false)) := by
  cases roundTripWithRetry_run ctx rcfg start io body with
  | single hmax hrun =>
    rw [hrun]
    have hone := attemptsIn_roundTripSingle ctx b₀ hctx.backend (io 0).result 0
    rw [closing_zero, List.append_nil] at hone
    refine iff_of_true ⟨fun n hn code hcode => ?_, fun _ => rfl⟩ fun hmax' =>
      absurd hmax' (by omega)
    obtain rfl : n = 0 := by omega
    rw [roundTripSingle_result ctx b₀ hctx.backend, hcode]
  | unread hmax hnone why hrun =>
    rw [hrun]
    exact iff_of_true ⟨nofun, nofun⟩ fun _ n hat => absurd hat (hnone n)
  | loop hmax size n hsize hmade hfailed hlog hresult =>
    have hcount : attemptsIn (ctx.roundTripWithRetry rcfg body start io).1 = n + 1 := by
      have hlog0 := hlog 0
      rw [closing_zero, List.append_nil] at hlog0
      rw [hlog0, attemptsIn_fullLog ctx rcfg b₀ hctx, List.length_range]
    have hlast : ∀ j, Attempted rcfg start io body j → ¬ Attempted rcfg start io body (j + 1) →
        j = n := by
      intro j hj hnext
      rw [hmade] at hj hnext
      omega
    constructor
    · rintro ⟨hkept, hsingle⟩ - j hj hnext
      obtain rfl := hlast j hj hnext
      refine ⟨fun code hcode => ?_, ?_⟩
      · exact (exitResult_response_iff ctx rcfg b₀ _ start io hctx.backend j code hcode).mp
          (hresult.symm.trans (hkept j hcount code hcode))
      · rintro rfl why hwhy size' hsize'
        obtain rfl : size = size' := Option.some.inj (hsize.symm.trans hsize')
        refine (exitResult_error_iff ctx rcfg _ start io hmax why hwhy).mp ?_
        rw [← hresult, hsingle hcount, roundTripSingle_result ctx b₀ hctx.backend, hwhy]
    · intro h
      obtain ⟨hstatus, hfirst⟩ := h hmax n ((hmade n).mpr (Nat.le_refl n))
        (fun hnext => absurd ((hmade (n + 1)).mp hnext) (by omega))
      have hkept : ∀ code, (io n).result = .ok code →
          (ctx.roundTripWithRetry rcfg body start io).2 = .response code (ctx.wrapBody b₀) := by
        intro code hcode
        rw [hresult]
        exact (exitResult_response_iff ctx rcfg b₀ _ start io hctx.backend n code hcode).mpr
          (hstatus code hcode)
      refine ⟨fun j hj code hcode => ?_, fun hj => ?_⟩
      · obtain rfl : j = n := by omega
        exact hkept code hcode
      · obtain rfl : n = 0 := by omega
        rw [roundTripSingle_result ctx b₀ hctx.backend]
        cases hres : (io 0).result with
        | error why =>
          rw [hresult]
          exact (exitResult_error_iff ctx rcfg _ start io hmax why hres).mpr
            (hfirst rfl why hres size hsize)
        | ok code => exact hkept code hres

/-- A 503 that may not be retried, because the budget says no, becomes an error. -/
theorem exhausted_503_becomes_error :
    ((watchedContext (some twoAttempts)).roundTripWithRetry twoAttempts .absent 0
        (answeredWith 503)).2 = .error (some (.retryableStatus 503)) ∧
      ((watchedContext (some twoAttempts)).roundTripSingle (.ok 503)).2 =
        .response 503 { onClose := [], closed := false } ∧
      ¬ ResponseKept (watchedContext (some twoAttempts)) "10.0.0.1:8080" (answeredWith 503)
        ((watchedContext (some twoAttempts)).roundTripWithRetry twoAttempts .absent 0
          (answeredWith 503)) := by
  have hrun : (watchedContext (some twoAttempts)).roundTripWithRetry twoAttempts .absent 0
      (answeredWith 503) =
        ([.send "10.0.0.1:8080", .discardBody "10.0.0.1:8080", .recordFailure "10.0.0.1:8080"],
          .error (some (.retryableStatus 503))) := by
    decide +kernel
  rw [hrun]
  refine ⟨rfl, rfl, fun h => ?_⟩
  exact nomatch h.last 0 rfl 503 rfl

/-- The theorem at a request that is answered 404. -/
theorem answer_404_kept :
    ResponseKept (watchedContext (some twoAttempts)) "10.0.0.1:8080" (answeredWith 404)
      ((watchedContext (some twoAttempts)).roundTripWithRetry twoAttempts .absent 0
        (answeredWith 404)) := by
  refine (response_kept_iff (watchedContext (some twoAttempts)) "10.0.0.1:8080"
    (watchedContext_directed _) twoAttempts .absent 0 (answeredWith 404)).mpr ?_
  intro _ n _ _
  refine ⟨fun code hcode => ?_, nofun⟩
  cases hcode
  decide

end HootLb.L7
