import HootLb.Native.PoolState
import HootLb.Native.Retry

/-!
# The L7 transport

`newDirectorInternal` and `wrappedTransport.RoundTrip`: what the proxy does on
behalf of one request, from the moment its pool is known until the response body
is closed. Both act on shared objects (the balancer's connection counts, the
health checker, the breakers, the metric vectors, the backend itself); every such
call is an `Effect`, and the functions return the effects in order.

What the proxy does not decide is an input: the result of every `Pick`, the
result of every attempt, the request body, the clock and the jitter. A backend is
its address, which is all these functions read of it.
-/

namespace HootLb.L7

open Balancer Config HootLb.Runtime HootLb.Retry

/-- A call on an object shared with other requests. -/
inductive Effect where
  | acquire (addr : String)
  | release (addr : String)
  | reportFailure (addr : String)
  | recordFailure (addr : String)
  | recordSuccess (addr : String)
  | send (host : String)
  | discardBody (host : String)
  | connectionsTotal (pool addr : String)
  | connectionsActive (pool addr : String) (delta : Int)
  | dialFailures (pool addr : String)
  | backendLatency (pool addr : String)
  | requestDuration (pool addr : String)
  deriving DecidableEq

/-- `L7Metrics` as far as it decides what is counted: the pool label, and whether
    latencies are kept. -/
structure L7Metrics where
  pool : String
  backendLatency : Bool
  deriving DecidableEq

/-- `l7.RetryConfig`. -/
structure RetryConfig where
  maxAttempts : Int
  retryBudgetRatio : Float64
  backoffBase : Duration
  backoffMax : Duration
  retryableStatusCodes : List Int
  maxBodyBytes : Int
  deriving DecidableEq

/-- `RetryConfigFromPool`. -/
def retryConfigFromPool (cfg : Option Config.RetryConfig) (maxBodyBytes : Int) :
    Option RetryConfig :=
  cfg.map fun cfg =>
    { maxAttempts := cfg.maxAttempts, retryBudgetRatio := cfg.retryBudgetRatio
      backoffBase := cfg.backoffBase, backoffMax := cfg.backoffMax
      retryableStatusCodes := cfg.retryableStatusCodes
      maxBodyBytes := if maxBodyBytes ≤ 0 then 2 ^ 20 else maxBodyBytes }

/-- `convertRetryConfig` of the wiring. -/
def convertRetryConfig (rc : Option Config.RetryConfig) : Option RetryConfig :=
  retryConfigFromPool rc 0

/-! ## Director -/

/-- What the Director stores in the request context for the transport, and the
    host it puts into the URL. -/
structure Context where
  err : Option String
  backend : Option String
  /-- the balancer implements `ConnReleaser` -/
  releaser : Bool
  /-- there is a `FailureReporter` -/
  fr : Bool
  /-- there is a circuit breaker `Outcome` -/
  outcome : Bool
  metrics : Option L7Metrics
  retry : Option RetryConfig
  host : String
  deriving DecidableEq

/-- Whether the type assertion to `ConnReleaser` succeeds. -/
def isConnReleaser : LoadBalancer Nat → Bool
  | .leastConnections _ => true
  | _ => false

/-- `cr.Acquire(backend)` behind the type assertion. -/
def acquireIf (releaser : Bool) (addr : String) : List Effect :=
  if releaser then [.acquire addr] else []

/-- The Director's backend. `stuck` is the address of a valid sticky cookie; `pick`
    is what `Pick` returns, asked only without one. -/
def chooseBackend (ps : PoolState) (stuck : Option String) (pick : PickResult String) :
    PickResult String :=
  match (if ps.sticky.isSome then stuck else none) with
  | some addr => .ok addr
  | none => pick

/-- `newDirectorInternal` once the pool is chosen. `none` is a panic inside `Pick`. -/
def director (ps : PoolState) (m : Option L7Metrics) (stuck : Option String)
    (pick : PickResult String) : Option (List Effect × Context) :=
  match chooseBackend ps stuck pick with
  | .panic => none
  | .error why =>
    -- only the error is stored, on the context from before
    some ([], { err := some why, backend := none, releaser := false, fr := false, outcome := false
                metrics := none, retry := none, host := "localhost" })
  | .ok backend =>
    let releaser := isConnReleaser ps.lb
    let counted : List Effect :=
      match m with
      | some m => [.connectionsTotal m.pool backend, .connectionsActive m.pool backend 1]
      | none => []
    some (acquireIf releaser backend ++ counted,
      { err := none, backend := some backend, releaser, fr := ps.fr.isSome
        outcome := ps.breakers.isSome, metrics := m, retry := convertRetryConfig ps.retry
        host := backend })

/-! ## Response bodies -/

/-- `releaseBody` and `metricsBody`: what closing does, once. A plain body does
    nothing. -/
structure ResponseBody where
  onClose : List Effect
  closed : Bool
  deriving DecidableEq

/-- `Close`, under `sync.Once`. -/
def ResponseBody.close (b : ResponseBody) : List Effect × ResponseBody :=
  if b.closed then ([], b) else (b.onClose, { b with closed := true })

/-- Close a body `n` times. -/
def ResponseBody.closeTimes (b : ResponseBody) : Nat → List Effect
  | 0 => []
  | n + 1 => b.close.1 ++ b.close.2.closeTimes n

/-- How a round trip ends. -/
inductive RoundTripError where
  | pick (why : String)
  | body (why : String)
  | transport (why : String)
  | retryableStatus (code : Int)
  deriving DecidableEq

inductive RoundTripResult where
  | response (statusCode : Int) (body : ResponseBody)
  | error (why : Option RoundTripError)
  | panic
  deriving DecidableEq

/-! ## Round trip -/

namespace Context

/-- The metric updates for a backend, when metrics are on. -/
def metric (ctx : Context) (f : String → List Effect) : List Effect :=
  match ctx.metrics with
  | some m => f m.pool
  | none => []

/-- The latency observation after the first response byte. -/
def latency (ctx : Context) (backend : String) : List Effect :=
  match ctx.metrics with
  | some m => if m.backendLatency then [.backendLatency m.pool backend] else []
  | none => []

/-- The body the client reads: closing it releases the backend. -/
def wrapBody (ctx : Context) (backend : String) : ResponseBody :=
  { onClose :=
      (if ctx.releaser then [.release backend] else []) ++
      ctx.metric fun pool => [.connectionsActive pool backend (-1), .requestDuration pool backend]
    closed := false }

/-- `roundTripSingle`, given what the base transport returns. -/
def roundTripSingle (ctx : Context) (result : Except String Int) : List Effect × RoundTripResult :=
  match ctx.backend with
  | none =>
    ([.send ctx.host], match result with
      | .error why => .error (some (.transport why))
      | .ok code => .response code { onClose := [], closed := false })
  | some backend =>
    match result with
    | .error why =>
      ([.send ctx.host] ++
        (if ctx.fr then [.reportFailure backend] else []) ++
        (if ctx.outcome then [.recordFailure backend] else []) ++
        (if ctx.releaser then [.release backend] else []) ++
        ctx.metric fun pool => [.connectionsActive pool backend (-1), .dialFailures pool backend]
      , .error (some (.transport why)))
    | .ok code =>
      ([.send ctx.host] ++ ctx.latency backend ++
        (if ctx.outcome then
          if code ≥ 500 then [.recordFailure backend] else [.recordSuccess backend]
        else [])
      , .response code (ctx.wrapBody backend))

end Context

/-- What one iteration of the retry loop finds outside: the clock at
    `budget.Allow`, the jitter, the result of `Pick` (both only on retries) and
    the result of the attempt. -/
structure AttemptIO where
  now : Int
  draw : Nat
  pick : PickResult String
  result : Except String Int

/-- The request body: absent, read to its end, or failing after some bytes. -/
inductive RequestBody where
  | absent
  | complete (size : Nat)
  | failing (size : Nat) (why : String)
  deriving DecidableEq

/-- What the head of an iteration leads to. -/
inductive Prepared where
  /-- leave the loop -/
  | stop
  /-- return from the function -/
  | fail (r : RoundTripResult)
  /-- make the attempt -/
  | go (effects : List Effect) (host : String) (budget : Budget)

namespace Context

/-- The head of an iteration: the first attempt goes to the Director's backend, a
    retry needs a retryable body and the budget, waits, and picks again. -/
def prepare (ctx : Context) (rcfg : RetryConfig) (bodyRetryable : Bool) (attempt : Nat)
    (io : AttemptIO) (budget : Budget) : Prepared :=
  if attempt = 0 then .go [] ctx.host budget
  else if !bodyRetryable then .stop
  else
    let (allowed, budget) := budget.allow io.now
    if !allowed then .stop
    else
      match backoffDuration rcfg.backoffBase rcfg.backoffMax (attempt - 1) io.draw with
      | none => .fail .panic
      | some _ =>
        match io.pick with
        | .panic => .fail .panic
        | .error why => .fail (.error (some (.pick why)))
        -- acquired, but not stored in the context
        | .ok backend => .go (acquireIf ctx.releaser backend) backend budget

/-- The backend an iteration acts on: the one in the context. Only without one it
    is the host of the attempt. -/
def attemptBackend (ctx : Context) (attempt : Nat) (host : String) : Option String :=
  match ctx.backend with
  | some backend => some backend
  | none => if attempt > 0 then some host else none

/-- The rest of an iteration: try again with this error, or return. -/
def tryAttempt (ctx : Context) (rcfg : RetryConfig) (attempt : Nat) (host : String)
    (result : Except String Int) : List Effect × (RoundTripError ⊕ RoundTripResult) :=
  let backend := ctx.attemptBackend attempt host
  match result with
  | .error why =>
    ([.send host] ++
      (match backend with
        | none => []
        | some backend =>
          (if ctx.releaser then [.release backend] else []) ++
          (if ctx.fr then [.reportFailure backend] else []) ++
          (if ctx.outcome then [.recordFailure backend] else []) ++
          ctx.metric fun pool =>
            [.connectionsActive pool backend (-1), .dialFailures pool backend])
    , .inl (.transport why))
  | .ok code =>
    if isRetryable code rcfg.retryableStatusCodes then
      -- the body is drained and closed; there is no `Release` on this path
      ([.send host, .discardBody host] ++
        (match backend with
          | none => []
          | some backend =>
            (if ctx.outcome then [.recordFailure backend] else []) ++
            ctx.metric fun pool => [.connectionsActive pool backend (-1)])
      , .inl (.retryableStatus code))
    else
      match backend with
      | none => ([.send host], .inr (.response code { onClose := [], closed := false }))
      | some backend =>
        ([.send host] ++ (if ctx.outcome then [.recordSuccess backend] else []) ++
          ctx.latency backend
        , .inr (.response code (ctx.wrapBody backend)))

/-- The loop of `roundTripWithRetry`, with the number of attempts still open. -/
def retryLoop (ctx : Context) (rcfg : RetryConfig) (bodyRetryable : Bool) (io : Nat → AttemptIO) :
    Nat → Nat → Budget → Option RoundTripError → List Effect × RoundTripResult
  | 0, _, _, lastErr => ([], .error lastErr)
  | remaining + 1, attempt, budget, lastErr =>
    match ctx.prepare rcfg bodyRetryable attempt (io attempt) budget with
    | .stop => ([], .error lastErr)
    | .fail r => ([], r)
    | .go effects host budget =>
      match ctx.tryAttempt rcfg attempt host (io attempt).result with
      | (made, .inr r) => (effects ++ made, r)
      | (made, .inl why) =>
        let (rest, r) := retryLoop ctx rcfg bodyRetryable io remaining (attempt + 1)
          budget.recordRetry (some why)
        (effects ++ made ++ rest, r)

/-- `roundTripWithRetry`; `start` is the clock when the budget is made. -/
def roundTripWithRetry (ctx : Context) (rcfg : RetryConfig) (body : RequestBody) (start : Int)
    (io : Nat → AttemptIO) : List Effect × RoundTripResult :=
  if rcfg.maxAttempts < 2 then ctx.roundTripSingle (io 0).result
  else
    let loop (bodySize : Nat) :=
      ctx.retryLoop rcfg (isRetryableBody bodySize rcfg.maxBodyBytes) io rcfg.maxAttempts.toNat 0
        (newBudgetFromRatio rcfg.retryBudgetRatio start) none
    match body with
    | .absent => loop 0
    | .complete size => loop size
    -- the Director has acquired its backend by now
    | .failing _ why => ([], .error (some (.body why)))

/-- `wrappedTransport.RoundTrip`. -/
def roundTrip (ctx : Context) (body : RequestBody) (start : Int) (io : Nat → AttemptIO) :
    List Effect × RoundTripResult :=
  match ctx.err with
  | some why => ([], .error (some (.pick why)))
  | none =>
    match ctx.retry with
    | some rcfg => ctx.roundTripWithRetry rcfg body start io
    | none => ctx.roundTripSingle (io 0).result

end Context

end HootLb.L7
