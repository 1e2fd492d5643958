import HootLb.Spec.BalancerSound
import HootLb.Spec.RetryRun
import HootLb.Spec.StoreView

/-!
# Connections of one request

Every `Acquire` the proxy makes for a request should be matched by a `Release` of
the same backend once the request is over. The Director acquires the backend it
picked and every retry acquires the backend it picks, but the transport releases
the Director's backend only, does not release it after a retryable status, and
returns early when the body cannot be read.

## Key results

- `fullLog_conn`: what one attempt does to connection counts
- `attempts_settle`: what several attempts do
- `conns_conserved_iff`: when a request leaves the counts as it found them
-/

namespace HootLb.L7

open Balancer HootLb.Runtime HootLb.Retry

/-! ## Counting -/

/-- The backends acquired, in order. -/
def acquired (log : List Effect) : List String :=
  log.filterMap fun
    | .acquire addr => some addr
    | _ => none

/-- The backends released, in order. -/
def released (log : List Effect) : List String :=
  log.filterMap fun
    | .release addr => some addr
    | _ => none

/-- An effect on the balancer's connection counts. -/
def Effect.onBalancer (lb : LoadBalancer Nat) : Effect → LoadBalancer Nat
  | .acquire addr => lb.acquire addr
  | .release addr => lb.release addr
  | _ => lb

/-- The balancer after a log. -/
def replay (lb : LoadBalancer Nat) (log : List Effect) : LoadBalancer Nat :=
  log.foldl Effect.onBalancer lb

/-- The effects that count connections. -/
def Effect.isConn : Effect → Bool
  | .acquire _ | .release _ => true
  | _ => false

def connEffects (log : List Effect) : List Effect := log.filter Effect.isConn

@[simp] theorem connEffects_append (a b : List Effect) :
    connEffects (a ++ b) = connEffects a ++ connEffects b := List.filter_append ..

theorem connEffects_acquire_cons (addr : String) (log : List Effect) :
    connEffects (.acquire addr :: log) = .acquire addr :: connEffects log := rfl

theorem acquired_connEffects (log : List Effect) : acquired (connEffects log) = acquired log := by
  unfold acquired connEffects
  rw [List.filterMap_filter]
  congr 1
  funext e
  cases e <;> rfl

theorem released_connEffects (log : List Effect) : released (connEffects log) = released log := by
  unfold released connEffects
  rw [List.filterMap_filter]
  congr 1
  funext e
  cases e <;> rfl

theorem replay_connEffects (lb : LoadBalancer Nat) (log : List Effect) :
    replay lb (connEffects log) = replay lb log := by
  induction log generalizing lb with
  | nil => rfl
  | cons e rest ih =>
    cases hc : e.isConn with
    | true =>
      simp only [connEffects, List.filter_cons, hc, if_true, replay, List.foldl_cons]
      exact ih _
    | false =>
      have hskip : e.onBalancer lb = lb := by cases e <;> first | rfl | exact nomatch hc
      simp only [connEffects, List.filter_cons, hc, Bool.false_eq_true, if_false, replay,
        List.foldl_cons, hskip]
      exact ih _

/-- Releasing a backend that was just acquired restores its count. -/
theorem connCount_release_acquire (lb : LoadBalancer Nat) (addr addr' : String) :
    ((lb.acquire addr).release addr).connCount addr' = lb.connCount addr' := by
  cases lb with
  | leastConnections lc =>
    simp only [LoadBalancer.acquire, LoadBalancer.release, LoadBalancer.connCount,
      LeastConnections.count_release, LeastConnections.count_acquire, Nat.add_sub_cancel]
  | _ => rfl

/-! ## One attempt -/

/-- What happens after a round trip returned: nothing after an error; a response
    body is closed `closes + 1` times. A panic is no return. -/
def RoundTripResult.finish (closes : Nat) : RoundTripResult → Option (List Effect)
  | .error _ => some []
  | .response _ body => some (body.closeTimes (closes + 1))
  | .panic => none

theorem RoundTripResult.closing_of_finish {closes : Nat} {r : RoundTripResult}
    {tail : List Effect} (h : r.finish closes = some tail) : tail = r.closing (closes + 1) := by
  cases r with
  | error why => exact (Option.some.inj h).symm
  | response code body => exact (Option.some.inj h).symm
  | panic => exact nomatch h

section Request

variable (ctx : Context) (rcfg : RetryConfig) (b₀ : String)

/-- From attempt `k` on: every retry that is made goes to `b₀` again, and no
    attempt that is made ends in a retryable status. -/
def CleanFrom (bodyRetryable : Bool) (start : Int) (io : Nat → AttemptIO) (k : Nat) : Prop :=
  ∀ j, k ≤ j → Made rcfg bodyRetryable start io j →
    (0 < j → (io j).pick = .ok b₀) ∧ NoRetryableStatus rcfg (io j).result

/-- Metrics have nothing to do with the counts. -/
private theorem metric_conn (f : String → List Effect) (hf : ∀ pool, connEffects (f pool) = []) :
    connEffects (ctx.metric f) = [] := by
  unfold Context.metric
  cases ctx.metrics with
  | none => rfl
  | some m => exact hf m.pool

private theorem latency_conn : connEffects (ctx.latency b₀) = [] := by
  unfold Context.latency
  cases ctx.metrics with
  | none => rfl
  | some m =>
    dsimp only
    split <;> rfl

/-- The body handed to the client releases its backend. -/
private theorem onClose_conn (hrel : ctx.releaser = true) :
    connEffects (ctx.wrapBody b₀).onClose = [.release b₀] := by
  simp only [Context.wrapBody, hrel, if_true, connEffects_append]
  rw [metric_conn ctx _ fun _ => rfl]
  rfl

/-- An attempt with the closing of its response: it releases the Director's backend,
    unless it ended in a retryable status. -/
theorem afterSend_conn (hb : ctx.backend = some b₀) (hrel : ctx.releaser = true) (closes k : Nat)
    (host : String) (result : Except String Int) :
    (NoRetryableStatus rcfg result ∧
      connEffects (ctx.afterSend rcfg (closes + 1) k host result) = [.release b₀]) ∨
    (¬ NoRetryableStatus rcfg result ∧
      connEffects (ctx.afterSend rcfg (closes + 1) k host result) = []) := by
  rw [afterSend_eq ctx rcfg b₀ hb]
  cases result with
  | error why =>
    left
    refine ⟨fun code hcode => (nomatch hcode), ?_⟩
    simp only [hrel, if_true, connEffects_append]
    rw [metric_conn ctx _ fun _ => rfl]
    -- a failure report and an outcome are calls on other objects
    cases ctx.fr <;> cases ctx.outcome <;> rfl
  | ok code =>
    cases hretry : isRetryable code rcfg.retryableStatusCodes with
    | true =>
      right
      refine ⟨fun h => Bool.false_ne_true ((h code rfl).symm.trans hretry), ?_⟩
      simp only [hretry, if_true]
      rw [← List.singleton_append, connEffects_append, connEffects_append,
        metric_conn ctx _ fun _ => rfl]
      cases ctx.outcome <;> rfl
    | false =>
      left
      refine ⟨fun code' hcode => ?_, ?_⟩
      · cases hcode
        exact hretry
      · simp only [hretry, Bool.false_eq_true, if_false, Nat.succ_pos, if_true, connEffects_append,
          latency_conn, onClose_conn ctx b₀ hrel]
        cases ctx.outcome <;> rfl

/-- The same for a request without retries. -/
theorem roundTripSingle_conn (hb : ctx.backend = some b₀) (hrel : ctx.releaser = true)
    (result : Except String Int) (closes : Nat) :
    connEffects ((ctx.roundTripSingle result).1 ++
      (ctx.roundTripSingle result).2.closing (closes + 1)) = [.release b₀] := by
  rw [roundTripSingle_log ctx b₀ hb, ← List.singleton_append, connEffects_append]
  cases result with
  | error why =>
    simp only [hrel, if_true, connEffects_append]
    rw [metric_conn ctx _ fun _ => rfl]
    cases ctx.fr <;> cases ctx.outcome <;> rfl
  | ok code =>
    simp only [Nat.succ_pos, if_true, connEffects_append, latency_conn,
      onClose_conn ctx b₀ hrel]
    cases ctx.outcome with
    | false => rfl
    | true => by_cases hc : code ≥ 500 <;> simp only [hc, if_true, if_false] <;> rfl

end Request

/-! ## Settling -/

/-- A log whose releases are all of `b₀`, which balances exactly when `clean`
    holds, and which then leaves every count as it was. -/
structure Settles (b₀ : String) (clean : Prop) (log : List Effect) : Prop where
  releases : ∃ n, released log = List.replicate n b₀ ∧ n ≤ (acquired log).length
  balanced : acquired log = released log ↔ clean
  restored : acquired log = released log → ∀ (lb : LoadBalancer Nat) (addr : String),
    (replay lb log).connCount addr = lb.connCount addr

namespace Settles

variable {b₀ : String} {clean : Prop} {log : List Effect}

theorem nil (b₀ : String) : Settles b₀ True [] :=
  ⟨⟨0, rfl, Nat.le_refl 0⟩, iff_of_true rfl trivial, fun _ _ _ => rfl⟩

theorem congr {clean' : Prop} (hiff : clean ↔ clean') (h : Settles b₀ clean log) :
    Settles b₀ clean' log := ⟨h.releases, h.balanced.trans hiff, h.restored⟩

/-- Only the connection effects matter. -/
theorem connEffects_iff : Settles b₀ clean (connEffects log) ↔ Settles b₀ clean log := by
  have hr : released (connEffects log) = released log := released_connEffects log
  have ha : acquired (connEffects log) = acquired log := acquired_connEffects log
  constructor
  · rintro ⟨hrel, hbal, hres⟩
    rw [hr, ha] at hrel hbal hres
    exact ⟨hrel, hbal, fun heq lb addr => replay_connEffects lb log ▸ hres heq lb addr⟩
  · rintro ⟨hrel, hbal, hres⟩
    rw [← hr, ← ha] at hrel hbal hres
    exact ⟨hrel, hbal, fun heq lb addr => (replay_connEffects lb log).symm ▸ hres heq lb addr⟩

/-- A connection that is given back, followed by the rest. -/
theorem acquire_release (h : Settles b₀ clean log) (host : String) :
    Settles b₀ (host = b₀ ∧ clean) (.acquire host :: .release b₀ :: log) := by
  obtain ⟨n, hn, hle⟩ := h.releases
  have hacq : acquired (.acquire host :: .release b₀ :: log) = host :: acquired log := rfl
  have hrel : released (.acquire host :: .release b₀ :: log) = b₀ :: released log := rfl
  refine ⟨⟨n + 1, by rw [hrel, hn]; rfl, ?_⟩, ?_, ?_⟩
  · rw [hacq, List.length_cons]
    omega
  · rw [hacq, hrel, List.cons.injEq, h.balanced]
  · intro heq lb addr
    rw [hacq, hrel, List.cons.injEq] at heq
    obtain ⟨rfl, hrest⟩ := heq
    show (replay ((lb.acquire host).release host) log).connCount addr = _
    rw [h.restored hrest, connCount_release_acquire]

/-- A connection that is never given back: the releases cannot catch up. -/
theorem acquire_leak (h : Settles b₀ clean log) (host : String) :
    Settles b₀ False (.acquire host :: log) := by
  obtain ⟨n, hn, hle⟩ := h.releases
  have hacq : acquired (.acquire host :: log) = host :: acquired log := rfl
  have hrel : released (.acquire host :: log) = released log := rfl
  have hne : host :: acquired log ≠ released log := by
    intro heq
    have hlen := congrArg List.length heq
    rw [hn, List.length_cons, List.length_replicate] at hlen
    omega
  refine ⟨⟨n, by rw [hrel, hn], ?_⟩, ?_, ?_⟩
  · rw [hacq, List.length_cons]
    omega
  · rw [hacq, hrel]
    exact iff_of_false hne id
  · intro heq
    exact absurd heq hne

end Settles

/-! ## Several attempts -/

section Loop

variable (ctx : Context) (rcfg : RetryConfig) (b₀ : String) (io : Nat → AttemptIO)

/-- Attempts, each with its own `Acquire` before it, settle when all of them go to
    `b₀` and none ends in a retryable status. -/
theorem attempts_settle (hb : ctx.backend = some b₀) (hrel : ctx.releaser = true) (closes : Nat)
    (ks : List Nat) :
    Settles b₀ (∀ k ∈ ks, sentTo ctx io k = b₀ ∧ NoRetryableStatus rcfg (io k).result)
      (ks.flatMap fun k => .acquire (sentTo ctx io k) ::
        connEffects (ctx.afterSend rcfg (closes + 1) k (sentTo ctx io k) (io k).result)) := by
  induction ks with
  | nil => exact Settles.congr (by simp) (Settles.nil b₀)
  | cons k ks ih =>
    rw [List.flatMap_cons]
    rcases afterSend_conn ctx rcfg b₀ hb hrel closes k (sentTo ctx io k) (io k).result with
      ⟨hclean, hconn⟩ | ⟨hdirty, hconn⟩
    · rw [hconn]
      refine Settles.congr ?_ (ih.acquire_release (sentTo ctx io k))
      rw [List.forall_mem_cons, and_iff_left hclean]
    · rw [hconn]
      refine Settles.congr (iff_of_false id fun h => ?_) (ih.acquire_leak (sentTo ctx io k))
      exact hdirty (h k List.mem_cons_self).2

/-- The connection effects of attempts `0, …, n`, after the Director's `Acquire`. -/
theorem fullLog_conn (hhost : ctx.host = b₀) (hrel : ctx.releaser = true) (closes n : Nat) :
    .acquire b₀ :: connEffects ((List.range (n + 1)).flatMap (fullLog ctx rcfg io (closes + 1))) =
      (List.range (n + 1)).flatMap fun k => .acquire (sentTo ctx io k) ::
        connEffects (ctx.afterSend rcfg (closes + 1) k (sentTo ctx io k) (io k).result) := by
  have hsend : ∀ host log, connEffects (.send host :: log) = connEffects log := fun _ _ => rfl
  have hfirst : connEffects (fullLog ctx rcfg io (closes + 1) 0) =
      connEffects (ctx.afterSend rcfg (closes + 1) 0 (sentTo ctx io 0) (io 0).result) := rfl
  have hretry : ∀ k, connEffects (fullLog ctx rcfg io (closes + 1) (k + 1)) =
      .acquire (sentTo ctx io (k + 1)) :: connEffects (ctx.afterSend rcfg (closes + 1) (k + 1)
        (sentTo ctx io (k + 1)) (io (k + 1)).result) := by
    intro k
    unfold fullLog
    rw [if_neg (Nat.succ_ne_zero k), acquireIf, if_pos hrel, connEffects_append, hsend]
    rfl
  have hzero : sentTo ctx io 0 = b₀ := hhost
  induction n with
  | zero => rw [List.range_one, List.flatMap_singleton, List.flatMap_singleton, hfirst, hzero]
  | succ n ih =>
    rw [List.range_succ, List.flatMap_append, connEffects_append, ← List.cons_append, ih,
      List.flatMap_append, List.flatMap_singleton, List.flatMap_singleton, hretry]

end Loop

/-! ## A request -/

/-- The Director and the round trip of one request: all effects until `RoundTrip`
    returns. `none` is a panic in the Director. -/
def serve (ps : PoolState) (m : Option L7Metrics) (stuck : Option String)
    (pick : PickResult String) (body : RequestBody) (start : Int) (io : Nat → AttemptIO) :
    Option (List Effect × RoundTripResult) :=
  (director ps m stuck pick).map fun (effects, ctx) =>
    (effects ++ (ctx.roundTrip body start io).1, (ctx.roundTrip body start io).2)

/-- As many `Acquire` as `Release` calls for every address, and every connection
    count back at its value. -/
def Conserved (lb : LoadBalancer Nat) (log : List Effect) : Prop :=
  (∀ addr, (acquired log).count addr = (released log).count addr) ∧
  ∀ addr, (replay lb log).connCount addr = lb.connCount addr

/-- The body can be read, every retry that is made picks `b₀` again, and no attempt
    that is made ends in a retryable status. -/
def RetriesClean (rcfg : RetryConfig) (b₀ : String) (body : RequestBody) (start : Int)
    (io : Nat → AttemptIO) : Prop :=
  match body with
  | .absent => CleanFrom rcfg b₀ (isRetryableBody 0 rcfg.maxBodyBytes) start io 0
  | .complete size => CleanFrom rcfg b₀ (isRetryableBody size rcfg.maxBodyBytes) start io 0
  | .failing _ _ => False

/-- Nothing is lost: the Director finds no backend, or the pool makes no retries,
    or the retries are clean. -/
def NothingLost (ps : PoolState) (stuck : Option String) (pick : PickResult String)
    (body : RequestBody) (start : Int) (io : Nat → AttemptIO) : Prop :=
  ∀ b₀ rcfg, chooseBackend ps stuck pick = .ok b₀ → convertRetryConfig ps.retry = some rcfg →
    2 ≤ rcfg.maxAttempts → RetriesClean rcfg b₀ body start io

/-- A log that settles conserves exactly when it is clean. -/
theorem Settles.conserved_iff {b₀ : String} {clean : Prop} {log : List Effect}
    (h : Settles b₀ clean log) (lb : LoadBalancer Nat) : Conserved lb log ↔ clean := by
  rw [← h.balanced]
  constructor
  · rintro ⟨hcount, -⟩
    obtain ⟨n, hn, -⟩ := h.releases
    have hperm := List.perm_iff_count.mpr hcount
    rw [hn] at hperm ⊢
    exact List.perm_replicate.mp hperm
  · intro heq
    exact ⟨fun addr => by rw [heq], h.restored heq lb⟩

/-- What the Director leaves to the transport. -/
private theorem director_ok (ps : PoolState) (m : Option L7Metrics) (stuck : Option String)
    (pick : PickResult String) (b₀ : String) (hlc : isConnReleaser ps.lb = true)
    (hchoice : chooseBackend ps stuck pick = .ok b₀) :
    ∃ effects ctx, director ps m stuck pick = some (effects, ctx) ∧
      connEffects effects = [.acquire b₀] ∧ ctx.Directed b₀ ∧ ctx.releaser = true ∧
      ctx.retry = convertRetryConfig ps.retry := by
  simp only [director, hchoice]
  refine ⟨_, _, rfl, ?_, ⟨rfl, rfl, rfl⟩, hlc, rfl⟩
  rw [connEffects_append, hlc]
  cases m <;> rfl

/-- The Director found no backend: nothing was acquired and nothing is released. -/
private theorem conserved_of_no_backend (ps : PoolState) (m : Option L7Metrics)
    (stuck : Option String) (pick : PickResult String) (body : RequestBody) (start : Int)
    (io : Nat → AttemptIO) (closes : Nat) (log tail : List Effect) (r : RoundTripResult)
    (hserve : serve ps m stuck pick body start io = some (log, r))
    (hover : r.finish closes = some tail) (hchoice : ∀ b₀, chooseBackend ps stuck pick ≠ .ok b₀) :
    Conserved ps.lb (log ++ tail) := by
  simp only [serve, director] at hserve
  cases hcase : chooseBackend ps stuck pick with
  | ok b₀ => exact absurd hcase (hchoice b₀)
  | panic => rw [hcase] at hserve; exact nomatch hserve
  | error why =>
    rw [hcase] at hserve
    cases hserve
    cases hover
    exact ⟨fun _ => rfl, fun _ => rfl⟩

/-- The retries are clean when every attempt that is made is. -/
private theorem retriesClean_iff (ctx : Context) (rcfg : RetryConfig) (b₀ : String)
    (hhost : ctx.host = b₀) (hmax : 2 ≤ rcfg.maxAttempts) (body : RequestBody) (start : Int)
    (io : Nat → AttemptIO) (size n : Nat) (hsize : body.size = some size)
    (hmade : ∀ k, Attempted rcfg start io body k ↔ k ≤ n) :
    (∀ k ∈ List.range (n + 1), sentTo ctx io k = b₀ ∧ NoRetryableStatus rcfg (io k).result) ↔
      RetriesClean rcfg b₀ body start io := by
  have hclean : RetriesClean rcfg b₀ body start io ↔
      CleanFrom rcfg b₀ (isRetryableBody size rcfg.maxBodyBytes) start io 0 := by
    cases body <;> cases hsize <;> rfl
  have hattempted : ∀ k, Made rcfg (isRetryableBody size rcfg.maxBodyBytes) start io k ↔ k ≤ n := by
    intro k
    rw [← hmade k]
    simp only [Attempted, not_lt.mpr hmax, if_false, hsize, Option.some.injEq, exists_eq_left']
  have hsent : ∀ k, k ≤ n → (sentTo ctx io k = b₀ ↔ (0 < k → (io k).pick = .ok b₀)) := by
    intro k hk
    cases k with
    | zero => exact iff_of_true hhost (fun h => absurd h (Nat.lt_irrefl 0))
    | succ k =>
      rw [sentTo_eq_iff ctx rcfg start io body k ((hmade (k + 1)).mpr hk)]
      simp
  rw [hclean]
  constructor
  · intro h k _ hk
    have hkn := (hattempted k).mp hk
    obtain ⟨hto, hstatus⟩ := h k (List.mem_range.mpr (by omega))
    exact ⟨(hsent k hkn).mp hto, hstatus⟩
  · intro h k hk
    have hkn : k ≤ n := Nat.lt_succ_iff.mp (List.mem_range.mp hk)
    obtain ⟨hpick, hstatus⟩ := h k (Nat.zero_le k) ((hattempted k).mpr hkn)
    exact ⟨(hsent k hkn).mpr hpick, hstatus⟩

/-- A round trip after the Director's `Acquire`. -/
private theorem roundTrip_settles (ctx : Context) (b₀ : String) (body : RequestBody) (start : Int)
    (io : Nat → AttemptIO) (closes : Nat) (hctx : ctx.Directed b₀) (hrel : ctx.releaser = true) :
    Settles b₀
      (∀ rcfg, ctx.retry = some rcfg → 2 ≤ rcfg.maxAttempts →
        RetriesClean rcfg b₀ body start io)
      (.acquire b₀ :: ((ctx.roundTrip body start io).1 ++
        (ctx.roundTrip body start io).2.closing (closes + 1))) := by
  -- one attempt: its release is the Director's
  have hsingle : Settles b₀ True (.acquire b₀ :: ((ctx.roundTripSingle (io 0).result).1 ++
      (ctx.roundTripSingle (io 0).result).2.closing (closes + 1))) := by
    refine Settles.connEffects_iff.mp ?_
    rw [connEffects_acquire_cons, roundTripSingle_conn ctx b₀ hctx.backend hrel]
    exact Settles.congr (by simp) ((Settles.nil b₀).acquire_release b₀)
  simp only [Context.roundTrip, hctx.err]
  cases hretry : ctx.retry with
  | none => exact Settles.congr (iff_of_true trivial fun rcfg h => nomatch h) hsingle
  | some rcfg =>
    dsimp only
    have hforall : (∀ rcfg', some rcfg = some rcfg' → 2 ≤ rcfg'.maxAttempts →
        RetriesClean rcfg' b₀ body start io) ↔
          (2 ≤ rcfg.maxAttempts → RetriesClean rcfg b₀ body start io) := by
      simp
    rw [hforall]
    cases roundTripWithRetry_run ctx rcfg start io body with
    | single hmax hrun =>
      rw [hrun]
      exact Settles.congr (iff_of_true trivial fun h => absurd h (by omega)) hsingle
    | unread hmax hnone why hrun =>
      rw [hrun]
      refine Settles.congr (iff_of_false id fun h => ?_) ((Settles.nil b₀).acquire_leak b₀)
      -- a body that can be read would have been sent at least once
      cases body with
      | failing size why => exact h hmax
      | absent => exact hnone 0 (by simp [Attempted, not_lt.mpr hmax, RequestBody.size, Made,
          attemptBudget])
      | complete size => exact hnone 0 (by simp [Attempted, not_lt.mpr hmax, RequestBody.size, Made,
          attemptBudget])
    | loop hmax size n hsize hmade hfailed hlog hresult =>
      rw [hlog (closes + 1), imp_iff_right hmax,
        ← retriesClean_iff ctx rcfg b₀ hctx.host hmax body start io size n hsize hmade]
      refine Settles.connEffects_iff.mp ?_
      rw [connEffects_acquire_cons, fullLog_conn ctx rcfg b₀ io hctx.host hrel]
      exact attempts_settle ctx rcfg b₀ io hctx.backend hrel closes (List.range (n + 1))

/-- Connections of one request. When a request over a least-connections pool is
    over, its `Acquire` and `Release` calls match for every address, and the
    counts are back, exactly when nothing was lost on the way. -/
theorem conns_conserved_iff (ps : PoolState) (m : Option L7Metrics) (stuck : Option String)
    (pick : PickResult String) (body : RequestBody) (start : Int) (io : Nat → AttemptIO)
    (closes : Nat) (log tail : List Effect) (r : RoundTripResult)
    (hlc : isConnReleaser ps.lb = true)
    (hserve : serve ps m stuck pick body start io = some (log, r))
    (hover : r.finish closes = some tail) :
    Conserved ps.lb (log ++ tail) ↔ NothingLost ps stuck pick body start io := by
  by_cases hchoice : ∃ b₀, chooseBackend ps stuck pick = .ok b₀
  · obtain ⟨b₀, hb₀⟩ := hchoice
    obtain ⟨effects, ctx, hdir, hconn, hctx, hrel, hretry⟩ :=
      director_ok ps m stuck pick b₀ hlc hb₀
    simp only [serve, hdir, Option.map_some, Option.some.injEq, Prod.mk.injEq] at hserve
    obtain ⟨rfl, rfl⟩ := hserve
    have hs := roundTrip_settles ctx b₀ body start io closes hctx hrel
    rw [← RoundTripResult.closing_of_finish hover] at hs
    -- the Director's effects are its `Acquire` and metrics
    have hall : Settles b₀ (∀ rcfg, ctx.retry = some rcfg → 2 ≤ rcfg.maxAttempts →
        RetriesClean rcfg b₀ body start io)
        (effects ++ (ctx.roundTrip body start io).1 ++ tail) := by
      refine Settles.connEffects_iff.mp ?_
      rw [List.append_assoc, connEffects_append, hconn]
      exact Settles.connEffects_iff.mpr hs
    rw [hall.conserved_iff ps.lb, hretry]
    constructor
    · intro h b₀' rcfg hb₀' hrcfg hmax
      rw [hb₀] at hb₀'
      cases hb₀'
      exact h rcfg hrcfg hmax
    · intro h rcfg hrcfg hmax
      exact h b₀ rcfg hb₀ hrcfg hmax
  · have hnot : ∀ b₀, chooseBackend ps stuck pick ≠ .ok b₀ := fun b₀ h => hchoice ⟨b₀, h⟩
    refine iff_of_true (conserved_of_no_backend ps m stuck pick body start io closes log tail r
      hserve hover hnot) ?_
    intro b₀ rcfg hb₀
    exact absurd hb₀ (hnot b₀)

/-- A least-connections pool with one backend and up to three attempts. -/
def retryingPool : PoolState :=
  buildPoolState
    { Sample.pool "web" "10.0.0.1:8080" with
      algorithm := "least_conn"
      retry := some
        { maxAttempts := 3, retryBudgetRatio := .fin 1, backoffBase := 1000000
          backoffMax := 100000000, retryableStatusCodes := [503] } }
    [⟨"10.0.0.1:8080", 1⟩]

/-- A client that goes away while its body is read: the backend stays acquired. -/
theorem failing_body_leaks_connection :
    ∃ log, serve retryingPool none none (.ok "10.0.0.1:8080") (.failing 10 "unexpected EOF") 0
        (fun _ => ⟨0, 0, .ok "10.0.0.1:8080", .ok 200⟩) =
        some (log, .error (some (.body "unexpected EOF"))) ∧
      ¬ Conserved retryingPool.lb (log ++ []) := by
  refine ⟨_, rfl, fun h => ?_⟩
  exact absurd (h.1 "10.0.0.1:8080") (by decide)

/-- The theorem at a request that is answered at once and whose body is closed
    twice. -/
theorem answered_request_conserves :
    ∃ log r tail, serve retryingPool none none (.ok "10.0.0.1:8080") .absent 0
        (fun _ => ⟨0, 0, .ok "10.0.0.1:8080", .ok 200⟩) = some (log, r) ∧
      r.finish 1 = some tail ∧ Conserved retryingPool.lb (log ++ tail) := by
  refine ⟨_, _, _, rfl, rfl, (conns_conserved_iff retryingPool none none (.ok "10.0.0.1:8080")
    .absent 0 (fun _ => ⟨0, 0, .ok "10.0.0.1:8080", .ok 200⟩) 1 _ _ _ rfl rfl rfl).mpr ?_⟩
  intro b₀ rcfg hb₀ hrcfg _ j _ hmade
  cases hb₀
  cases hrcfg
  refine ⟨fun _ => rfl, fun code hcode => ?_⟩
  cases hcode
  decide

end HootLb.L7
