import HootLb.Native.Transport

/-!
# A run of the retry loop

The loop of `roundTripWithRetry` makes attempts `0, …, n` and then leaves through
one of its exits. What it does is the concatenation of what the attempts do, and
what it returns depends on the last attempt alone, so every property of a run is a
property of single attempts.

## Key results

- `attemptThenLoop_run`: the loop from any of its attempts on
- `retryLoop_eq`: the whole loop as attempts `0, …, n`
- `roundTripWithRetry_run`: the three ways a request with a retry configuration
  can run
-/

namespace HootLb.L7

open Balancer HootLb.Runtime HootLb.Retry

/-! ## Contexts -/

/-- What the Director leaves in a request for which it found the backend `b₀`. -/
structure Context.Directed (ctx : Context) (b₀ : String) : Prop where
  err : ctx.err = none
  backend : ctx.backend = some b₀
  host : ctx.host = b₀

/-! ## Closing a response -/

/-- What closing the returned body `closes` times does. -/
def RoundTripResult.closing (closes : Nat) : RoundTripResult → List Effect
  | .response _ body => body.closeTimes closes
  | .error _ => []
  | .panic => []

/-- A body that is closed at least once releases exactly once. -/
theorem closeTimes_succ (b : ResponseBody) (n : Nat) (h : b.closed = false) :
    b.closeTimes (n + 1) = b.onClose := by
  have hdone : ∀ (b : ResponseBody) (n : Nat), b.closed = true → b.closeTimes n = [] := by
    intro b n hb
    induction n with
    | zero => rfl
    | succ n ih => simp only [ResponseBody.closeTimes, ResponseBody.close, hb, if_true, ih,
        List.append_nil]
  simp only [ResponseBody.closeTimes, ResponseBody.close, h, Bool.false_eq_true, if_false]
  rw [hdone _ n rfl, List.append_nil]

/-- The first close does it all. -/
theorem closeTimes_eq (b : ResponseBody) (closes : Nat) (h : b.closed = false) :
    b.closeTimes closes = if 0 < closes then b.onClose else [] := by
  cases closes with
  | zero => rfl
  | succ n => rw [closeTimes_succ b n h, if_pos (Nat.succ_pos n)]

/-! ## The attempts that are made -/

section Made

variable (rcfg : RetryConfig)

/-- An attempt after which the loop goes on. -/
def failedAttempt (result : Except String Int) : Bool :=
  match result with
  | .error _ => true
  | .ok code => isRetryable code rcfg.retryableStatusCodes

/-- An attempt that did not end in a retryable status. -/
def NoRetryableStatus (result : Except String Int) : Prop :=
  ∀ code, result = .ok code → isRetryable code rcfg.retryableStatusCodes = false

/-- The budget with which attempt `k` is made, when it is: the one before it was
    made and failed, attempts are left, the body can be sent again, the budget
    allows it, the backoff is defined and a backend is picked. -/
def attemptBudget (bodyRetryable : Bool) (start : Int) (io : Nat → AttemptIO) :
    Nat → Option Budget
  | 0 => some (newBudgetFromRatio rcfg.retryBudgetRatio start)
  | k + 1 =>
    match attemptBudget bodyRetryable start io k with
    | none => none
    | some budget =>
      let next := budget.recordRetry.allow (io (k + 1)).now
      if failedAttempt rcfg (io k).result ∧ ((k + 1 : Nat) : Int) < rcfg.maxAttempts ∧
          bodyRetryable ∧ next.1 ∧
          (backoffDuration rcfg.backoffBase rcfg.backoffMax k (io (k + 1)).draw).isSome then
        match (io (k + 1)).pick with
        | .ok _ => some next.2
        | _ => none
      else none

/-- Attempt `k` is made. -/
def Made (bodyRetryable : Bool) (start : Int) (io : Nat → AttemptIO) (k : Nat) : Prop :=
  (attemptBudget rcfg bodyRetryable start io k).isSome

variable (bodyRetryable : Bool) (start : Int) (io : Nat → AttemptIO)

/-- A retry is made only after a failed attempt. -/
theorem made_succ (k : Nat) (h : Made rcfg bodyRetryable start io (k + 1)) :
    Made rcfg bodyRetryable start io k ∧ failedAttempt rcfg (io k).result = true := by
  unfold Made at h ⊢
  simp only [attemptBudget] at h
  split at h
  · exact nomatch h
  · rename_i budget hbudget
    split at h
    · rename_i hcond
      exact ⟨by rw [hbudget]; rfl, hcond.1⟩
    · exact nomatch h

/-- After an attempt that is not made there are no others. -/
theorem not_made_of_le (k j : Nat) (hkj : k ≤ j)
    (h : ¬ Made rcfg bodyRetryable start io k) : ¬ Made rcfg bodyRetryable start io j := by
  induction j, hkj using Nat.le_induction with
  | base => exact h
  | succ j _ ih => exact fun hj => ih (made_succ rcfg bodyRetryable start io j hj).1

end Made

/-! ## One attempt -/

section Attempt

variable (ctx : Context) (rcfg : RetryConfig) (io : Nat → AttemptIO)

/-- The host attempt `k` is sent to, when it is made. -/
def sentTo (k : Nat) : String :=
  if k = 0 then ctx.host
  else
    match (io k).pick with
    | .ok host => host
    | _ => ctx.host

/-- What attempt `k` does, when it is made. -/
def attemptLog (k : Nat) : List Effect :=
  (if k = 0 then [] else acquireIf ctx.releaser (sentTo ctx io k)) ++
    (ctx.tryAttempt rcfg k (sentTo ctx io k) (io k).result).1

/-- The error a failed attempt leaves behind. -/
def attemptError : Except String Int → RoundTripError
  | .error why => .transport why
  | .ok code => .retryableStatus code

/-- The loop goes on after a transport error and after a retryable status. -/
theorem tryAttempt_outcome (b₀ : String) (hb : ctx.backend = some b₀) (k : Nat) (host : String)
    (result : Except String Int) :
    (ctx.tryAttempt rcfg k host result).2 =
      match result with
      | .error why => .inl (.transport why)
      | .ok code =>
        if isRetryable code rcfg.retryableStatusCodes then .inl (.retryableStatus code)
        else .inr (.response code (ctx.wrapBody b₀)) := by
  have hback : ctx.attemptBackend k host = some b₀ := by simp only [Context.attemptBackend, hb]
  cases result with
  | error why => rfl
  | ok code =>
    simp only [Context.tryAttempt, hback]
    split <;> rfl

/-- A failed attempt sends the loop on with its error. -/
theorem tryAttempt_inl (k : Nat) (host : String) (result : Except String Int)
    (h : failedAttempt rcfg result = true) :
    (ctx.tryAttempt rcfg k host result).2 = .inl (attemptError result) := by
  cases result with
  | error why => rfl
  | ok code =>
    simp only [failedAttempt] at h
    simp only [Context.tryAttempt, h, if_true, attemptError]

/-- Any other attempt ends the loop with its response. -/
theorem tryAttempt_inr (k : Nat) (host : String) (result : Except String Int)
    (h : failedAttempt rcfg result = false) :
    ∃ code body, result = .ok code ∧
      (ctx.tryAttempt rcfg k host result).2 = .inr (.response code body) := by
  cases result with
  | error why => exact nomatch h
  | ok code =>
    simp only [failedAttempt] at h
    simp only [Context.tryAttempt, h, Bool.false_eq_true, if_false]
    split <;> exact ⟨_, _, rfl, rfl⟩

theorem sentTo_of_pick (k : Nat) (host : String) (hpick : (io (k + 1)).pick = .ok host) :
    sentTo ctx io (k + 1) = host := by
  simp only [sentTo, Nat.add_one_ne_zero, if_false, hpick]

/-- What follows the `send` of an attempt, up to the closing of its response. -/
def Context.afterSend (closes k : Nat) (host : String) (result : Except String Int) :
    List Effect :=
  (ctx.tryAttempt rcfg k host result).1.tail ++
    match (ctx.tryAttempt rcfg k host result).2 with
    | .inr r => r.closing closes
    | .inl _ => []

theorem tryAttempt_send (k : Nat) (host : String) (result : Except String Int) :
    (ctx.tryAttempt rcfg k host result).1 =
      .send host :: (ctx.tryAttempt rcfg k host result).1.tail := by
  cases result with
  | error why => rfl
  | ok code =>
    unfold Context.tryAttempt
    dsimp only
    split
    · rfl
    · split <;> rfl

/-- With the Director's backend in the context, every call is about that backend. -/
theorem afterSend_eq (b₀ : String) (hb : ctx.backend = some b₀) (closes k : Nat) (host : String)
    (result : Except String Int) :
    ctx.afterSend rcfg closes k host result =
      match result with
      | .error _ =>
        (if ctx.releaser then [.release b₀] else []) ++
        (if ctx.fr then [.reportFailure b₀] else []) ++
        (if ctx.outcome then [.recordFailure b₀] else []) ++
        ctx.metric fun pool => [.connectionsActive pool b₀ (-1), .dialFailures pool b₀]
      | .ok code =>
        if isRetryable code rcfg.retryableStatusCodes then
          .discardBody host ::
            ((if ctx.outcome then [.recordFailure b₀] else []) ++
              ctx.metric fun pool => [.connectionsActive pool b₀ (-1)])
        else
          (if ctx.outcome then [.recordSuccess b₀] else []) ++ ctx.latency b₀ ++
            if 0 < closes then (ctx.wrapBody b₀).onClose else [] := by
  have hback : ctx.attemptBackend k host = some b₀ := by simp only [Context.attemptBackend, hb]
  cases result with
  | error why =>
    simp only [Context.afterSend, Context.tryAttempt, hback, List.append_nil]
    rfl
  | ok code =>
    cases hretry : isRetryable code rcfg.retryableStatusCodes with
    | true =>
      simp only [Context.afterSend, Context.tryAttempt, hback, hretry, if_true, List.append_nil]
      rfl
    | false =>
      simp only [Context.afterSend, Context.tryAttempt, hback, hretry, Bool.false_eq_true, if_false,
        RoundTripResult.closing]
      rw [closeTimes_eq _ closes rfl]
      rfl

/-- The one attempt without retries, with the closing of its response. -/
theorem roundTripSingle_log (b₀ : String) (hb : ctx.backend = some b₀) (closes : Nat)
    (result : Except String Int) :
    (ctx.roundTripSingle result).1 ++ (ctx.roundTripSingle result).2.closing closes =
      .send ctx.host ::
        match result with
        | .error _ =>
          (if ctx.fr then [.reportFailure b₀] else []) ++
          (if ctx.outcome then [.recordFailure b₀] else []) ++
          (if ctx.releaser then [.release b₀] else []) ++
          ctx.metric fun pool => [.connectionsActive pool b₀ (-1), .dialFailures pool b₀]
        | .ok code =>
          ctx.latency b₀ ++
          (if ctx.outcome then
            [if code ≥ 500 then .recordFailure b₀ else .recordSuccess b₀] else []) ++
          if 0 < closes then (ctx.wrapBody b₀).onClose else [] := by
  cases result with
  | error why =>
    simp only [Context.roundTripSingle, hb, RoundTripResult.closing, List.append_nil]
    rfl
  | ok code =>
    simp only [Context.roundTripSingle, hb, RoundTripResult.closing]
    rw [closeTimes_eq _ closes rfl]
    by_cases hcode : code ≥ 500 <;> simp only [hcode, if_true, if_false] <;> rfl

/-- Attempt `k` with the closing of its response. -/
def fullLog (closes k : Nat) : List Effect :=
  (if k = 0 then [] else acquireIf ctx.releaser (sentTo ctx io k)) ++
    .send (sentTo ctx io k) :: ctx.afterSend rcfg closes k (sentTo ctx io k) (io k).result

/-- After a failed attempt there is nothing to close. -/
theorem attemptLog_failed (closes k : Nat) (h : failedAttempt rcfg (io k).result = true) :
    attemptLog ctx rcfg io k = fullLog ctx rcfg io closes k := by
  unfold attemptLog fullLog Context.afterSend
  rw [tryAttempt_inl ctx rcfg k (sentTo ctx io k) (io k).result h]
  dsimp only
  rw [List.append_nil, ← tryAttempt_send]

end Attempt

/-! ## The loop -/

section Run

variable (ctx : Context) (rcfg : RetryConfig) (bodyRetryable : Bool) (start : Int)
  (io : Nat → AttemptIO)

/-- An iteration after its head, and the rest of the loop. -/
def attemptThenLoop (remaining attempt : Nat) (host : String) (budget : Budget) :
    List Effect × RoundTripResult :=
  match ctx.tryAttempt rcfg attempt host (io attempt).result with
  | (made, .inr r) => (made, r)
  | (made, .inl why) =>
    let (rest, r) := ctx.retryLoop rcfg bodyRetryable io remaining (attempt + 1)
      budget.recordRetry (some why)
    (made ++ rest, r)

theorem retryLoop_succ (remaining attempt : Nat) (budget : Budget)
    (lastErr : Option RoundTripError) :
    ctx.retryLoop rcfg bodyRetryable io (remaining + 1) attempt budget lastErr =
      match ctx.prepare rcfg bodyRetryable attempt (io attempt) budget with
      | .stop => ([], .error lastErr)
      | .fail r => ([], r)
      | .go effects host budget =>
        (effects ++ (attemptThenLoop ctx rcfg bodyRetryable io remaining attempt host budget).1,
          (attemptThenLoop ctx rcfg bodyRetryable io remaining attempt host budget).2) := by
  rw [Context.retryLoop]
  cases ctx.prepare rcfg bodyRetryable attempt (io attempt) budget with
  | stop => rfl
  | fail r => rfl
  | go effects host budget =>
    simp only [attemptThenLoop]
    rcases ctx.tryAttempt rcfg attempt host (io attempt).result with ⟨made, why | r⟩
    · simp only [List.append_assoc]
    · rfl

/-- After attempt `k` failed, the body and the budget would let the loop go on. -/
def retryAllowed (k : Nat) : Bool :=
  match attemptBudget rcfg bodyRetryable start io k with
  | none => false
  | some budget => bodyRetryable && (budget.recordRetry.allow (io (k + 1)).now).1

/-- What the loop returns when attempt `k` is the last one it makes: the response,
    the error of that attempt, or what stopped the next one. -/
def exitResult (k : Nat) : RoundTripResult :=
  match (ctx.tryAttempt rcfg k (sentTo ctx io k) (io k).result).2 with
  | .inr r => r
  | .inl why =>
    if ((k + 1 : Nat) : Int) < rcfg.maxAttempts ∧
        retryAllowed rcfg bodyRetryable start io k = true then
      match backoffDuration rcfg.backoffBase rcfg.backoffMax k (io (k + 1)).draw with
      | none => .panic
      | some _ =>
        match (io (k + 1)).pick with
        | .error why => .error (some (.pick why))
        | _ => .panic
    else .error (some why)

theorem exitResult_failed (k : Nat) (budget : Budget)
    (hbudget : attemptBudget rcfg bodyRetryable start io k = some budget)
    (hfailed : failedAttempt rcfg (io k).result = true) :
    exitResult ctx rcfg bodyRetryable start io k =
      if ((k + 1 : Nat) : Int) < rcfg.maxAttempts ∧
          (bodyRetryable && (budget.recordRetry.allow (io (k + 1)).now).1) = true then
        match backoffDuration rcfg.backoffBase rcfg.backoffMax k (io (k + 1)).draw with
        | none => .panic
        | some _ =>
          match (io (k + 1)).pick with
          | .error why => .error (some (.pick why))
          | _ => .panic
      else .error (some (attemptError (io k).result)) := by
  have htry := tryAttempt_inl ctx rcfg k (sentTo ctx io k) (io k).result hfailed
  simp only [exitResult, htry, retryAllowed, hbudget]

/-- The head of a retry: the attempt is made, or the loop ends with the result of
    the attempt before. -/
theorem prepare_next (k : Nat) (budget : Budget)
    (hbudget : attemptBudget rcfg bodyRetryable start io k = some budget)
    (hfailed : failedAttempt rcfg (io k).result = true)
    (hleft : ((k + 1 : Nat) : Int) < rcfg.maxAttempts) :
    match attemptBudget rcfg bodyRetryable start io (k + 1) with
    | some next =>
        ctx.prepare rcfg bodyRetryable (k + 1) (io (k + 1)) budget.recordRetry =
          .go (acquireIf ctx.releaser (sentTo ctx io (k + 1))) (sentTo ctx io (k + 1)) next
    | none =>
      (ctx.prepare rcfg bodyRetryable (k + 1) (io (k + 1)) budget.recordRetry = .stop ∧
        exitResult ctx rcfg bodyRetryable start io k =
          .error (some (attemptError (io k).result))) ∨
      ctx.prepare rcfg bodyRetryable (k + 1) (io (k + 1)) budget.recordRetry =
        .fail (exitResult ctx rcfg bodyRetryable start io k) := by
  rw [exitResult_failed ctx rcfg bodyRetryable start io k budget hbudget hfailed]
  simp only [attemptBudget, hbudget, hfailed, hleft, true_and, Context.prepare,
    Nat.add_one_ne_zero, if_false, Nat.add_sub_cancel]
  -- the conditions of a retry, in the order the loop asks for them
  cases bodyRetryable with
  | false => simp
  | true =>
    cases hallow : (budget.recordRetry.allow (io (k + 1)).now).1 with
    | false => simp
    | true =>
      cases hback : backoffDuration rcfg.backoffBase rcfg.backoffMax k (io (k + 1)).draw with
      | none => simp
      | some d =>
        cases hpick : (io (k + 1)).pick with
        | ok host => simp [sentTo_of_pick ctx io k host hpick]
        | error why => simp
        | panic => simp

/-- Of the attempts from `k` on, those up to `n` are made, and `run` is what they
    do once the head of attempt `k` is through. -/
structure Runs (k n : Nat) (run : List Effect × RoundTripResult) : Prop where
  le : k ≤ n
  made : ∀ j, k ≤ j → (Made rcfg bodyRetryable start io j ↔ j ≤ n)
  log : run.1 = (ctx.tryAttempt rcfg k (sentTo ctx io k) (io k).result).1 ++
    (List.range' (k + 1) (n - k)).flatMap (attemptLog ctx rcfg io)
  result : run.2 = exitResult ctx rcfg bodyRetryable start io n

variable {ctx rcfg bodyRetryable start io}

/-- Attempt `k` is the last one when the next one is not made. -/
theorem Runs.last {k : Nat} {run : List Effect × RoundTripResult}
    (hmade : Made rcfg bodyRetryable start io k)
    (hnot : ¬ Made rcfg bodyRetryable start io (k + 1))
    (hlog : run.1 = (ctx.tryAttempt rcfg k (sentTo ctx io k) (io k).result).1)
    (hresult : run.2 = exitResult ctx rcfg bodyRetryable start io k) :
    Runs ctx rcfg bodyRetryable start io k k run := by
  refine ⟨Nat.le_refl k, fun j hkj => ⟨fun hj => ?_, fun hjk => ?_⟩, ?_, hresult⟩
  · by_contra hlt
    exact not_made_of_le rcfg bodyRetryable start io (k + 1) j (by omega) hnot hj
  · rw [Nat.le_antisymm hjk hkj]
    exact hmade
  · rw [hlog, Nat.sub_self, List.range'_zero, List.flatMap_nil, List.append_nil]

/-- A retry after attempt `k`, followed by the rest. -/
theorem Runs.again {k n : Nat} {rest : List Effect × RoundTripResult}
    (hmade : Made rcfg bodyRetryable start io k)
    (h : Runs ctx rcfg bodyRetryable start io (k + 1) n rest) :
    Runs ctx rcfg bodyRetryable start io k n
      ((ctx.tryAttempt rcfg k (sentTo ctx io k) (io k).result).1 ++
        (acquireIf ctx.releaser (sentTo ctx io (k + 1)) ++ rest.1), rest.2) := by
  have hle := h.le
  refine ⟨by omega, fun j hkj => ?_, ?_, h.result⟩
  · rcases Nat.eq_or_lt_of_le hkj with rfl | hlt
    · exact iff_of_true hmade (by omega)
    · exact h.made j hlt
  · have hcount : n - k = (n - (k + 1)) + 1 := by omega
    rw [hcount, List.range'_succ, List.flatMap_cons, h.log]
    simp only [attemptLog, Nat.add_one_ne_zero, if_false, List.append_assoc]

variable (ctx rcfg bodyRetryable start io)

/-- An attempt that did not fail is the end of the loop. -/
theorem attemptThenLoop_answered (remaining k : Nat) (budget : Budget)
    (h : failedAttempt rcfg (io k).result = false) :
    attemptThenLoop ctx rcfg bodyRetryable io remaining k (sentTo ctx io k) budget =
      ((ctx.tryAttempt rcfg k (sentTo ctx io k) (io k).result).1,
        exitResult ctx rcfg bodyRetryable start io k) := by
  obtain ⟨code, body, -, hr⟩ := tryAttempt_inr ctx rcfg k (sentTo ctx io k) (io k).result h
  have hpair : ctx.tryAttempt rcfg k (sentTo ctx io k) (io k).result =
      ((ctx.tryAttempt rcfg k (sentTo ctx io k) (io k).result).1, .inr (.response code body)) :=
    Prod.ext rfl hr
  unfold attemptThenLoop exitResult
  rw [hpair]

theorem attemptThenLoop_failed (remaining k : Nat) (budget : Budget)
    (h : failedAttempt rcfg (io k).result = true) :
    attemptThenLoop ctx rcfg bodyRetryable io remaining k (sentTo ctx io k) budget =
      ((ctx.tryAttempt rcfg k (sentTo ctx io k) (io k).result).1 ++
          (ctx.retryLoop rcfg bodyRetryable io remaining (k + 1) budget.recordRetry
            (some (attemptError (io k).result))).1,
        (ctx.retryLoop rcfg bodyRetryable io remaining (k + 1) budget.recordRetry
          (some (attemptError (io k).result))).2) := by
  have hpair : ctx.tryAttempt rcfg k (sentTo ctx io k) (io k).result =
      ((ctx.tryAttempt rcfg k (sentTo ctx io k) (io k).result).1,
        .inl (attemptError (io k).result)) :=
    Prod.ext rfl (tryAttempt_inl ctx rcfg k (sentTo ctx io k) (io k).result h)
  unfold attemptThenLoop
  rw [hpair]

/-- From attempt `k` on, the loop makes the attempts up to some `n` and returns
    what the last of them leads to. -/
theorem attemptThenLoop_run (remaining k : Nat) (budget : Budget)
    (hbudget : attemptBudget rcfg bodyRetryable start io k = some budget)
    (hleft : ((remaining + k + 1 : Nat) : Int) = rcfg.maxAttempts) :
    ∃ n, Runs ctx rcfg bodyRetryable start io k n
      (attemptThenLoop ctx rcfg bodyRetryable io remaining k (sentTo ctx io k) budget) := by
  have hmade : Made rcfg bodyRetryable start io k := by simp [Made, hbudget]
  cases hfailed : failedAttempt rcfg (io k).result with
  | false =>
    have hnot : ¬ Made rcfg bodyRetryable start io (k + 1) := by
      intro hm
      exact absurd (made_succ rcfg bodyRetryable start io k hm).2 (by rw [hfailed]; simp)
    rw [attemptThenLoop_answered ctx rcfg bodyRetryable start io remaining k budget hfailed]
    exact ⟨k, .last hmade hnot rfl rfl⟩
  | true =>
    rw [attemptThenLoop_failed ctx rcfg bodyRetryable io remaining k budget hfailed]
    cases remaining with
    | zero =>
      -- the attempts are used up
      have hover : ¬ ((k + 1 : Nat) : Int) < rcfg.maxAttempts := by omega
      refine ⟨k, .last hmade ?_ (List.append_nil _) ?_⟩
      · simp only [Made, attemptBudget, hbudget, hover, false_and, and_false, if_false]
        exact Bool.false_ne_true
      · rw [exitResult_failed ctx rcfg bodyRetryable start io k budget hbudget hfailed]
        simp only [hover, false_and, if_false, Context.retryLoop]
    | succ remaining =>
      have hprep := prepare_next ctx rcfg bodyRetryable start io k budget hbudget hfailed (by omega)
      rw [retryLoop_succ]
      cases hnext : attemptBudget rcfg bodyRetryable start io (k + 1) with
      | none =>
        rw [hnext] at hprep
        refine ⟨k, ?_⟩
        have hnot : ¬ Made rcfg bodyRetryable start io (k + 1) := by simp [Made, hnext]
        rcases hprep with ⟨hp, hexit⟩ | hp
        · rw [hp]
          exact .last hmade hnot (List.append_nil _) hexit.symm
        · rw [hp]
          exact .last hmade hnot (List.append_nil _) rfl
      | some next =>
        rw [hnext] at hprep
        obtain ⟨n, hn⟩ := attemptThenLoop_run remaining (k + 1) next hnext (by omega)
        rw [hprep]
        exact ⟨n, hn.again hmade⟩

/-- The whole loop: attempts `0, …, n`. -/
theorem retryLoop_eq (hmax : 2 ≤ rcfg.maxAttempts) :
    ∃ n, (∀ k, Made rcfg bodyRetryable start io k ↔ k ≤ n) ∧
      ctx.retryLoop rcfg bodyRetryable io rcfg.maxAttempts.toNat 0
          (newBudgetFromRatio rcfg.retryBudgetRatio start) none =
        ((List.range (n + 1)).flatMap (attemptLog ctx rcfg io),
          exitResult ctx rcfg bodyRetryable start io n) := by
  obtain ⟨m, hm⟩ : ∃ m, rcfg.maxAttempts.toNat = m + 1 := ⟨rcfg.maxAttempts.toNat - 1, by omega⟩
  obtain ⟨n, hn⟩ := attemptThenLoop_run ctx rcfg bodyRetryable start io m 0
    (newBudgetFromRatio rcfg.retryBudgetRatio start) rfl (by omega)
  refine ⟨n, fun k => hn.made k (Nat.zero_le k), ?_⟩
  rw [hm, retryLoop_succ]
  simp only [Context.prepare, if_true, List.nil_append]
  refine Prod.ext ?_ hn.result
  rw [show ctx.host = sentTo ctx io 0 from rfl, hn.log, List.range_eq_range', List.range'_succ]
  rfl

/-- The number of bytes of a body that can be read to its end. -/
def RequestBody.size : RequestBody → Option Nat
  | .absent => some 0
  | .complete size => some size
  | .failing _ _ => none

/-- Attempt `k` is one of those the request makes. -/
def Attempted (body : RequestBody) (k : Nat) : Prop :=
  if rcfg.maxAttempts < 2 then k = 0
  else ∃ size, body.size = some size ∧
    Made rcfg (isRetryableBody size rcfg.maxBodyBytes) start io k

/-- The last attempt, and what closing the response it led to does. -/
theorem attemptLog_closing (closes n : Nat) :
    attemptLog ctx rcfg io n ++ (exitResult ctx rcfg bodyRetryable start io n).closing closes =
      fullLog ctx rcfg io closes n := by
  cases hfailed : failedAttempt rcfg (io n).result with
  | false =>
    obtain ⟨code, body, -, hr⟩ := tryAttempt_inr ctx rcfg n (sentTo ctx io n) (io n).result hfailed
    unfold attemptLog fullLog exitResult Context.afterSend
    rw [hr, List.append_assoc, tryAttempt_send]
    rfl
  | true =>
    have hnone : (exitResult ctx rcfg bodyRetryable start io n).closing closes = [] := by
      unfold exitResult
      rw [tryAttempt_inl ctx rcfg n (sentTo ctx io n) (io n).result hfailed]
      dsimp only
      split
      · split
        · rfl
        · split <;> rfl
      · rfl
    rw [hnone, List.append_nil, attemptLog_failed ctx rcfg io closes n hfailed]

/-- The run of a request with a retry configuration: as if without one, not at all
    because its body cannot be read, or as attempts `0, …, n` of the loop. -/
inductive RetryRun (body : RequestBody) (run : List Effect × RoundTripResult) : Prop
  | single (hmax : rcfg.maxAttempts < 2) (hrun : run = ctx.roundTripSingle (io 0).result)
  | unread (hmax : 2 ≤ rcfg.maxAttempts) (hnone : ∀ k, ¬ Attempted rcfg start io body k)
      (why : String) (hrun : run = ([], .error (some (.body why))))
  | loop (hmax : 2 ≤ rcfg.maxAttempts) (size n : Nat) (hsize : body.size = some size)
      (hmade : ∀ k, Attempted rcfg start io body k ↔ k ≤ n)
      (hfailed : ∀ k, k < n → failedAttempt rcfg (io k).result = true)
      (hlog : ∀ closes, run.1 ++ run.2.closing closes =
        (List.range (n + 1)).flatMap (fullLog ctx rcfg io closes))
      (hresult : run.2 =
        exitResult ctx rcfg (isRetryableBody size rcfg.maxBodyBytes) start io n)

/-- A body that can be read is in hand when the loop starts. -/
private theorem roundTripWithRetry_readable (body : RequestBody) (size : Nat)
    (hmax : ¬ rcfg.maxAttempts < 2) (hsize : body.size = some size) :
    ctx.roundTripWithRetry rcfg body start io =
      ctx.retryLoop rcfg (isRetryableBody size rcfg.maxBodyBytes) io rcfg.maxAttempts.toNat 0
        (newBudgetFromRatio rcfg.retryBudgetRatio start) none := by
  cases body <;> cases hsize <;> simp only [Context.roundTripWithRetry, hmax, if_false]

theorem roundTripWithRetry_run (body : RequestBody) :
    RetryRun ctx rcfg start io body (ctx.roundTripWithRetry rcfg body start io) := by
  by_cases hmax : rcfg.maxAttempts < 2
  · exact .single hmax (by simp only [Context.roundTripWithRetry, hmax, if_true])
  · cases hsize : body.size with
    | none =>
      have hnone : ∀ k, ¬ Attempted rcfg start io body k := by
        intro k h
        simp only [Attempted, hmax, if_false, hsize] at h
        obtain ⟨size, hs, -⟩ := h
        exact nomatch hs
      cases body with
      | absent => exact nomatch hsize
      | complete size => exact nomatch hsize
      | failing size why =>
        exact .unread (by omega) hnone why (by
          simp only [Context.roundTripWithRetry, hmax, if_false])
    | some size =>
      obtain ⟨n, hmade, hrun⟩ := retryLoop_eq ctx rcfg (isRetryableBody size rcfg.maxBodyBytes)
        start io (by omega)
      have hfailed : ∀ k, k < n → failedAttempt rcfg (io k).result = true := fun k hk =>
        (made_succ rcfg _ start io k ((hmade (k + 1)).mpr hk)).2
      rw [roundTripWithRetry_readable ctx rcfg start io body size hmax hsize, hrun]
      refine .loop (by omega) size n hsize (fun k => ?_) hfailed (fun closes => ?_) rfl
      · rw [← hmade k]
        simp only [Attempted, hmax, if_false, hsize, Option.some.injEq, exists_eq_left']
      · simp only [List.range_succ, List.flatMap_append, List.flatMap_singleton,
          List.append_assoc]
        rw [attemptLog_closing]
        congr 1
        refine List.flatMap_congr fun k hk => ?_
        exact attemptLog_failed ctx rcfg io closes k (hfailed k (List.mem_range.mp hk))

/-- A retry is made to a backend that was picked. -/
theorem made_pick (k : Nat) (h : Made rcfg bodyRetryable start io (k + 1)) :
    ∃ host, (io (k + 1)).pick = .ok host := by
  unfold Made at h
  simp only [attemptBudget] at h
  split at h
  · exact nomatch h
  · split at h
    · split at h
      · rename_i host hpick
        exact ⟨host, hpick⟩
      · exact nomatch h
    · exact nomatch h

theorem sentTo_eq_iff (body : RequestBody) (k : Nat)
    (h : Attempted rcfg start io body (k + 1)) (b : String) :
    sentTo ctx io (k + 1) = b ↔ (io (k + 1)).pick = .ok b := by
  unfold Attempted at h
  split at h
  · exact nomatch h
  · obtain ⟨size, -, hmade⟩ := h
    obtain ⟨host, hpick⟩ := made_pick rcfg _ start io k hmade
    rw [sentTo_of_pick ctx io k host hpick, hpick, PickResult.ok.injEq]

end Run

end HootLb.L7
