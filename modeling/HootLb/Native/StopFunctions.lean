import HootLb.ForStd.DoneChan
import HootLb.Native.RateLimit

/-!
# Stop functions

Two functions that stop a goroutine by closing a channel: the one that `ListenSIGUSR2`
returns, and `Limiter.Stop`. Each is modelled with the goroutine it stops as a machine
whose steps are the parts of both between two points where others can run.

A second close of a channel panics, and a panic ends the process: there are no steps
after it.
-/

namespace HootLb.Restart

/-! ## The signal handler -/

/-- Where the goroutine of `ListenSIGUSR2` is. -/
inductive ListenPhase where
  /-- at the `select` -/
  | selecting
  /-- in the handler `fn` -/
  | calling
  /-- it returns; the deferred `close(done)` is still to come -/
  | returning
  | exited
  deriving DecidableEq

/-- Where the call of the stop function is. -/
inductive StopPhase where
  | notCalled
  /-- `signal.Stop(ch)` has returned -/
  | unregistered
  /-- `close(done)` was executed -/
  | finished
  deriving DecidableEq

/-- What `ListenSIGUSR2` leaves behind when it returns. `pending` is a signal in `ch`, which
    has room for one. -/
structure SignalListener where
  registered : Bool
  pending : Bool
  done : DoneChan
  goroutine : ListenPhase
  stopper : StopPhase
  deriving DecidableEq

/-- `ListenSIGUSR2`. -/
def listenSIGUSR2 : SignalListener :=
  { registered := true, pending := false, done := .opened, goroutine := .selecting
    stopper := .notCalled }

inductive SignalAction where
  /-- a `SIGUSR2` reaches the process -/
  | deliver
  /-- the goroutine receives from `done` -/
  | receiveDone
  /-- the goroutine receives from `ch` and calls `fn` -/
  | receiveSignal
  | fnReturns
  /-- the deferred `close(done)` -/
  | closeDeferred
  /-- `signal.Stop(ch)` in the stop function -/
  | unregister
  /-- `close(done)` in the stop function -/
  | closeDone
  deriving DecidableEq

/-- A step, if it is possible. -/
def SignalListener.step (s : SignalListener) (a : SignalAction) : Option SignalListener :=
  if 1 < s.done.closes then none
  else
    match a with
    -- the runtime drops a signal for which there is no room, or no registration
    | .deliver => some { s with pending := s.pending || s.registered }
    | .receiveDone =>
      if s.goroutine = .selecting ∧ s.done.isClosed then some { s with goroutine := .returning }
      else none
    | .receiveSignal =>
      if s.goroutine = .selecting ∧ s.pending then
        some { s with goroutine := .calling, pending := false }
      else none
    | .fnReturns =>
      if s.goroutine = .calling then some { s with goroutine := .selecting } else none
    | .closeDeferred =>
      if s.goroutine = .returning then
        some { s with goroutine := .exited, done := s.done.close }
      else none
    | .unregister =>
      if s.stopper = .notCalled then
        some { s with stopper := .unregistered, registered := false }
      else none
    | .closeDone =>
      if s.stopper = .unregistered then
        some { s with stopper := .finished, done := s.done.close }
      else none

end HootLb.Restart

namespace HootLb.Ratelimit

/-! ## The eviction loop -/

/-- Where the goroutine of `evictLoop` is. -/
inductive EvictPhase where
  /-- there is none: `idleTTL` is not positive -/
  | absent
  /-- before `time.NewTicker` -/
  | starting
  /-- at the `select` -/
  | selecting
  /-- in `evict` -/
  | evicting
  /-- it returns, or panics; the deferred `close(l.done)` is still to come -/
  | leaving (panics : Bool)
  | exited
  deriving DecidableEq

/-- Where a call of `Stop` is. -/
inductive StopCall where
  | entered
  /-- it found `done` open -/
  | foundOpen
  /-- it has closed `stop` and waits for `done` -/
  | waiting
  | returned
  /-- it found `done` closed and returned -/
  | skipped
  deriving DecidableEq

/-- The channels of a `Limiter`, its goroutine and the calls of `Stop`. `dead` is the
    process after a panic. -/
structure StopLimiter where
  idleTTL : Duration
  stop : DoneChan
  done : DoneChan
  loop : EvictPhase
  calls : List StopCall
  dead : Bool

/-- `NewLimiter`. -/
def newStopLimiter (idleTTL : Duration) : StopLimiter :=
  let evicts := idleTTL > 0
  { idleTTL, stop := .opened
    done := if evicts then .opened else DoneChan.opened.close
    loop := if evicts then .starting else .absent
    calls := [], dead := false }

inductive StopAction where
  /-- `time.NewTicker(l.idleTTL / 2)` -/
  | newTicker
  /-- the loop receives from the ticker -/
  | tick
  | evicted
  /-- the loop receives from `stop` -/
  | receiveStop
  /-- the deferred `close(l.done)` -/
  | closeDone
  /-- a call of `Stop` begins -/
  | call
  /-- call `k` looks at `done` in its `select` -/
  | check (k : Nat)
  /-- call `k` executes `close(l.stop)` -/
  | closeStop (k : Nat)
  /-- call `k` receives from `done` and returns -/
  | await (k : Nat)
  deriving DecidableEq

/-- A step, if it is possible. -/
def StopLimiter.step (s : StopLimiter) (a : StopAction) : Option StopLimiter :=
  if s.dead then none
  else
    match a with
    | .newTicker =>
      if s.loop = .starting then
        -- a ticker panics when its interval is not positive
        some { s with loop := if s.idleTTL / 2 ≤ 0 then .leaving true else .selecting }
      else none
    | .tick => if s.loop = .selecting then some { s with loop := .evicting } else none
    | .evicted => if s.loop = .evicting then some { s with loop := .selecting } else none
    | .receiveStop =>
      if s.loop = .selecting ∧ s.stop.isClosed then some { s with loop := .leaving false }
      else none
    | .closeDone =>
      match s.loop with
      | .leaving panics =>
        some { s with loop := .exited, done := s.done.close, dead := panics || s.done.isClosed }
      | _ => none
    | .call => some { s with calls := s.calls ++ [.entered] }
    | .check k =>
      if s.calls[k]? = some .entered then
        some { s with calls := s.calls.set k (if s.done.isClosed then .skipped else .foundOpen) }
      else none
    | .closeStop k =>
      if s.calls[k]? = some .foundOpen then
        some { s with
          calls := s.calls.set k .waiting, stop := s.stop.close, dead := s.stop.isClosed }
      else none
    | .await k =>
      if s.calls[k]? = some .waiting ∧ s.done.isClosed then
        some { s with calls := s.calls.set k .returned }
      else none

end HootLb.Ratelimit
