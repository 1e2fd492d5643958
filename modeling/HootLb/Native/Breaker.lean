import HootLb.Native.Config

/-!
# Circuit breaker

The per-backend breaker of `internal/circuitbreaker`. Go's breaker holds a
pointer to the `circuitOpen` flag of its server and writes it under its own
lock; here every operation takes the flag and returns it along with the breaker,
so that the caller writes it back to the server the breaker was made for.

`Allow` and `State` are the only operations that leave the open state.
-/

namespace HootLb.Circuitbreaker

/-- A clock reading, in nanoseconds. -/
abbrev Time := Int

inductive State where
  | closed
  | «open»
  | halfOpen
  deriving DecidableEq

structure Breaker where
  state : State
  consecutiveFail : Int
  failureThreshold : Int
  openDuration : Duration
  halfOpenMaxProbes : Int
  /-- `none` is Go's zero `time.Time`: the circuit has never opened. -/
  openedAt : Option Time
  halfOpenProbes : Int
  deriving DecidableEq

/-- `NewBreaker`. -/
def newBreaker (failureThreshold : Int) (openDuration : Duration) (halfOpenMaxProbes : Int) :
    Breaker :=
  { state := .closed, consecutiveFail := 0, failureThreshold, openDuration, halfOpenMaxProbes
    openedAt := none, halfOpenProbes := 0 }

namespace Breaker

/-- `openCircuit`: the flag is set and the cool-down starts now. -/
def openCircuit (now : Time) (b : Breaker) : Breaker × Bool :=
  ({ b with state := .open, consecutiveFail := 0, halfOpenProbes := 0, openedAt := some now }, true)

/-- `RecordSuccess`. -/
def recordSuccess (b : Breaker) (flag : Bool) : Breaker × Bool :=
  match b.state with
  | .halfOpen => ({ b with state := .closed, consecutiveFail := 0, halfOpenProbes := 0 }, false)
  | .closed => ({ b with consecutiveFail := 0 }, flag)
  | .open => (b, flag)

/-- `RecordFailure`. -/
def recordFailure (now : Time) (b : Breaker) (flag : Bool) : Breaker × Bool :=
  match b.state with
  | .closed =>
    let b := { b with consecutiveFail := b.consecutiveFail + 1 }
    if b.consecutiveFail ≥ b.failureThreshold then b.openCircuit now else (b, flag)
  -- a failed probe opens the circuit again
  | .halfOpen => b.openCircuit now
  | .open => (b, flag)

/-- Whether `open_duration` has elapsed since the circuit opened. -/
def cooledDown (now : Time) (b : Breaker) : Bool :=
  match b.openedAt with
  | some t => decide (now - t ≥ b.openDuration)
  | none => true

/-- `Allow`: the answer, the breaker and the flag after the call. -/
def allow (now : Time) (b : Breaker) (flag : Bool) : Bool × Breaker × Bool :=
  match b.state with
  | .closed => (true, b, flag)
  -- only here and in `State` does an open circuit become half-open and the flag go down
  | .open =>
    if b.cooledDown now then (true, { b with state := .halfOpen, halfOpenProbes := 1 }, false)
    else (false, b, flag)
  | .halfOpen =>
    if b.halfOpenProbes < b.halfOpenMaxProbes then
      (true, { b with halfOpenProbes := b.halfOpenProbes + 1 }, flag)
    else (false, b, flag)

/-- `State`: reading the state also performs the open → half-open transition. -/
def currentState (now : Time) (b : Breaker) (flag : Bool) : State × Breaker × Bool :=
  if b.state = .open ∧ b.cooledDown now then
    (.halfOpen, { b with state := .halfOpen, halfOpenProbes := 0 }, false)
  else (b.state, b, flag)

end Breaker

end HootLb.Circuitbreaker
