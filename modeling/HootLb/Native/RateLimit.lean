import HootLb.Native.Balancer
import HootLb.Native.Config
import Mathlib.Algebra.Order.Ring.Rat

/-!
# Rate limiting

`internal/ratelimit`: one token bucket per client address, kept in sixteen
shards, and the sweep that drops idle buckets. Clock readings are nanoseconds and
inputs of the calls. Token arithmetic is exact on finite values.

`Limiter.Allow` reads the clock before it takes the shard's lock. `Limiter.allow`
is the part under the lock; `Admission` is a limiter with calls in flight, where
any call that has read the clock may be the next to take the lock.
-/

namespace HootLb

namespace Float64

/-- IEEE addition. -/
def add : Float64 → Float64 → Float64
  | nan, _ | _, nan => nan
  | posInf, negInf | negInf, posInf => nan
  | posInf, _ | _, posInf => posInf
  | negInf, _ | _, negInf => negInf
  | fin a, fin b => fin (a + b)

/-- IEEE multiplication by a finite number. -/
def mulFin : Float64 → ℚ → Float64
  | nan, _ => nan
  | posInf, q => if q = 0 then nan else if q > 0 then posInf else negInf
  | negInf, q => if q = 0 then nan else if q > 0 then negInf else posInf
  | fin a, q => fin (a * q)

end Float64

namespace Ratelimit

open Balancer

/-- `Duration.Seconds`. -/
def seconds (d : Duration) : ℚ := d / 1000000000

/-- `bucket`. -/
structure Bucket where
  tokens : Float64
  lastTime : Int
  deriving DecidableEq

/-- `bucket.allow`. -/
def Bucket.allow (rate capacity : Float64) (b : Bucket) (now : Int) : Bool × Bucket :=
  let elapsed := seconds (now - b.lastTime)
  let tokens :=
    if elapsed > 0 then
      let tokens := b.tokens.add (rate.mulFin elapsed)
      if capacity.lt tokens then capacity else tokens
    else b.tokens
  if (Float64.fin 1).le tokens then
    (true, { tokens := tokens.add (.fin (-1)), lastTime := now })
  -- the clock of a refused call counts as well
  else (false, { tokens, lastTime := now })

/-- `Limiter`, with one map per shard. -/
structure Limiter where
  rate : Float64
  capacity : Float64
  idleTTL : Duration
  shards : Fin 16 → GoMap Bucket

/-- `NewLimiter`. -/
def newLimiter (requestsPerSecond : Float64) (burst : Int) (idleTTL : Duration) : Limiter :=
  { rate := requestsPerSecond, capacity := .fin burst, idleTTL, shards := fun _ => ∅ }

/-- `fhash(clientIP) % numShards`. -/
def shardOf (clientIP : String) : Fin 16 := Fin.ofNat 16 (fnv32a clientIP).toNat

/-- The bucket of a client, if it has one. -/
def Limiter.bucket? (l : Limiter) (clientIP : String) : Option Bucket :=
  (l.shards (shardOf clientIP)).lookup clientIP

/-- `Limiter.Allow` once it holds the lock; `now` was read before. A client
    without a bucket gets a full one. -/
def Limiter.allow (l : Limiter) (clientIP : String) (now : Int) : Bool × Limiter :=
  let i := shardOf clientIP
  let b := (l.bucket? clientIP).getD { tokens := l.capacity, lastTime := now }
  let (result, b) := b.allow l.rate l.capacity now
  (result, { l with shards := Function.update l.shards i ((l.shards i).insert clientIP b) })

/-- The buckets of a shard that are not idle. -/
def keepActive (idleTTL : Duration) (now : Int) (m : GoMap Bucket) : GoMap Bucket :=
  { entries := m.entries.filter fun e => !decide (now - e.2.lastTime > idleTTL)
    nodupKeys := m.nodupKeys.sublist List.filter_sublist }

/-- `Limiter.evict`, at the clock reading it starts with. -/
def Limiter.evict (l : Limiter) (now : Int) : Limiter :=
  { l with shards := fun i => keepActive l.idleTTL now (l.shards i) }

/-! ## Sequences of calls and sweeps -/

/-- A call of `Allow` or a sweep. -/
inductive LimiterOp where
  | allow (clientIP : String) (now : Int)
  | evict (now : Int)
  deriving DecidableEq

/-- The clock reading of an operation. -/
def LimiterOp.time : LimiterOp → Int
  | .allow _ now => now
  | .evict now => now

def LimiterOp.isAllow : LimiterOp → Bool
  | .allow .. => true
  | .evict _ => false

/-- The results of the `Allow` calls of a sequence. -/
def Limiter.results (l : Limiter) : List LimiterOp → List Bool
  | [] => []
  | .allow clientIP now :: rest =>
    (l.allow clientIP now).1 :: (l.allow clientIP now).2.results rest
  | .evict now :: rest => (l.evict now).results rest

/-! ## Concurrent calls -/

/-- A limiter with calls in flight: the clock, the calls that have read it and
    wait for the lock, and the calls answered so far in the order of the lock. -/
structure Admission where
  limiter : Limiter
  clock : Int
  waiting : List (String × Int)
  answered : List (String × Int × Bool)

/-- What can happen next: time passes, a call reads the clock, or one of the
    waiting calls gets the lock and is answered. -/
inductive AdmissionOp where
  | tick (d : Nat)
  | arrive (clientIP : String)
  | enter (k : Nat)
  deriving DecidableEq

def Admission.step (s : Admission) : AdmissionOp → Admission
  | .tick d => { s with clock := s.clock + d }
  | .arrive clientIP => { s with waiting := s.waiting ++ [(clientIP, s.clock)] }
  | .enter k =>
    match s.waiting[k]? with
    | none => s
    | some (clientIP, now) =>
      let (result, limiter) := s.limiter.allow clientIP now
      { s with
        limiter
        waiting := s.waiting.eraseIdx k
        answered := s.answered ++ [(clientIP, now, result)] }

/-- A new limiter without idle eviction, and no call yet. -/
def newAdmission (requestsPerSecond : Float64) (burst : Int) (clock : Int) : Admission :=
  { limiter := newLimiter requestsPerSecond burst 0, clock, waiting := [], answered := [] }

end Ratelimit

end HootLb
