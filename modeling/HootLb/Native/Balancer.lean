import HootLb.Native.Config
import Mathlib.Algebra.Ring.Int.Defs
import Mathlib.Algebra.Ring.Nat

/-!
# Load balancing algorithms

The five balancers of `internal/balancer`, each as a structure with its mutable
state and a `pick` that returns the selected backend and the state after it. A
balancer stores backends as handles of an arbitrary type `ρ` (Go stores
interface values that point at `Server` objects); `deref` reads the server
behind a handle at the time of the call, so a flag changed by the health
checker, the admin API or a circuit breaker is seen by the next `pick`.

A `pick` can also panic: `Random` and `IPHash` reduce a draw modulo the total
weight, which Go refuses for a total that is not positive (`Intn`) or whose low
32 bits are zero (`%`).
-/

namespace HootLb.Balancer

/-- `balancer.Server`: one upstream with its three independent state flags. -/
structure Server where
  address : String
  weight : Int
  healthy : Bool
  draining : Bool
  circuitOpen : Bool
  deriving DecidableEq

/-- `NewServer`: a server starts healthy, not draining, with its circuit closed. -/
def newServer (address : String) (weight : Int) : Server :=
  { address, weight, healthy := true, draining := false, circuitOpen := false }

/-- The test every `Pick` applies: healthy, not draining, circuit not open. -/
def Server.eligible (s : Server) : Bool :=
  s.healthy && !s.draining && !s.circuitOpen

/-- What a `Pick` call ends in. -/
inductive PickResult (ρ : Type) where
  | ok (b : ρ)
  | error (msg : String)
  | panic
  deriving DecidableEq

/-- Two's complement wrap-around of Go's 64-bit `int`. -/
def goInt (x : Int) : Int := Int.bmod x (2 ^ 64)

variable {ρ : Type}

/-- The eligible backends, in list order. -/
def candidates (deref : ρ → Server) (backends : List ρ) : List ρ :=
  backends.filter fun b => (deref b).eligible

/-! ## Round robin -/

structure RoundRobin (ρ : Type) where
  backends : List ρ
  next : UInt64
  deriving DecidableEq

def newRoundRobin (backends : List ρ) : RoundRobin ρ := { backends, next := 0 }

/-- `RoundRobin.Pick`: scan at most `n` positions from the counter's value. -/
def RoundRobin.pick (deref : ρ → Server) (r : RoundRobin ρ) : PickResult ρ × RoundRobin ρ :=
  let n := r.backends.length
  if n = 0 then (.error "no backends available", r)
  else
    let start := r.next
    let visit (i : Nat) : Option ρ :=
      let idx := (start + i.toUInt64) % n.toUInt64
      r.backends[idx.toNat]?.filter fun b => (deref b).eligible
    -- the counter moves on whether or not a backend is found
    match (List.range n).findSome? visit with
    | some b => (.ok b, { r with next := r.next + 1 })
    | none => (.error "no healthy backends available", { r with next := r.next + 1 })

def RoundRobin.updateBackends (r : RoundRobin ρ) (backends : List ρ) : RoundRobin ρ :=
  { r with backends }

/-! ## Smooth weighted round robin -/

/-- Weights are unbounded integers here, so `math.MinInt`, the initial best
    weight, is below every weight and is represented by `none`. -/
structure WeightedRoundRobin (ρ : Type) where
  backends : List ρ
  currentWeights : List Int
  totalWeight : Int
  deriving DecidableEq

/-- `NewWeightedRoundRobin` and `rebuildWeights`. -/
def newWeightedRoundRobin (deref : ρ → Server) (backends : List ρ) : WeightedRoundRobin ρ :=
  { backends
    currentWeights := backends.map fun _ => 0
    totalWeight := (backends.map fun b => (deref b).weight).sum }

/-- The scan of `Pick` over the healthy candidates: every candidate's current
    weight grows by its configured weight, and the first largest one is kept. -/
def WeightedRoundRobin.scan (weights : List Int) (best : Option (Nat × Int)) :
    List (Nat × Int) → List Int × Option (Nat × Int)
  | [] => (weights, best)
  | (idx, w) :: rest =>
    let cw := weights.getD idx 0 + w
    let weights := weights.set idx cw
    match best with
    | none => scan weights (some (idx, cw)) rest
    | some (bi, bw) => scan weights (if cw > bw then some (idx, cw) else some (bi, bw)) rest

/-- Index and weight of every eligible backend. -/
def WeightedRoundRobin.healthy (deref : ρ → Server) (w : WeightedRoundRobin ρ) :
    List (Nat × Int) :=
  (w.backends.zipIdx.filter fun p => (deref p.1).eligible).map fun p => (p.2, (deref p.1).weight)

/-- `WeightedRoundRobin.Pick`. -/
def WeightedRoundRobin.pick (deref : ρ → Server) (w : WeightedRoundRobin ρ) :
    PickResult ρ × WeightedRoundRobin ρ :=
  if w.backends.length = 0 then (.error "no backends available", w)
  else
    let healthy := w.healthy deref
    let healthyTotal := (healthy.map (·.2)).sum
    let select (idx : Nat) : PickResult ρ :=
      match w.backends[idx]? with
      | some b => .ok b
      | none => .panic
    match healthy with
    | [] => (.error "no healthy backends available", w)
    -- a single candidate is taken without touching the weights
    | [c] => (select c.1, w)
    | _ =>
      let (weights, best) := scan w.currentWeights none healthy
      let bestIdx := (best.map (·.1)).getD 0
      -- the winner pays with the weight of the healthy backends, not with `totalWeight`
      let weights := weights.set bestIdx (weights.getD bestIdx 0 - healthyTotal)
      (select bestIdx, { w with currentWeights := weights })

def WeightedRoundRobin.updateBackends (deref : ρ → Server) (_ : WeightedRoundRobin ρ)
    (backends : List ρ) : WeightedRoundRobin ρ :=
  newWeightedRoundRobin deref backends

/-! ## Least connections -/

structure LeastConnections (ρ : Type) where
  backends : List ρ
  /-- backend address → active connection count -/
  conns : GoMap Nat
  deriving DecidableEq

def newLeastConnections (backends : List ρ) : LeastConnections ρ := { backends, conns := ∅ }

/-- `lc.conns[addr]`: a missing entry reads as zero. -/
def LeastConnections.count (lc : LeastConnections ρ) (addr : String) : Nat :=
  (lc.conns.lookup addr).getD 0

/-- The loop body of `Pick`: an eligible backend replaces the best so far when it
    has fewer connections, or as many and a larger weight. -/
def LeastConnections.better (deref : ρ → Server) (lc : LeastConnections ρ) (best : Option ρ)
    (b : ρ) : Option ρ :=
  if !(deref b).eligible then best
  else
    match best with
    | none => some b
    | some a =>
      let c := lc.count (deref b).address
      let bestConns := lc.count (deref a).address
      if c < bestConns ∨ (c = bestConns ∧ (deref b).weight > (deref a).weight) then some b
      else some a

/-- `LeastConnections.Pick`: fewest connections, ties to the heavier backend. -/
def LeastConnections.pick (deref : ρ → Server) (lc : LeastConnections ρ) : PickResult ρ :=
  match lc.backends.foldl (lc.better deref) none with
  | none => .error "no healthy backends available"
  | some b => .ok b

/-- `Acquire`, by the backend's address. -/
def LeastConnections.acquire (lc : LeastConnections ρ) (addr : String) : LeastConnections ρ :=
  { lc with conns := lc.conns.insert addr (lc.count addr + 1) }

/-- `Release`: the count is clamped at zero. -/
def LeastConnections.release (lc : LeastConnections ρ) (addr : String) : LeastConnections ρ :=
  if lc.count addr > 0 then { lc with conns := lc.conns.insert addr (lc.count addr - 1) } else lc

def LeastConnections.updateBackends (lc : LeastConnections ρ) (backends : List ρ) :
    LeastConnections ρ :=
  { lc with backends }

/-! ## Weighted random and client hashing -/

/-- The walk both weighted draws end in: subtract weights until the target is
    negative; past the end the last candidate is taken. -/
def walk (deref : ρ → Server) (last : ρ) (target : Int) : List ρ → ρ
  | [] => last
  | b :: rest =>
    let target := goInt (target - (deref b).weight)
    if target < 0 then b else walk deref last target rest

/-- `totalWeight` of the candidates, accumulated in a 64-bit `int`. -/
def totalWeight (deref : ρ → Server) (cs : List ρ) : Int :=
  cs.foldl (fun total b => goInt (total + (deref b).weight)) 0

structure Random (ρ : Type) where
  backends : List ρ
  deriving DecidableEq

/-- `Random.Pick`. `draw` stands for the generator: `Intn(n)` is `draw % n`. -/
def Random.pick (deref : ρ → Server) (draw : Nat) (rb : Random ρ) : PickResult ρ :=
  let cs := candidates deref rb.backends
  match cs with
  | [] => .error "no healthy backends available"
  | [b] => .ok b
  | b :: rest =>
    let total := totalWeight deref cs
    -- `Intn` panics on a bound that is not positive
    if total ≤ 0 then .panic
    else .ok (walk deref ((b :: rest).getLast (by simp)) (draw % total) cs)

def Random.updateBackends (_ : Random ρ) (backends : List ρ) : Random ρ := { backends }

structure IPHash (ρ : Type) where
  backends : List ρ
  deriving DecidableEq

/-- `fnv.New32a` over the UTF-8 bytes of the key. -/
def fnv32a (key : String) : UInt32 :=
  key.toUTF8.toList.foldl (fun h b => (h ^^^ b.toUInt32) * 16777619) 2166136261

/-- `IPHash.Pick`; `key` is the context's client key, empty when absent. -/
def IPHash.pick (deref : ρ → Server) (key : String) (ih : IPHash ρ) : PickResult ρ :=
  let cs := candidates deref ih.backends
  match cs with
  | [] => .error "no healthy backends available"
  | [b] => .ok b
  | b :: rest =>
    let total := totalWeight deref cs
    let hash := fnv32a (if key = "" then "default" else key)
    -- `uint32(total)`, by which the hash is reduced: zero is a division by zero
    let modulus := (total % 2 ^ 32).toNat
    if modulus = 0 then .panic
    else .ok (walk deref ((b :: rest).getLast (by simp)) (hash.toNat % modulus : Nat) cs)

/-- `IPHash.Pick` for a client whose key has this hash. -/
def IPHash.pickHash (deref : ρ → Server) (hash : UInt32) (ih : IPHash ρ) : PickResult ρ :=
  let cs := candidates deref ih.backends
  match cs with
  | [] => .error "no healthy backends available"
  | [b] => .ok b
  | b :: rest =>
    let modulus := (totalWeight deref cs % 2 ^ 32).toNat
    if modulus = 0 then .panic
    else .ok (walk deref ((b :: rest).getLast (by simp)) (hash.toNat % modulus : Nat) cs)

theorem IPHash.pick_eq_pickHash (deref : ρ → Server) (key : String) (ih : IPHash ρ) :
    ih.pick deref key = ih.pickHash deref (fnv32a (if key = "" then "default" else key)) := rfl

def IPHash.updateBackends (_ : IPHash ρ) (backends : List ρ) : IPHash ρ := { backends }

/-! ## The balancer interface -/

/-- A `balancer.LoadBalancer` value. -/
inductive LoadBalancer (ρ : Type) where
  | roundRobin (lb : RoundRobin ρ)
  | weightedRoundRobin (lb : WeightedRoundRobin ρ)
  | leastConnections (lb : LeastConnections ρ)
  | random (lb : Random ρ)
  | ipHash (lb : IPHash ρ)
  deriving DecidableEq

namespace LoadBalancer

def backends : LoadBalancer ρ → List ρ
  | roundRobin lb => lb.backends
  | weightedRoundRobin lb => lb.backends
  | leastConnections lb => lb.backends
  | random lb => lb.backends
  | ipHash lb => lb.backends

/-- `LoadBalancer.Pick`, with the random draw and the client key as inputs. -/
def pick (deref : ρ → Server) (draw : Nat) (key : String) :
    LoadBalancer ρ → PickResult ρ × LoadBalancer ρ
  | roundRobin lb => ((lb.pick deref).1, roundRobin (lb.pick deref).2)
  | weightedRoundRobin lb => ((lb.pick deref).1, weightedRoundRobin (lb.pick deref).2)
  | leastConnections lb => (lb.pick deref, leastConnections lb)
  | random lb => (lb.pick deref draw, random lb)
  | ipHash lb => (lb.pick deref key, ipHash lb)

/-- `LoadBalancer.UpdateBackends`. -/
def updateBackends (deref : ρ → Server) (bs : List ρ) : LoadBalancer ρ → LoadBalancer ρ
  | roundRobin lb => roundRobin (lb.updateBackends bs)
  | weightedRoundRobin lb => weightedRoundRobin (lb.updateBackends deref bs)
  | leastConnections lb => leastConnections (lb.updateBackends bs)
  | random lb => random (lb.updateBackends bs)
  | ipHash lb => ipHash (lb.updateBackends bs)

/-- `Acquire` through the optional `ConnReleaser` interface, which only the
    least-connections balancer implements. -/
def acquire (addr : String) : LoadBalancer ρ → LoadBalancer ρ
  | leastConnections lb => leastConnections (lb.acquire addr)
  | lb => lb

/-- `Release` through the optional `ConnReleaser` interface. -/
def release (addr : String) : LoadBalancer ρ → LoadBalancer ρ
  | leastConnections lb => leastConnections (lb.release addr)
  | lb => lb

/-- The in-flight count a balancer keeps for an address. -/
def connCount (addr : String) : LoadBalancer ρ → Nat
  | leastConnections lb => lb.count addr
  | _ => 0

end LoadBalancer

/-- `newBalancer` of the runtime package: an unknown algorithm falls back to
    weighted round robin. -/
def newBalancer (algorithm : String) (deref : ρ → Server) (backends : List ρ) :
    LoadBalancer ρ :=
  if algorithm = "round_robin" then .roundRobin (newRoundRobin backends)
  else if algorithm = "weighted_round_robin" then
    .weightedRoundRobin (newWeightedRoundRobin deref backends)
  else if algorithm = "least_conn" then .leastConnections (newLeastConnections backends)
  else if algorithm = "random" then .random { backends }
  else if algorithm = "ip_hash" then .ipHash { backends }
  else .weightedRoundRobin (newWeightedRoundRobin deref backends)

end HootLb.Balancer
