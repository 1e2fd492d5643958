import HootLb.Native.Balancer
import HootLb.Native.Breaker

/-!
# Pool state

`runtime.PoolState` with everything that hangs off it: the server objects, the
balancer, the health checker and the circuit breakers. All of these are
allocated together by whoever builds the pool and point at each other only
inside one pool state, so a pointer to a server is its index in `servers`.

The operations are the in-place mutations that traffic, probes and the admin API
perform on a pool state that is already installed.
-/

namespace HootLb.Runtime

open Balancer Circuitbreaker Config

/-- `discovery.Backend`: a resolved upstream. -/
structure Backend where
  address : String
  weight : Int
  deriving DecidableEq

/-! ## Health checker -/

/-- `health.BackendHealth`: the hysteresis counters of one server. -/
structure BackendHealth where
  server : Nat
  consecutiveSuccess : Int
  consecutiveFailure : Int
  deriving DecidableEq

/-- `health.Checker`. -/
structure Checker where
  poolName : String
  cfg : HealthCheckConfig
  backends : List BackendHealth
  deriving DecidableEq

/-- `health.NewChecker`: no checker when the block is absent or its type is `none`. -/
def newChecker (poolCfg : PoolConfig) (servers : List Server) : Option Checker :=
  match poolCfg.healthCheck with
  | none => none
  | some hc =>
    if hc.type = "none" then none
    else
      some
        { poolName := poolCfg.name, cfg := hc
          backends := (List.range servers.length).map fun i =>
            { server := i, consecutiveSuccess := 0, consecutiveFailure := 0 } }

/-! ## Pool state -/

/-- A breaker together with the server whose `circuitOpen` flag it was given. -/
structure BreakerCell where
  breaker : Breaker
  server : Nat
  deriving DecidableEq

structure PoolState where
  lb : LoadBalancer Nat
  servers : List Server
  fr : Option Checker
  sticky : Option StickyConfig
  breakers : Option (GoMap BreakerCell)
  retry : Option RetryConfig
  deriving DecidableEq

/-- What a dangling handle reads as: a server that is never eligible. -/
def deadServer : Server :=
  { address := "", weight := 0, healthy := false, draining := false, circuitOpen := false }

/-- The server behind a handle. -/
def derefIn (servers : List Server) (i : Nat) : Server := servers.getD i deadServer

/-- One `balancer.NewServer` per backend, in order. -/
def newServers (backends : List Backend) : List Server :=
  backends.map fun b => newServer b.address b.weight

/-- One breaker per server, keyed by address: of two servers with one address
    the later one's breaker replaces the earlier one's. -/
def newBreakers (cb : CircuitBreakerConfig) (servers : List Server) : GoMap BreakerCell :=
  servers.zipIdx.foldl
    (fun m p => m.insert p.1.address
      { breaker := newBreaker cb.failureThreshold cb.openDuration cb.halfOpenMaxProbes
        server := p.2 })
    ∅

namespace PoolState

/-- The server behind a handle of this pool. -/
def deref (ps : PoolState) (i : Nat) : Server := derefIn ps.servers i

/-- Change the server behind a handle. -/
def modifyServer (ps : PoolState) (i : Nat) (f : Server → Server) : PoolState :=
  { ps with servers := ps.servers.modify i f }

/-- `Pick` on the pool's balancer. -/
def pick (ps : PoolState) (draw : Nat) (key : String) : PickResult Nat × PoolState :=
  let (r, lb) := ps.lb.pick ps.deref draw key
  (r, { ps with lb })

/-- `Acquire` on the pool's balancer, when it counts connections. -/
def acquire (ps : PoolState) (addr : String) : PoolState := { ps with lb := ps.lb.acquire addr }

/-- `Release` on the pool's balancer, when it counts connections. -/
def release (ps : PoolState) (addr : String) : PoolState := { ps with lb := ps.lb.release addr }

/-- Run a breaker operation on the breaker of `addr`, writing its flag back to
    the server it was made for. -/
def withBreaker (ps : PoolState) (addr : String) (f : Breaker → Bool → Breaker × Bool) :
    PoolState :=
  match ps.breakers with
  | none => ps
  | some m =>
    match m.lookup addr with
    | none => ps
    | some cell =>
      let (b, flag) := f cell.breaker (ps.deref cell.server).circuitOpen
      { ps with
        breakers := some (m.insert addr { cell with breaker := b })
        servers := ps.servers.modify cell.server fun s => { s with circuitOpen := flag } }

/-- `BackendOutcome.RecordSuccess`. -/
def recordSuccess (ps : PoolState) (addr : String) : PoolState :=
  ps.withBreaker addr Breaker.recordSuccess

/-- `BackendOutcome.RecordFailure`. -/
def recordFailure (ps : PoolState) (now : Time) (addr : String) : PoolState :=
  ps.withBreaker addr (Breaker.recordFailure now)

/-- Change the `k`-th entry of the checker's backends. -/
def modifyHealth (ps : PoolState) (k : Nat) (f : BackendHealth → BackendHealth) : PoolState :=
  { ps with fr := ps.fr.map fun c => { c with backends := c.backends.modify k f } }

/-- `Checker.ReportFailure`: only the first server with the address is looked at. -/
def reportFailure (ps : PoolState) (addr : String) : PoolState :=
  match ps.fr with
  | none => ps
  | some c =>
    match c.backends.findIdx? fun bh => (ps.deref bh.server).address = addr with
    | none => ps
    | some k =>
      match c.backends[k]? with
      | none => ps
      | some bh =>
        if (ps.deref bh.server).healthy then
          (ps.modifyServer bh.server fun s => { s with healthy := false }).modifyHealth k
            fun bh => { bh with consecutiveSuccess := 0 }
        else ps

/-- `Checker.runCheck` on the checker's `k`-th backend, given the probe's result. -/
def runCheck (ps : PoolState) (k : Nat) (success : Bool) : PoolState :=
  match ps.fr with
  | none => ps
  | some c =>
    if c.cfg.type ≠ "tcp" ∧ c.cfg.type ≠ "http" then ps
    else
      match c.backends[k]? with
      | none => ps
      | some bh =>
        let healthy := (ps.deref bh.server).healthy
        if success then
          let n := bh.consecutiveSuccess + 1
          if !healthy ∧ n ≥ c.cfg.healthyThreshold then
            (ps.modifyServer bh.server fun s => { s with healthy := true }).modifyHealth k
              fun bh => { bh with consecutiveFailure := 0, consecutiveSuccess := 0 }
          else
            ps.modifyHealth k fun bh => { bh with consecutiveFailure := 0, consecutiveSuccess := n }
        else
          let n := bh.consecutiveFailure + 1
          if healthy ∧ n ≥ c.cfg.unhealthyThreshold then
            (ps.modifyServer bh.server fun s => { s with healthy := false }).modifyHealth k
              fun bh => { bh with consecutiveSuccess := 0, consecutiveFailure := 0 }
          else
            ps.modifyHealth k fun bh => { bh with consecutiveSuccess := 0, consecutiveFailure := n }

/-- Set the draining flag of the first server with the address, if there is one. -/
def setDraining (ps : PoolState) (addr : String) (draining : Bool) : Option PoolState :=
  (ps.servers.findIdx? fun s => s.address = addr).map fun i =>
    ps.modifyServer i fun s => { s with draining }

/-- The pool's members as addresses and weights, in order. -/
def members (ps : PoolState) : List Backend :=
  ps.servers.map fun s => { address := s.address, weight := s.weight }

end PoolState

/-- The in-place changes of an installed pool state: what the proxies do for a
    connection (`Pick`, `Acquire`, the breaker outcome, the passive failure
    report, `Release`), what a probe does, and what drain and undrain do. -/
inductive PoolEvent where
  | pick (draw : Nat) (key : String)
  | acquire (addr : String)
  | release (addr : String)
  | outcome (addr : String) (ok : Bool)
  | reportFailure (addr : String)
  | probe (k : Nat) (success : Bool)
  | setDraining (addr : String) (draining : Bool)
  deriving DecidableEq

/-- Perform one in-place change at time `now`. -/
def PoolState.apply (now : Time) (ps : PoolState) : PoolEvent → PoolState
  | .pick draw key => (ps.pick draw key).2
  | .acquire addr => ps.acquire addr
  | .release addr => ps.release addr
  | .outcome addr ok => if ok then ps.recordSuccess addr else ps.recordFailure now addr
  | .reportFailure addr => ps.reportFailure addr
  | .probe k success => ps.runCheck k success
  | .setDraining addr draining => (ps.setDraining addr draining).getD ps

end HootLb.Runtime
