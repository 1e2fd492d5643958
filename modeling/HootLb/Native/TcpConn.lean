import HootLb.Native.Snapshot

/-!
# Connections of the TCP proxy

`handleConn` of `internal/proxy/l4/tcp.go`. Any number of connections are handled at once,
and meanwhile the pool state is replaced and changed by others. A call keeps the balancer,
the failure reporter and the breakers that `poolGetter` has returned to it. A step is what
lies between two points where others can run.
-/

namespace HootLb.L4

open Balancer Config HootLb.Runtime Circuitbreaker

/-- What a call does between `Acquire` and the deferred `Release`. -/
inductive DialStage where
  | dialing
  /-- the dial has failed -/
  | failed
  /-- the failure reporter knows -/
  | reported
  | connected
  | relaying
  | leaving
  deriving DecidableEq

/-- Where a call of `handleConn` is. `pool` is the pool state it has got. -/
inductive ConnStage where
  | accepted
  /-- past the rate limiter -/
  | admitted
  | fetched (pool : Nat)
  | picked (pool : Nat) (backend : String)
  | holding (pool : Nat) (backend : String) (stage : DialStage)
  | returned
  /-- `Pick` has panicked, and the process is gone -/
  | panicked
  deriving DecidableEq

/-- What a call meets: the rate limiter's answer, the random draw and the client key of the
    `Pick`, whether the dial succeeds, and the clock. -/
structure ConnIO where
  allowed : Bool
  draw : Nat
  key : String
  dialed : Bool
  now : Time

/-- The pool states so far, the last of which `poolGetter` returns, and the calls. -/
structure TcpConns where
  pools : List PoolState
  conns : List ConnStage

/-- After startup. -/
def newTcpConns (cfg : PoolConfig) (backends : List Backend) : TcpConns :=
  { pools := [buildPoolState cfg backends], conns := [] }

/-- What a call does next to its pool state, and where it is then. -/
def ConnStage.next (pools : List PoolState) (io : ConnIO) :
    ConnStage → Option (Nat × PoolEvent) × ConnStage
  | accepted => (none, if io.allowed then .admitted else .returned)
  | admitted => (none, .fetched (pools.length - 1))
  | fetched pool =>
    ( some (pool, .pick io.draw io.key)
    , match pools[pool]? with
      | none => .returned
      | some ps =>
        match (ps.pick io.draw io.key).1 with
        | .ok b => .picked pool (ps.deref b).address
        | .error _ => .returned
        | .panic => .panicked)
  | picked pool backend => (some (pool, .acquire backend), .holding pool backend .dialing)
  | holding pool backend .dialing =>
    (none, .holding pool backend (if io.dialed then .connected else .failed))
  | holding pool backend .failed =>
    (some (pool, .reportFailure backend), .holding pool backend .reported)
  | holding pool backend .reported =>
    (some (pool, .outcome backend false), .holding pool backend .leaving)
  | holding pool backend .connected =>
    (some (pool, .outcome backend true), .holding pool backend .relaying)
  | holding pool backend .relaying => (none, .holding pool backend .leaving)
  | holding pool backend .leaving => (some (pool, .release backend), .returned)
  | returned => (none, .returned)
  | panicked => (none, .panicked)

inductive TcpAction where
  | accept
  | proceed (conn : Nat) (io : ConnIO)
  /-- a reload installs a new pool state -/
  | rebuild (cfg : PoolConfig) (backends : List Backend)
  /-- an admin request or a poll installs one -/
  | update (cfg : PoolConfig) (backends : List Backend)
  | probe (pool k : Nat) (success : Bool)
  | setDraining (pool : Nat) (addr : String) (draining : Bool)

namespace TcpConns

def apply (s : TcpConns) (now : Time) : Option (Nat × PoolEvent) → TcpConns
  | none => s
  | some (pool, e) => { s with pools := s.pools.modify pool fun ps => ps.apply now e }

/-- A step. An action that is not possible does nothing. -/
def step (s : TcpConns) (a : TcpAction) : TcpConns :=
  if .panicked ∈ s.conns then s
  else
    match a with
    | .accept => { s with conns := s.conns ++ [.accepted] }
    | .proceed conn io =>
      match s.conns[conn]? with
      | none => s
      | some stage =>
        let (e, next) := stage.next s.pools io
        { s.apply io.now e with conns := s.conns.set conn next }
    | .rebuild cfg backends => { s with pools := s.pools ++ [buildPoolState cfg backends] }
    | .update cfg backends => { s with pools := s.pools ++ [updatedPoolState cfg backends] }
    -- neither looks at the clock
    | .probe pool k success => s.apply 0 (some (pool, .probe k success))
    | .setDraining pool addr draining => s.apply 0 (some (pool, .setDraining addr draining))

end TcpConns

end HootLb.L4
