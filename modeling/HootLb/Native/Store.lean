import HootLb.Native.Snapshot

/-!
# The running snapshot and the discovery poller

`runtime.AtomicSnapshot` with the heap it points into, and `runtime.Poller`.

Three components replace the current snapshot: the pollers, the admin handlers
and the configuration watcher. Every one of them loads the pointer, builds a new
snapshot from what it read, starts the new checkers, swaps the pointer and stops
the old checkers. Each is modelled as one function that runs it from beginning to
end, put together from a part before the load, a part that looks at what was
loaded, and the build, so that the same parts can also be interleaved.
-/

namespace HootLb.Runtime

open Balancer Circuitbreaker Config

/-- The state the updaters share: the heap, the current snapshot, and every
    `Start` and `Stop` of a checker so far (a checker is named by its pool state). -/
structure Store where
  heap : Heap
  current : Snapshot
  started : List PoolRef
  stopped : List PoolRef

/-- The pool state behind a name of a snapshot. -/
def Snapshot.pool? (snap : Snapshot) (heap : Heap) (name : String) : Option PoolState :=
  (snap.poolStates.lookup name).bind fun ref => heap.pools[ref]?

/-- The pool state behind a name of the current snapshot. -/
def Store.pool? (σ : Store) (name : String) : Option PoolState :=
  σ.current.pool? σ.heap name

/-- Start the new checkers, swap the pointer, stop the old checkers. -/
def Store.install (σ : Store) (heap : Heap) (new : Snapshot) (start stop : List PoolRef) : Store :=
  { heap, current := new, started := σ.started ++ start, stopped := σ.stopped ++ stop }

/-- What add, remove and poll do once they know the new backends of a pool. -/
def Store.updatePool (σ : Store) (poolName : String) (newBackends : List Backend)
    (cfg : PoolConfig) : Store :=
  let old := σ.current
  let (new, heap) := updatePoolBackends old poolName newBackends cfg σ.heap
  σ.install heap new (new.checkers.lookup poolName).toList (old.checkers.lookup poolName).toList

/-- The arguments of a call of `UpdatePoolBackends`, without the snapshot. -/
structure PoolUpdate where
  poolName : String
  newBackends : List Backend
  cfg : PoolConfig

/-- Change a pool state in place. -/
def Store.modifyPool (σ : Store) (ref : PoolRef) (f : PoolState → PoolState) : Store :=
  { σ with heap := { σ.heap with pools := σ.heap.pools.modify ref f } }

/-! ## Poller -/

/-- `runtime.Poller`: the pool's configuration at startup and the last resolved
    set. -/
structure Poller where
  poolName : String
  cfg : PoolConfig
  lastBackends : List Backend
  deriving DecidableEq

/-- `NewPoller`: the memory is seeded from the current snapshot. -/
def newPoller (σ : Store) (cfg : PoolConfig) : Poller :=
  { poolName := cfg.name, cfg
    lastBackends := match σ.pool? cfg.name with
      | some ps => ps.members
      | none => [] }

/-- `aAddrs[addr]`. -/
def addrCount (m : GoMap Nat) (addr : String) : Nat := (m.lookup addr).getD 0

/-- The second loop of `backendSetsEqual`, counting addresses down. -/
def consumeAddrs (m : GoMap Nat) : List Backend → Bool
  | [] => true
  | be :: rest =>
    if addrCount m be.address = 0 then false
    else consumeAddrs (m.insert be.address (addrCount m be.address - 1)) rest

/-- `backendSetsEqual`: addresses are compared with their multiplicity, weights
    are not. -/
def backendSetsEqual (a b : List Backend) : Bool :=
  if a.length ≠ b.length then false
  else
    consumeAddrs (a.foldl (fun m be => m.insert be.address (addrCount m be.address + 1)) ∅) b

/-- How a `poll` call ends. -/
inductive PollOutcome where
  | resolveFailed (why : String)
  | unchanged
  | updated
  deriving DecidableEq

/-- `poll` before the load: the resolved set when it differs from the memory. -/
def Poller.pollCheck (p : Poller) (resolved : Except String (List Backend)) :
    Except PollOutcome (List Backend) :=
  match resolved with
  | .error why => .error (.resolveFailed why)
  | .ok backends =>
    if backendSetsEqual p.lastBackends backends then .error .unchanged else .ok backends

/-- `Poller.poll`, given what `Resolve` answers. -/
def Poller.poll (p : Poller) (resolved : Except String (List Backend)) (σ : Store) :
    PollOutcome × Poller × Store :=
  match p.pollCheck resolved with
  | .error o => (o, p, σ)
  | .ok backends =>
    (.updated, { p with lastBackends := backends }, σ.updatePool p.poolName backends p.cfg)

end HootLb.Runtime
