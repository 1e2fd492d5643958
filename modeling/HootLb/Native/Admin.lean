import HootLb.Native.Store

/-!
# Admin API handlers

The mutating handlers of `internal/admin/handlers.go`. A handler reads pool
settings from the configuration the admin server was created with and backends
from the snapshot it loads.
-/

namespace HootLb.Admin

open Config HootLb.Runtime

/-- An admin API response: the status code and the error text of `writeError`. -/
structure Response where
  status : Nat
  error : Option String
  deriving DecidableEq

/-- `AddBackendRequest`. -/
structure AddBackendRequest where
  address : String
  weight : Int
  deriving DecidableEq

/-- `findPoolConfig`, in the configuration the handler was created with. -/
def findPoolConfig (cfg : Config) (name : String) : Option PoolConfig :=
  cfg.pools.find? fun p => p.name = name

/-- What add and remove check before they load the snapshot. -/
def checkPoolConfig (cfg : Config) (poolName conflict : String) : Except Response PoolConfig :=
  match findPoolConfig cfg poolName with
  | none => .error { status := 404, error := some "pool not found" }
  | some poolCfg =>
    if poolCfg.discovery.isSome then .error { status := 409, error := some conflict }
    else .ok poolCfg

/-- `addBackend` before the load. `body` is the decoded request body. -/
def addBackendCheck (cfg : Config) (poolName : String) (body : Option AddBackendRequest) :
    Except Response (PoolConfig × AddBackendRequest) :=
  match checkPoolConfig cfg poolName "cannot add backends to a discovery-driven pool" with
  | .error r => .error r
  | .ok poolCfg =>
    match body with
    | none => .error { status := 400, error := some "invalid request body" }
    | some req =>
      if req.address = "" then .error { status := 400, error := some "address is required" }
      else .ok (poolCfg, req)

/-- `addBackend` after the load: the new backends of the pool. -/
def addBackendPlan (req : AddBackendRequest) (pool : Option PoolState) :
    Except Response (List Backend) :=
  match pool with
  | none => .error { status := 404, error := some "pool not found" }
  | some ps =>
    if ps.servers.any fun srv => srv.address = req.address then
      .error { status := 409, error := some "backend address already exists" }
    else .ok (ps.members ++ [{ address := req.address, weight := req.weight }])

/-- `handler.addBackend`. -/
def addBackend (cfg : Config) (poolName : String) (body : Option AddBackendRequest) (σ : Store) :
    Response × Store :=
  match addBackendCheck cfg poolName body with
  | .error r => (r, σ)
  | .ok (poolCfg, req) =>
    match addBackendPlan req (σ.pool? poolName) with
    | .error r => (r, σ)
    | .ok newBackends =>
      ({ status := 201, error := none }, σ.updatePool poolName newBackends poolCfg)

/-- `removeBackend` before the load. -/
def removeBackendCheck (cfg : Config) (poolName : String) : Except Response PoolConfig :=
  checkPoolConfig cfg poolName "cannot remove backends from a discovery-driven pool"

/-- `removeBackend` after the load: the remaining backends of the pool. -/
def removeBackendPlan (address : String) (pool : Option PoolState) :
    Except Response (List Backend) :=
  match pool with
  | none => .error { status := 404, error := some "pool not found" }
  | some ps =>
    if ps.servers.any fun srv => srv.address = address then
      .ok (ps.members.filter fun b => b.address ≠ address)
    else .error { status := 404, error := some "backend not found" }

/-- `handler.removeBackend`. -/
def removeBackend (cfg : Config) (poolName address : String) (σ : Store) : Response × Store :=
  match removeBackendCheck cfg poolName with
  | .error r => (r, σ)
  | .ok poolCfg =>
    match removeBackendPlan address (σ.pool? poolName) with
    | .error r => (r, σ)
    | .ok newBackends =>
      ({ status := 204, error := none }, σ.updatePool poolName newBackends poolCfg)

/-- `drainBackend` and `undrainBackend`, which differ in the value they set. -/
def setDraining (draining : Bool) (poolName address : String) (σ : Store) : Response × Store :=
  match σ.current.poolStates.lookup poolName with
  | none => ({ status := 404, error := some "pool not found" }, σ)
  | some ref =>
    match (σ.heap.pools[ref]?).bind fun ps => ps.setDraining address draining with
    | none => ({ status := 404, error := some "backend not found" }, σ)
    | some _ =>
      ( { status := 204, error := none }
      , σ.modifyPool ref fun ps => (ps.setDraining address draining).getD ps)

/-- `handler.drainBackend`. -/
def drainBackend : String → String → Store → Response × Store := setDraining true

/-- `handler.undrainBackend`. -/
def undrainBackend : String → String → Store → Response × Store := setDraining false

end HootLb.Admin
