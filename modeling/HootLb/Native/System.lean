import HootLb.Native.Admin
import HootLb.Native.Watcher

/-!
# The running process

`cmd/lb`: startup, and the operations a running process performs one after
another. The startup configuration is captured three times: by the admin
handlers, by every poller (its pool's part) and by the proxies' pool getters; a
reload changes none of these.
-/

namespace HootLb

open Config HootLb.Runtime HootLb.Reload HootLb.Admin Circuitbreaker

/-- `newDiscoveryAdapterForPool`: only DNS pools get a poller. -/
def newDiscoveryAdapterForPool (p : PoolConfig) : Except Message Unit :=
  match p.discovery with
  | none => .error { format := "pool %q has no discovery config", args := [.str p.name] }
  | some d =>
    if d.type = "dns" then
      if d.dns.isNone then
        .error { format := "pool %q: dns config missing", args := [.str p.name] }
      else .ok ()
    else if d.type = "consul" then
      .error (.text "consul discovery requires building with -tags consul")
    else if d.type = "k8s" then
      .error (.text "k8s discovery requires building with -tags k8s")
    else if d.type = "docker" then
      .error (.text "docker discovery requires building with -tags docker")
    else
      .error
        { format := "unknown discovery type %q for pool %q", args := [.str d.type, .str p.name] }

/-- Why the process does not start. -/
inductive StartupError where
  | load (why : LoadError)
  | build (why : BuildError)
  | discovery (pool : String) (why : Message)
  deriving DecidableEq

/-- The running process. `cfg` and `watcher` are fixed at startup. -/
structure System where
  cfg : Config
  watcher : Watcher
  store : Store
  pollers : List Poller
  now : Time

/-- One poller for every pool with a discovery block. -/
def startPollers (σ : Store) : List PoolConfig → Except StartupError (List Poller)
  | [] => .ok []
  | p :: rest =>
    if p.discovery.isNone then startPollers σ rest
    else
      match newDiscoveryAdapterForPool p with
      | .error why => .error (.discovery p.name why)
      | .ok () =>
        match startPollers σ rest with
        | .error e => .error e
        | .ok ps => .ok (newPoller σ p :: ps)

/-- `run` up to the point where the process serves. -/
def startup (host : Host) (file : Except String Bytes) (env : BuildEnv) (now : Time) :
    Except StartupError System :=
  match host.load file with
  | .error e => .error (.load e)
  | .ok cfg =>
    match buildSnapshot host.tags env cfg { pools := [], certs := [] } with
    | .error e => .error (.build e)
    | .ok (snap, heap) =>
      -- the checkers are started before the pollers are made
      let store : Store := { heap, current := snap, started := checkerRefs snap, stopped := [] }
      match startPollers store cfg.pools with
      | .error e => .error e
      | .ok pollers =>
        .ok { cfg, watcher := { host, certStores := snap.certStores }, store, pollers, now }

/-- One operation of the running process. Traffic and probes act on pool states
    directly: a connection opened before a swap still reports to the pool state
    it was opened with. -/
inductive Op where
  | reload (env : ReloadEnv)
  | addBackend (poolName : String) (body : Option AddBackendRequest)
  | removeBackend (poolName address : String)
  | drainBackend (poolName address : String)
  | undrainBackend (poolName address : String)
  | poll (k : Nat) (resolved : Except String (List Backend))
  | event (ref : PoolRef) (e : PoolEvent)
  | advance (d : Nat)

/-- Run one operation. -/
def System.step (s : System) : Op → System
  | .reload env => { s with store := (s.watcher.checkAndReload env s.store).2 }
  | .addBackend poolName body =>
    { s with store := (Admin.addBackend s.cfg poolName body s.store).2 }
  | .removeBackend poolName address =>
    { s with store := (Admin.removeBackend s.cfg poolName address s.store).2 }
  | .drainBackend poolName address =>
    { s with store := (Admin.drainBackend poolName address s.store).2 }
  | .undrainBackend poolName address =>
    { s with store := (Admin.undrainBackend poolName address s.store).2 }
  | .poll k resolved =>
    match s.pollers[k]? with
    | none => s
    | some p =>
      let (_, p, store) := p.poll resolved s.store
      { s with store, pollers := s.pollers.set k p }
  | .event ref e => { s with store := s.store.modifyPool ref fun ps => ps.apply s.now e }
  | .advance d => { s with now := s.now + d }

/-- Run a sequence of operations. -/
def System.exec (s : System) (ops : List Op) : System := ops.foldl System.step s

end HootLb
