import HootLb.Native.PoolState

/-!
# Snapshots

`runtime.Snapshot` and the functions that build one: `BuildSnapshot` from a
configuration, `UpdatePoolBackends` from the running snapshot.

A snapshot holds pointers. Pool states and certificate stores live in a `Heap`
that only grows; a `PoolRef` or `CertRef` is the position of an object in it, so
a snapshot copied "by reference" shares its pool states with the original, and
an in-place change of a shared pool state is visible through both. A pool's
checker is allocated with its pool state and is named by the same reference.
-/

namespace HootLb.Runtime

open Balancer Circuitbreaker Config

/-- Pointer to a `PoolState`. -/
abbrev PoolRef := Nat

/-- Pointer to a `tlsutil.CertStore`. -/
abbrev CertRef := Nat

/-- A loaded certificate, identified by the key pair's contents. -/
abbrev Certificate := String

/-- The objects snapshots point at. `certs` holds the certificate map inside
    each `CertStore`. -/
structure Heap where
  pools : List PoolState
  certs : List (GoMap Certificate)

/-- `runtime.ListenerFingerprint`. -/
structure ListenerFingerprint where
  name : String
  address : String
  protocol : String
  tlsMode : String
  deriving DecidableEq

structure Snapshot where
  poolStates : GoMap PoolRef
  certStores : GoMap CertRef
  listeners : List ListenerFingerprint
  checkers : GoMap PoolRef

/-- `tls.LoadX509KeyPair`, from the certificate file and the key file. -/
abbrev KeyPairLoader := String → String → Except String Certificate

/-- What a build reads from the outside: key pairs on disk and the answer of
    each pool's discovery source. -/
structure BuildEnv where
  loadX509KeyPair : KeyPairLoader
  resolve : String → Except String (List Backend)

inductive BuildError where
  | pool (name : String) (reason : Message)
  | certificate (host : String) (reason : String)
  deriving DecidableEq

/-- `newDiscoveryAdapter`: the error it returns for a pool, if any. -/
def newDiscoveryAdapter (tags : BuildTags) (p : PoolConfig) : Except Message Unit :=
  match p.discovery with
  | none => .error (.text "no discovery config")
  | some d =>
    if d.type = "dns" then if d.dns.isNone then .error (.text "dns config missing") else .ok ()
    else if d.type = "consul" then
      if !tags.consul then
        .error (.text "consul discovery requires building with -tags consul")
      else if d.consul.isNone then .error (.text "consul config missing") else .ok ()
    else if d.type = "k8s" then
      if !tags.k8s then .error (.text "k8s discovery requires building with -tags k8s")
      else if d.k8s.isNone then .error (.text "k8s config missing") else .ok ()
    else if d.type = "docker" then
      if !tags.docker then
        .error (.text "docker discovery requires building with -tags docker")
      else if d.docker.isNone then .error (.text "docker config missing") else .ok ()
    else .error { format := "unknown discovery type %q", args := [.str d.type] }

/-- The backends `BuildSnapshot` gives a pool: the static list, or what the
    discovery source answers, where a failed resolution counts as empty. -/
def poolBackends (env : BuildEnv) (p : PoolConfig) : List Backend :=
  match p.discovery with
  | none => p.backends.map fun b => { address := b.address, weight := b.weight }
  | some _ =>
    match env.resolve p.name with
    | .ok resolved => resolved
    | .error _ => []

/-- The pool state `BuildSnapshot` builds for a pool and its backends. -/
def buildPoolState (p : PoolConfig) (backends : List Backend) : PoolState :=
  let servers := newServers backends
  { lb := newBalancer p.algorithm (derefIn servers) (List.range servers.length)
    servers
    fr := newChecker p servers
    sticky := p.sticky
    breakers := p.circuitBreaker.map fun cb => newBreakers cb servers
    retry := p.retry }

/-- The pool loop of `BuildSnapshot`. -/
def buildPools (tags : BuildTags) (env : BuildEnv) :
    List PoolConfig → List PoolState → GoMap PoolRef → GoMap PoolRef →
      Except BuildError (List PoolState × GoMap PoolRef × GoMap PoolRef)
  | [], heap, poolStates, checkers => .ok (heap, poolStates, checkers)
  | p :: rest, heap, poolStates, checkers =>
    match (if p.discovery.isSome then newDiscoveryAdapter tags p else .ok ()) with
    | .error e => .error (.pool p.name e)
    | .ok () =>
      let ps := buildPoolState p (poolBackends env p)
      -- the new object's address
      let ref := heap.length
      buildPools tags env rest (heap ++ [ps]) (poolStates.insert p.name ref)
        (if ps.fr.isSome then checkers.insert p.name ref else checkers)

/-- `tlsutil.LoadCertificates`. -/
def loadCertificates (load : KeyPairLoader) (entries : List TLSCertConfig)
    (m : GoMap Certificate) : Except BuildError (GoMap Certificate) :=
  match entries with
  | [] => .ok m
  | e :: rest =>
    match load e.certFile e.keyFile with
    | .error why => .error (.certificate e.host why)
    | .ok cert => loadCertificates load rest (m.insert e.host cert)

/-- The certificates of a listener that terminates TLS. -/
def terminateCerts (l : ListenerConfig) : Option (List TLSCertConfig) :=
  match l.tls with
  | none => none
  | some t => if t.mode = "terminate" then some t.certificates else none

/-- The listener loop of `BuildSnapshot`: one certificate store for every
    TLS-terminating listener. -/
def buildCertStores (env : BuildEnv) :
    List ListenerConfig → List (GoMap Certificate) → GoMap CertRef →
      Except BuildError (List (GoMap Certificate) × GoMap CertRef)
  | [], certs, stores => .ok (certs, stores)
  | l :: rest, certs, stores =>
    match terminateCerts l with
    | none => buildCertStores env rest certs stores
    | some entries =>
      match loadCertificates env.loadX509KeyPair entries ∅ with
      | .error e => .error e
      | .ok m => buildCertStores env rest (certs ++ [m]) (stores.insert l.name certs.length)

/-- The fingerprint of one listener. -/
def fingerprint (l : ListenerConfig) : ListenerFingerprint :=
  { name := l.name, address := l.address, protocol := l.protocol
    tlsMode := match l.tls with
      | some t => t.mode
      | none => "" }

/-- `BuildSnapshot`: the snapshot and the heap with its objects. -/
def buildSnapshot (tags : BuildTags) (env : BuildEnv) (cfg : Config) (heap : Heap) :
    Except BuildError (Snapshot × Heap) :=
  match buildPools tags env cfg.pools heap.pools ∅ ∅ with
  | .error e => .error e
  | .ok (pools, poolStates, checkers) =>
    -- an error here leaves the new pool states to the garbage collector
    match buildCertStores env cfg.listeners heap.certs ∅ with
    | .error e => .error e
    | .ok (certs, certStores) =>
      .ok ({ poolStates, certStores, listeners := cfg.listeners.map fingerprint, checkers }
        , { pools, certs })

/-- The pool state `UpdatePoolBackends` installs. Unlike `BuildSnapshot` it
    leaves the `Retry` field at its zero value. -/
def updatedPoolState (cfg : PoolConfig) (newBackends : List Backend) : PoolState :=
  let servers := newServers newBackends
  { lb := newBalancer cfg.algorithm (derefIn servers) (List.range servers.length)
    servers
    fr := newChecker cfg servers
    sticky := cfg.sticky
    breakers := cfg.circuitBreaker.map fun cb => newBreakers cb servers
    retry := none }

/-- `UpdatePoolBackends`: replace one pool of the snapshot; every other entry is
    copied by reference, including a checker entry that has no replacement. -/
def updatePoolBackends (current : Snapshot) (poolName : String) (newBackends : List Backend)
    (cfg : PoolConfig) (heap : Heap) : Snapshot × Heap :=
  let ps := updatedPoolState cfg newBackends
  let ref := heap.pools.length
  ({ poolStates := current.poolStates.insert poolName ref
     certStores := current.certStores
     listeners := current.listeners
     checkers := if ps.fr.isSome then current.checkers.insert poolName ref else current.checkers }
  , { heap with pools := heap.pools ++ [ps] })

/-! ## Listener diff -/

/-- `ListenerChangeError`. -/
structure ListenerChangeError where
  detail : String
  deriving DecidableEq

/-- `oldByName`: a later fingerprint of the same name replaces an earlier one. -/
def oldByName (old : List ListenerFingerprint) : GoMap ListenerFingerprint :=
  old.foldl (fun m lf => m.insert lf.name lf) ∅

/-- The first loop of `DiffListeners`, over the new fingerprints. -/
def diffNew (old : GoMap ListenerFingerprint) :
    List ListenerFingerprint → Option ListenerChangeError
  | [] => none
  | nf :: rest =>
    match old.lookup nf.name with
    | none => some { detail := "new listener added: " ++ nf.name }
    | some lf =>
      if lf.address ≠ nf.address then
        some { detail := "listener " ++ nf.name ++ " address changed from " ++ lf.address ++
          " to " ++ nf.address }
      else if lf.protocol ≠ nf.protocol then
        some { detail := "listener " ++ nf.name ++ " protocol changed from " ++ lf.protocol ++
          " to " ++ nf.protocol }
      else if lf.tlsMode ≠ nf.tlsMode then
        some { detail := "listener " ++ nf.name ++ " TLS mode changed from " ++ lf.tlsMode ++
          " to " ++ nf.tlsMode }
      else diffNew old rest

/-- `DiffListeners`: `none` when the two listener sets agree. -/
def diffListeners (old new : List ListenerFingerprint) : Option ListenerChangeError :=
  if old.length ≠ new.length then
    some { detail := "listener count changed from " ++ toString old.length ++ " to " ++
      toString new.length }
  else
    match diffNew (oldByName old) new with
    | some e => some e
    | none =>
      match old.find? fun lf => !(new.map (·.name)).contains lf.name with
      | some lf => some { detail := "listener removed: " ++ lf.name }
      | none => none

end HootLb.Runtime
