import HootLb.Native.Store
import HootLb.Native.Validate

/-!
# Configuration watcher

`reload.Watcher`: read, parse and validate the file, compare the listeners with
the running snapshot, reload the certificates of the stores the listeners were
started with, build a snapshot and swap it in. `Watcher.Run` calls
`checkAndReload` on every tick and on every SIGHUP, whatever the file contains.
-/

namespace HootLb.Reload

open Config HootLb.Runtime

/-- The contents of the configuration file. -/
abbrev Bytes := List UInt8

/-- What the process finds in its surroundings: `config.Parse`, the environment
    variables and the build tags. None of them changes while the process runs. -/
structure Host where
  parse : Bytes → Except String Config
  getenv : String → String
  tags : BuildTags

/-- What one reload reads: the file, the key pairs for the running certificate
    stores, and, later, what the build reads. -/
structure ReloadEnv where
  file : Except String Bytes
  loadX509KeyPair : KeyPairLoader
  build : BuildEnv

/-- Why a configuration file is not usable. -/
inductive LoadError where
  | read (why : String)
  | parse (why : String)
  | invalid (errors : List FieldError)
  deriving DecidableEq

/-- Why a reload did not complete. -/
inductive ReloadError where
  | load (why : LoadError)
  | listeners (change : ListenerChangeError)
  | certificates (listener : String) (why : BuildError)
  | build (why : BuildError)
  deriving DecidableEq

/-- `config.Load`: read, parse and validate. `checkAndReload` begins with the same
    three steps. -/
def Host.load (host : Host) (file : Except String Bytes) : Except LoadError Config :=
  match file with
  | .error why => .error (.read why)
  | .ok data =>
    match host.parse data with
    | .error why => .error (.parse why)
    | .ok cfg =>
      match validate host.getenv host.tags cfg with
      | [] => .ok cfg
      | errors => .error (.invalid errors)

/-- `Watcher`: the certificate stores are those of the startup snapshot. -/
structure Watcher where
  host : Host
  certStores : GoMap CertRef

/-- The certificate loop: every listener with a store gets its certificates
    replaced, up to the first that does not load. -/
def reloadCertificates (load : KeyPairLoader) (stores : GoMap CertRef) :
    List ListenerConfig → List (GoMap Certificate) →
      Option ReloadError × List (GoMap Certificate)
  | [], certs => (none, certs)
  | l :: rest, certs =>
    match terminateCerts l, stores.lookup l.name with
    | some entries, some ref =>
      match loadCertificates load entries ∅ with
      | .error why => (some (.certificates l.name why), certs)
      | .ok m => reloadCertificates load stores rest (certs.set ref m)
    | _, _ => reloadCertificates load stores rest certs

/-- What `checkAndReload` does with the snapshot it loaded: the new snapshot, or
    the reason why there is none, and the heap in either case. -/
def Watcher.rebuild (w : Watcher) (cfg : Config) (env : ReloadEnv) (old : Snapshot) (heap : Heap) :
    Except ReloadError Snapshot × Heap :=
  match diffListeners old.listeners (cfg.listeners.map fingerprint) with
  | some change => (.error (.listeners change), heap)
  | none =>
    match reloadCertificates env.loadX509KeyPair w.certStores cfg.listeners heap.certs with
    -- the stores before the failing one keep their new certificates
    | (some e, certs) => (.error e, { heap with certs })
    | (none, certs) =>
      match buildSnapshot w.host.tags env.build cfg { heap with certs } with
      | .error e => (.error (.build e), { heap with certs })
      | .ok (new, heap) => (.ok new, heap)

/-- The checkers of a snapshot. -/
def checkerRefs (snap : Snapshot) : List PoolRef := snap.checkers.entries.map (·.2)

/-- `Watcher.checkAndReload`: why it did not complete, if so. -/
def Watcher.checkAndReload (w : Watcher) (env : ReloadEnv) (σ : Store) :
    Option ReloadError × Store :=
  match w.host.load env.file with
  | .error e => (some (.load e), σ)
  | .ok cfg =>
    match w.rebuild cfg env σ.current σ.heap with
    | (.error e, heap) => (some e, { σ with heap })
    | (.ok new, heap) => (none, σ.install heap new (checkerRefs new) (checkerRefs σ.current))

end HootLb.Reload
