import Mathlib.Data.List.AList
import Mathlib.Data.Rat.Defs

/-!
# Configuration schema

The decoded configuration of the load balancer, as `internal/config` declares
it: a `Config` is a list of listeners and a list of pools plus the process-wide
settings. Go's optional blocks (nil-able pointers) are `Option`, durations are
nanoseconds, and the string-valued enumerations (`protocol`, `algorithm`,
`type`, `mode`) stay strings because `Validate` is what narrows them.

`ListenerConfig.Global` (a copy of the process-wide settings), `Kubeconfig` and
`MinVersion` are not read by anything modelled here and are left out.
-/

namespace HootLb

/-- Go's `map[string]α`: a finite map with string keys. -/
abbrev GoMap (α : Type) := AList (fun _ : String => α)

instance {α : Type} [DecidableEq α] : DecidableEq (GoMap α) := fun a b =>
  decidable_of_iff (a.entries = b.entries) ⟨AList.ext, fun h => h ▸ rfl⟩

/-- `time.Duration`, in nanoseconds. -/
abbrev Duration := Int

/-- A `float64` value. Finite values are kept exact. -/
inductive Float64 where
  | nan
  | negInf
  | posInf
  | fin (q : ℚ)
  deriving DecidableEq

namespace Float64

/-- IEEE `<`: every comparison with a NaN is false. -/
def lt : Float64 → Float64 → Bool
  | nan, _ | _, nan => false
  | negInf, negInf => false
  | negInf, _ => true
  | posInf, _ => false
  | fin _, negInf => false
  | fin _, posInf => true
  | fin a, fin b => decide (a < b)

/-- IEEE `<=`. -/
def le : Float64 → Float64 → Bool
  | nan, _ | _, nan => false
  | negInf, _ => true
  | posInf, posInf => true
  | posInf, _ => false
  | fin _, negInf => false
  | fin _, posInf => true
  | fin a, fin b => decide (a ≤ b)

end Float64

/-- An argument of a format verb. -/
inductive FmtArg where
  | str (s : String)
  | int (n : Int)
  | dur (d : Duration)
  | float (f : Float64)
  deriving DecidableEq

/-- The message of `fmt.Errorf(format, args...)`, kept as the format text and its
    arguments. -/
structure Message where
  format : String
  args : List FmtArg
  deriving DecidableEq

/-- A message without format verbs. -/
def Message.text (format : String) : Message := { format, args := [] }

/-- Build tags of the binary: which discovery adapters are compiled in
    (`consulAvailable`, `k8sAvailable`, `dockerAvailable`). -/
structure BuildTags where
  consul : Bool
  k8s : Bool
  docker : Bool
  deriving DecidableEq

namespace Config

/-! ## Pools -/

structure BackendConfig where
  address : String
  weight : Int
  deriving DecidableEq

structure DNSDiscoveryConfig where
  host : String
  port : Int
  refreshInterval : Duration
  deriving DecidableEq

structure ConsulDiscoveryConfig where
  address : String
  service : String
  refreshInterval : Duration
  deriving DecidableEq

structure K8sDiscoveryConfig where
  k8sNamespace : String
  service : String
  refreshInterval : Duration
  deriving DecidableEq

structure DockerDiscoveryConfig where
  network : String
  labelSelector : String
  refreshInterval : Duration
  deriving DecidableEq

structure DiscoveryConfig where
  type : String
  dns : Option DNSDiscoveryConfig
  consul : Option ConsulDiscoveryConfig
  k8s : Option K8sDiscoveryConfig
  docker : Option DockerDiscoveryConfig
  deriving DecidableEq

structure HealthCheckConfig where
  type : String
  path : String
  interval : Duration
  timeout : Duration
  healthyThreshold : Int
  unhealthyThreshold : Int
  deriving DecidableEq

structure StickyConfig where
  cookieName : String
  ttl : Duration
  deriving DecidableEq

structure CircuitBreakerConfig where
  failureThreshold : Int
  openDuration : Duration
  halfOpenMaxProbes : Int
  deriving DecidableEq

structure RetryConfig where
  maxAttempts : Int
  retryBudgetRatio : Float64
  backoffBase : Duration
  backoffMax : Duration
  retryableStatusCodes : List Int
  deriving DecidableEq

structure PoolConfig where
  name : String
  algorithm : String
  backends : List BackendConfig
  discovery : Option DiscoveryConfig
  healthCheck : Option HealthCheckConfig
  sticky : Option StickyConfig
  circuitBreaker : Option CircuitBreakerConfig
  retry : Option RetryConfig
  deriving DecidableEq

/-! ## Listeners -/

structure HeaderConfig where
  name : String
  value : String
  deriving DecidableEq

structure SplitConfig where
  pool : String
  weight : Int
  deriving DecidableEq

structure RouteConfig where
  host : String
  pathPrefix : String
  header : Option HeaderConfig
  pool : String
  split : List SplitConfig
  deriving DecidableEq

structure TLSCertConfig where
  host : String
  certFile : String
  keyFile : String
  deriving DecidableEq

structure TLSRouteConfig where
  host : String
  pool : String
  deriving DecidableEq

structure TLSConfig where
  mode : String
  certificates : List TLSCertConfig
  routes : List TLSRouteConfig
  handshakeTimeout : Duration
  deriving DecidableEq

structure RateLimitConfig where
  requestsPerSecond : Float64
  burst : Int
  clientIdleEviction : Duration
  deriving DecidableEq

structure ListenerConfig where
  name : String
  address : String
  protocol : String
  pool : String
  routes : List RouteConfig
  tls : Option TLSConfig
  rateLimit : Option RateLimitConfig
  maxRequestBodyBytes : Int
  deriving DecidableEq

/-! ## Process-wide settings -/

structure MetricsConfig where
  enabled : Option Bool
  address : String
  path : String
  deriving DecidableEq

structure AccessLogConfig where
  enabled : Option Bool
  format : String
  deriving DecidableEq

structure AdminMTLSConfig where
  enabled : Bool
  caFile : String
  deriving DecidableEq

structure AdminRoleConfig where
  tokenEnv : String
  permissions : List String
  deriving DecidableEq

structure AdminConfig where
  enabled : Option Bool
  address : String
  tokenEnv : String
  maxConcurrentRequests : Int
  mtls : Option AdminMTLSConfig
  roles : List AdminRoleConfig
  deriving DecidableEq

structure GlobalConfig where
  logLevel : String
  shutdownTimeout : Duration
  metrics : MetricsConfig
  accessLog : AccessLogConfig
  admin : AdminConfig
  deriving DecidableEq

end Config

/-- The decoded top-level configuration. -/
structure Config where
  global : Config.GlobalConfig
  listeners : List Config.ListenerConfig
  pools : List Config.PoolConfig
  deriving DecidableEq

end HootLb
