import HootLb.Native.Config

/-!
# Configuration validation

`config.Validate` collects every problem of a decoded configuration instead of
stopping at the first, so each validator here returns a list of field errors and
a configuration is accepted when the list is empty. Most of a validator is a
sequence of independent checks; `check` is one such check.

Validation also looks outside the configuration: token variables are read from
the environment, and the discovery types depend on the build tags.
-/

namespace HootLb.Config

/-- `FieldError`: the path of the offending field and what is wrong with it. -/
structure FieldError where
  field : String
  msg : Message
  deriving DecidableEq

/-- One check: `newFieldError(field, msg)` when the value is bad. -/
def check (bad : Bool) (field : String) (msg : Message) : List FieldError :=
  if bad then [{ field, msg }] else []

/-- `path[i]`, the field path of a list entry. -/
def entryPath (path : String) (i : Nat) : String := path ++ "[" ++ toString i ++ "]"

/-- A validator run over the entries of a list field. -/
def checkEntries {α : Type} (path : String) (validate : α → String → List FieldError)
    (entries : List α) : List FieldError :=
  entries.zipIdx.flatMap fun e => validate e.1 (entryPath path e.2)

/-! ## Addresses -/

/-- The text of a `net.AddrError`. -/
def addrError (addr why : String) : String :=
  if addr = "" then why else "address " ++ addr ++ ": " ++ why

/-- `net.SplitHostPort`. -/
def splitHostPort (hostport : String) : Except String (String × String) :=
  let cs := hostport.toList
  let missingPort := addrError hostport "missing port in address"
  let tooManyColons := addrError hostport "too many colons in address"
  -- the port starts after the last colon
  let port := (cs.reverse.takeWhile (· ≠ ':')).reverse
  match cs.reverse.dropWhile (· ≠ ':') with
  | [] => .error missingPort
  | _ :: hostRev =>
    let i := hostRev.length
    -- the host, and the parts in which no further bracket may stand
    let split : Except String (List Char × List Char × List Char) :=
      if cs.head? = some '[' then
        match cs.findIdx? (· = ']') with
        | none => .error (addrError hostport "missing ']' in address")
        | some close =>
          if close + 1 = cs.length then .error missingPort
          else if close + 1 = i then .ok ((cs.take close).drop 1, cs.drop 1, cs.drop (close + 1))
          else if cs[close + 1]? = some ':' then .error tooManyColons
          else .error missingPort
      else if hostRev.contains ':' then .error tooManyColons
      else .ok (hostRev.reverse, cs, cs)
    match split with
    | .error e => .error e
    | .ok (host, noOpen, noClose) =>
      if noOpen.contains '[' then .error (addrError hostport "unexpected '[' in address")
      else if noClose.contains ']' then .error (addrError hostport "unexpected ']' in address")
      else .ok (String.ofList host, String.ofList port)

/-- `validateHostPort`: the error it returns, if any. -/
def validateHostPort (addr : String) : Option String :=
  match splitHostPort addr with
  | .error e => some e
  | .ok (_, port) => if port = "" then some "missing port" else none

/-- A required address that must also be well formed. -/
def checkAddress (addr field : String) : List FieldError :=
  match validateHostPort addr with
  | some e =>
    [{ field, msg := { format := "invalid address %q: %v", args := [.str addr, .str e] } }]
  | none => []

/-! ## Pool blocks -/

/-- `must be a positive integer (got %d)`. -/
def checkPositive (n : Int) (field : String) : List FieldError :=
  check (n ≤ 0) field { format := "must be a positive integer (got %d)", args := [.int n] }

/-- `must be a positive duration`. -/
def checkDuration (d : Duration) (field : String) : List FieldError :=
  check (d ≤ 0) field (.text "must be a positive duration")

/-- `is required`. -/
def checkRequired (s field : String) : List FieldError :=
  check (s = "") field (.text "is required")

def validateCircuitBreaker (cb : CircuitBreakerConfig) (path : String) : List FieldError :=
  checkPositive cb.failureThreshold (path ++ ".failure_threshold") ++
  checkDuration cb.openDuration (path ++ ".open_duration") ++
  checkPositive cb.halfOpenMaxProbes (path ++ ".half_open_max_probes")

def validateRetry (rc : RetryConfig) (path : String) : List FieldError :=
  check (rc.maxAttempts < 2) (path ++ ".max_attempts")
    { format := "must be >= 2 for retries to occur (got %d)", args := [.int rc.maxAttempts] } ++
  check (rc.retryBudgetRatio.lt (.fin 0) || (Float64.fin 1).lt rc.retryBudgetRatio)
    (path ++ ".retry_budget_ratio")
    { format := "must be between 0 and 1 (got %f)", args := [.float rc.retryBudgetRatio] } ++
  checkDuration rc.backoffBase (path ++ ".backoff_base") ++
  checkDuration rc.backoffMax (path ++ ".backoff_max") ++
  check (rc.backoffMax < rc.backoffBase) (path ++ ".backoff_max")
    (.text "must be >= backoff_base") ++
  check rc.retryableStatusCodes.isEmpty (path ++ ".retryable_status_codes")
    (.text "must contain at least one status code")

def validateSticky (sc : StickyConfig) (path : String) : List FieldError :=
  checkDuration sc.ttl (path ++ ".ttl")

def validateHealthCheck (hc : HealthCheckConfig) (path : String) : List FieldError :=
  check (hc.type ∉ ["tcp", "http", "none"]) (path ++ ".type")
    { format := "must be one of: tcp, http, none (got %q)", args := [.str hc.type] } ++
  (if hc.type ≠ "none" then
    checkDuration hc.interval (path ++ ".interval") ++
    checkDuration hc.timeout (path ++ ".timeout") ++
    check (hc.interval > 0 ∧ hc.timeout > 0 ∧ hc.timeout ≥ hc.interval) (path ++ ".timeout")
      { format := "must be less than interval (%v >= %v)"
        args := [.dur hc.timeout, .dur hc.interval] } ++
    check (hc.healthyThreshold < 1) (path ++ ".healthy_threshold")
      { format := "must be >= 1 (got %d)", args := [.int hc.healthyThreshold] } ++
    check (hc.unhealthyThreshold < 1) (path ++ ".unhealthy_threshold")
      { format := "must be >= 1 (got %d)", args := [.int hc.unhealthyThreshold] }
  else []) ++
  (if hc.type = "http" then
    if hc.path = "" then
      [{ field := path ++ ".path", msg := .text "is required when type is http" }]
    else
      check (hc.path.toList.head? ≠ some '/') (path ++ ".path")
        { format := "must start with / (got %q)", args := [.str hc.path] }
  else [])

def validateDNSDiscovery (dns : DNSDiscoveryConfig) (path : String) : List FieldError :=
  checkRequired dns.host (path ++ ".host") ++
  check (dns.port < 0 ∨ dns.port > 65535) (path ++ ".port")
    { format := "must be between 0 and 65535 (got %d)", args := [.int dns.port] } ++
  checkDuration dns.refreshInterval (path ++ ".refresh_interval")

/-- The sources named by two required texts and a refresh interval. -/
def validateNamedDiscovery (path field₁ value₁ field₂ value₂ : String)
    (refreshInterval : Duration) : List FieldError :=
  checkRequired value₁ (path ++ field₁) ++
  checkRequired value₂ (path ++ field₂) ++
  checkDuration refreshInterval (path ++ ".refresh_interval")

def validateConsulDiscovery (c : ConsulDiscoveryConfig) (path : String) : List FieldError :=
  validateNamedDiscovery path ".address" c.address ".service" c.service c.refreshInterval

def validateK8sDiscovery (k : K8sDiscoveryConfig) (path : String) : List FieldError :=
  validateNamedDiscovery path ".namespace" k.k8sNamespace ".service" k.service k.refreshInterval

def validateDockerDiscovery (d : DockerDiscoveryConfig) (path : String) : List FieldError :=
  validateNamedDiscovery path ".network" d.network ".label_selector" d.labelSelector
    d.refreshInterval

/-- One case of the switch in `validateDiscovery`: the adapter must be compiled
    in, its own block present and valid, and every other block absent. -/
def validateDiscoveryCase (path type : String) (available : Bool) (own : Option (List FieldError))
    (others : List (String × Bool)) : List FieldError :=
  if !available then
    [{ field := path ++ ".type"
       msg := .text (type ++ " discovery requires building with -tags " ++ type) }]
  else
    (match own with
      | none =>
        [{ field := path ++ "." ++ type, msg := .text ("is required when type is " ++ type) }]
      | some errs => errs) ++
    others.flatMap fun o =>
      check o.2 (path ++ "." ++ o.1) (.text (o.1 ++ " config is not valid when type is " ++ type))

def validateDiscovery (tags : BuildTags) (dc : DiscoveryConfig) (path : String) :
    List FieldError :=
  let dns := dc.dns.map fun d => validateDNSDiscovery d (path ++ ".dns")
  let consul := dc.consul.map fun c => validateConsulDiscovery c (path ++ ".consul")
  let k8s := dc.k8s.map fun k => validateK8sDiscovery k (path ++ ".k8s")
  let docker := dc.docker.map fun d => validateDockerDiscovery d (path ++ ".docker")
  check (dc.type ∉ ["dns", "consul", "k8s", "docker"]) (path ++ ".type")
    { format := "must be one of: dns, consul, k8s, docker (got %q)", args := [.str dc.type] } ++
  (if dc.type = "dns" then
    validateDiscoveryCase path "dns" true dns
      [("consul", consul.isSome), ("k8s", k8s.isSome), ("docker", docker.isSome)]
  else if dc.type = "consul" then
    validateDiscoveryCase path "consul" tags.consul consul
      [("dns", dns.isSome), ("k8s", k8s.isSome), ("docker", docker.isSome)]
  else if dc.type = "k8s" then
    validateDiscoveryCase path "k8s" tags.k8s k8s
      [("dns", dns.isSome), ("consul", consul.isSome), ("docker", docker.isSome)]
  else if dc.type = "docker" then
    validateDiscoveryCase path "docker" tags.docker docker
      [("dns", dns.isSome), ("consul", consul.isSome), ("k8s", k8s.isSome)]
  else [])

def validatePoolBackend (b : BackendConfig) (path : String) : List FieldError :=
  checkAddress b.address (path ++ ".address") ++ checkPositive b.weight (path ++ ".weight")

def validatePool (tags : BuildTags) (p : PoolConfig) (path : String) : List FieldError :=
  let hasBackends := !p.backends.isEmpty
  check (p.algorithm ∉ ["round_robin", "weighted_round_robin", "least_conn", "random", "ip_hash"])
    (path ++ ".algorithm")
    { format := "must be one of: round_robin, weighted_round_robin, least_conn, random, ip_hash " ++
        "(got %q)"
      args := [.str p.algorithm] } ++
  check (hasBackends && p.discovery.isSome) path
    (.text "backends and discovery are mutually exclusive — specify exactly one") ++
  check (!hasBackends && p.discovery.isNone) (path ++ ".backends")
    (.text "is required when discovery is not specified") ++
  checkEntries (path ++ ".backends") validatePoolBackend p.backends ++
  (p.discovery.toList.flatMap fun d => validateDiscovery tags d (path ++ ".discovery")) ++
  (p.healthCheck.toList.flatMap fun hc => validateHealthCheck hc (path ++ ".health_check")) ++
  (p.sticky.toList.flatMap fun sc => validateSticky sc (path ++ ".sticky")) ++
  (p.circuitBreaker.toList.flatMap fun cb =>
    validateCircuitBreaker cb (path ++ ".circuit_breaker")) ++
  (p.retry.toList.flatMap fun rc => validateRetry rc (path ++ ".retry"))

/-! ## Listener blocks -/

def validateRateLimit (rl : RateLimitConfig) (path : String) : List FieldError :=
  check (rl.requestsPerSecond.le (.fin 0)) (path ++ ".requests_per_second")
    { format := "must be a positive number (got %v)", args := [.float rl.requestsPerSecond] } ++
  checkPositive rl.burst (path ++ ".burst") ++
  checkDuration rl.clientIdleEviction (path ++ ".client_idle_eviction")

/-- `references undefined pool %q`. -/
def checkPoolDefined (poolNames : List String) (pool field : String) : List FieldError :=
  check (pool ∉ poolNames) field { format := "references undefined pool %q", args := [.str pool] }

/-- A pool name that must be present and defined. -/
def checkPoolRef (poolNames : List String) (pool field : String) : List FieldError :=
  if pool = "" then [{ field, msg := .text "is required" }]
  else checkPoolDefined poolNames pool field

def validateSplit (poolNames : List String) (s : SplitConfig) (path : String) : List FieldError :=
  checkPositive s.weight (path ++ ".weight") ++
  checkPoolDefined poolNames s.pool (path ++ ".pool")

def validateRoute (poolNames : List String) (r : RouteConfig) (path : String) :
    List FieldError :=
  let hasPool := r.pool ≠ ""
  let hasSplit := r.split ≠ []
  if ¬ hasPool ∧ ¬ hasSplit then
    [{ field := path ++ ".pool", msg := .text "is required when split is not specified" }]
  else
    check (hasPool ∧ hasSplit) path
      (.text "pool and split are mutually exclusive — specify exactly one") ++
    (if hasPool then checkPoolDefined poolNames r.pool (path ++ ".pool") else []) ++
    (if hasSplit then
      check (r.split.length < 2) (path ++ ".split") (.text "must contain at least 2 entries") ++
      checkEntries (path ++ ".split") (validateSplit poolNames) r.split
    else []) ++
    check (r.header.any fun h => h.name = "") (path ++ ".header.name")
      (.text "is required and must be a non-empty string")

def validateCertificate (c : TLSCertConfig) (path : String) : List FieldError :=
  checkRequired c.certFile (path ++ ".cert_file") ++ checkRequired c.keyFile (path ++ ".key_file")

def validateTLSRoute (poolNames : List String) (r : TLSRouteConfig) (path : String) :
    List FieldError :=
  checkPoolRef poolNames r.pool (path ++ ".pool")

def validateTLS (poolNames : List String) (t : TLSConfig) (path protocol : String) :
    List FieldError :=
  let tlsPath := path ++ ".tls"
  check (t.mode ∉ ["terminate", "passthrough"]) (tlsPath ++ ".mode")
    { format := "must be one of: terminate, passthrough (got %q)", args := [.str t.mode] } ++
  (if t.mode = "terminate" then
    check (protocol ≠ "http") (tlsPath ++ ".mode")
      { format := "terminate mode is only valid on http listeners (got %q)"
        args := [.str protocol] } ++
    check t.certificates.isEmpty (tlsPath ++ ".certificates")
      (.text "must contain at least one certificate entry") ++
    checkEntries (tlsPath ++ ".certificates") validateCertificate t.certificates ++
    check ((t.certificates.filter fun c => c.host = "").length > 1) (tlsPath ++ ".certificates")
      (.text "at most one certificate may have an empty host (default certificate)")
  else if t.mode = "passthrough" then
    check (protocol ≠ "tcp") (tlsPath ++ ".mode")
      { format := "passthrough mode is only valid on tcp listeners (got %q)"
        args := [.str protocol] } ++
    check (t.handshakeTimeout < 0) (tlsPath ++ ".handshake_timeout")
      (.text "must not be negative") ++
    checkEntries (tlsPath ++ ".routes") (validateTLSRoute poolNames) t.routes
  else [])

def validateListener (poolNames : List String) (l : ListenerConfig) (path : String) :
    List FieldError :=
  check (l.protocol ∉ ["tcp", "udp", "http"]) (path ++ ".protocol")
    { format := "must be one of: tcp, udp, http (got %q)", args := [.str l.protocol] } ++
  checkAddress l.address (path ++ ".address") ++
  checkPoolRef poolNames l.pool (path ++ ".pool") ++
  check (l.routes ≠ [] ∧ l.protocol ≠ "http") (path ++ ".routes")
    { format := "routes are only allowed on http listeners (got %q)"
      args := [.str l.protocol] } ++
  checkEntries (path ++ ".routes") (validateRoute poolNames) l.routes ++
  (l.tls.toList.flatMap fun t => validateTLS poolNames t path l.protocol) ++
  (l.rateLimit.toList.flatMap fun rl => validateRateLimit rl (path ++ ".rate_limit"))

/-! ## The whole configuration -/

/-- A required address of a process-wide endpoint. -/
def checkEndpoint (addr field what : String) : List FieldError :=
  if addr = "" then [{ field, msg := .text ("is required when " ++ what ++ " is enabled") }]
  else checkAddress addr field

def validateRole (getenv : String → String) (role : AdminRoleConfig) (path : String) :
    List FieldError :=
  (if role.tokenEnv = "" then [{ field := path ++ ".token_env", msg := .text "is required" }]
  else
    check (getenv role.tokenEnv = "") (path ++ ".token_env")
      { format := "environment variable %q is not set or empty", args := [.str role.tokenEnv] }) ++
  check role.permissions.isEmpty (path ++ ".permissions")
    (.text "must contain at least one permission") ++
  role.permissions.flatMap fun perm =>
    check (perm ∉ ["read", "drain", "restart", "backends", "config"]) (path ++ ".permissions")
      { format := "unknown permission %q (valid: read, drain, restart, backends, config)"
        args := [.str perm] }

def validateAdmin (getenv : String → String) (ac : AdminConfig) : List FieldError :=
  if ac.enabled = some true then
    let hasTokenEnv := ac.tokenEnv ≠ ""
    let hasRoles := ac.roles ≠ []
    checkEndpoint ac.address "global.admin.address" "admin" ++
    check (hasTokenEnv ∧ hasRoles) "global.admin"
      (.text "token_env and roles are mutually exclusive — specify exactly one") ++
    check (¬ hasTokenEnv ∧ ¬ hasRoles) "global.admin.token_env"
      (.text "is required when admin is enabled (or specify roles)") ++
    check (hasTokenEnv ∧ getenv ac.tokenEnv = "") "global.admin.token_env"
      { format := "environment variable %q is not set or empty", args := [.str ac.tokenEnv] } ++
    check (ac.maxConcurrentRequests ≤ 0) "global.admin.max_concurrent_requests"
      (.text "must be a positive integer") ++
    check (ac.mtls.any fun m => m.enabled && m.caFile = "") "global.admin.mtls.ca_file"
      (.text "is required when mtls is enabled") ++
    checkEntries "global.admin.roles" (validateRole getenv) ac.roles
  else []

def validateGlobal (getenv : String → String) (g : GlobalConfig) : List FieldError :=
  check (g.logLevel ∉ ["debug", "info", "warn", "error"]) "global.log_level"
    { format := "must be one of: debug, info, warn, error (got %q)", args := [.str g.logLevel] } ++
  checkDuration g.shutdownTimeout "global.shutdown_timeout" ++
  (if g.metrics.enabled = some true then
    checkEndpoint g.metrics.address "global.metrics.address" "metrics" ++
    check (g.metrics.path = "") "global.metrics.path"
      (.text "is required when metrics is enabled")
  else []) ++
  (if g.accessLog.enabled = some true then
    check (g.accessLog.format ≠ "json") "global.access_log.format"
      { format := "must be \"json\" (got %q)", args := [.str g.accessLog.format] }
  else []) ++
  validateAdmin getenv g.admin

/-- A loop of `Validate` over named entries: a name seen before is an error, and
    every entry is validated on its own. -/
def validateNamed {α : Type} (path what : String) (name : α → String)
    (validate : α → String → List FieldError) : Nat → List String → List α → List FieldError
  | _, _, [] => []
  | i, seen, a :: rest =>
    check (name a ∈ seen) (entryPath path i ++ ".name")
      { format := "duplicate " ++ what ++ " name %q", args := [.str (name a)] } ++
    validate a (entryPath path i) ++
    validateNamed path what name validate (i + 1) (name a :: seen) rest

/-- `Validate`: all problems of the configuration, none when it is accepted. -/
def validate (getenv : String → String) (tags : BuildTags) (cfg : HootLb.Config) :
    List FieldError :=
  validateGlobal getenv cfg.global ++
  check cfg.listeners.isEmpty "listeners" (.text "at least one listener is required") ++
  check cfg.pools.isEmpty "pools" (.text "at least one pool is required") ++
  validateNamed "pools" "pool" (·.name) (validatePool tags) 0 [] cfg.pools ++
  validateNamed "listeners" "listener" (·.name)
    (validateListener (cfg.pools.map (·.name))) 0 [] cfg.listeners

end HootLb.Config
