import HootLb.Native.Snapshot

/-!
# Routing

`l7.RouteTable` and the getters of `cmd/lb/wiring.go` that find the pool for a
request, a connection or a TLS client hello. A getter is a closure over the
listener configuration the proxy was started with; on every call it loads the
current snapshot and looks its pool names up there.

A route or split entry of the source holds the load balancer, the failure
reporter, the outcome, the sticky and retry settings and the membership check of
one pool state; here it holds the pool state itself. The type of pools is a
parameter, so that a table can also be written with names.
-/

namespace HootLb.L7

open Config HootLb.Runtime

/-! ## Requests -/

/-- `http.Header`: values by canonical name. -/
abbrev Header := GoMap (List String)

/-- The bytes of an HTTP token. -/
def validHeaderFieldByte (c : Char) : Bool :=
  c.isAlphanum || "!#$%&'*+-.^_`|~".toList.contains c

/-- Upper case at the start and after a hyphen, lower case elsewhere. -/
def canonicalChars : Bool → List Char → List Char
  | _, [] => []
  | upper, c :: rest =>
    let c := if upper then c.toUpper else c.toLower
    c :: canonicalChars (c = '-') rest

/-- `textproto.CanonicalMIMEHeaderKey`: anything that is not a token stays as it is. -/
def canonicalMIMEHeaderKey (name : String) : String :=
  if name.toList.all validHeaderFieldByte then String.ofList (canonicalChars true name.toList)
  else name

/-- `Header.Get`: the first value, or the empty string. -/
def Header.get (h : Header) (key : String) : String :=
  (((h.lookup (canonicalMIMEHeaderKey key)).getD []).head?).getD ""

/-- What routing reads of a request. -/
structure Request where
  host : String
  path : String
  headers : Header

/-! ## Route table -/

/-- `SplitEntry`. -/
structure SplitEntry (α : Type) where
  pool : α
  weight : Int
  deriving DecidableEq

/-- Where a route leads: one pool, or a weighted split. -/
inductive Target (α : Type) where
  | pool (a : α)
  | split (entries : List (SplitEntry α))
  deriving DecidableEq

/-- `Route`. -/
structure Route (α : Type) where
  host : String
  pathPrefix : String
  headerName : String
  headerValue : String
  target : Target α
  deriving DecidableEq

/-- `RouteTable`. -/
structure RouteTable (α : Type) where
  routes : List (Route α)
  fallback : Route α
  deriving DecidableEq

variable {α : Type}

/-- `strings.HasPrefix`. -/
def hasPrefix (s start : String) : Bool := start.toList.isPrefixOf s.toList

/-- The three conditions of a route; an empty field is no condition. -/
def Route.admits (r : Route α) (req : Request) : Bool :=
  if r.host ≠ "" ∧ r.host ≠ req.host then false
  else if r.pathPrefix ≠ "" ∧ !hasPrefix req.path r.pathPrefix then false
  else if r.headerName ≠ "" ∧ req.headers.get r.headerName ≠ r.headerValue then false
  else true

/-- The loop of `Match`: a route replaces the best one so far when its path prefix
    is longer. -/
def matchLoop (req : Request) : List (Route α) → Option (Route α) → Int → Option (Route α)
  | [], best, _ => best
  | r :: rest, best, bestLen =>
    -- lengths are in bytes
    if r.admits req ∧ (r.pathPrefix.utf8ByteSize : Int) > bestLen then
      matchLoop req rest (some r) r.pathPrefix.utf8ByteSize
    else matchLoop req rest best bestLen

/-- `RouteTable.Match`. -/
def RouteTable.matchRoute (t : RouteTable α) (req : Request) : Route α :=
  match matchLoop req t.routes none (-1) with
  | some best => best
  | none => t.fallback

end HootLb.L7

namespace HootLb

open Config HootLb.Runtime HootLb.L7

/-! ## Getters

`none` stands for the nil dereference of a pool state that is not in the
snapshot. -/

/-- The split loop of `buildRouteTable`. -/
def buildSplit (s : Snapshot) (split : List SplitConfig) : Option (List (SplitEntry PoolRef)) :=
  split.mapM fun sc =>
    (s.poolStates.lookup sc.pool).map fun ps => { pool := ps, weight := sc.weight }

/-- One iteration of the route loop of `buildRouteTable`. -/
def buildRoute (s : Snapshot) (r : RouteConfig) : Option (Route PoolRef) :=
  let route (target : Target PoolRef) : Route PoolRef :=
    { host := r.host, pathPrefix := r.pathPrefix
      headerName := (r.header.map (·.name)).getD ""
      headerValue := (r.header.map (·.value)).getD ""
      target }
  if r.split ≠ [] then (buildSplit s r.split).map fun split => route (.split split)
  else (s.poolStates.lookup r.pool).map fun ps => route (.pool ps)

/-- The route made of the listener's own pool, without conditions. -/
def fallbackRoute {α : Type} (pool : α) : Route α :=
  { host := "", pathPrefix := "", headerName := "", headerValue := "", target := .pool pool }

def buildRouteTable (l : ListenerConfig) (s : Snapshot) : Option (RouteTable PoolRef) :=
  match l.routes.mapM (buildRoute s) with
  | none => none
  | some routes =>
    (s.poolStates.lookup l.pool).map fun defaultPS =>
      { routes, fallback := fallbackRoute defaultPS }

/-- The pool getter of `startTCPProxy` and of `startUDPProxy`. -/
def poolGetter (l : ListenerConfig) (s : Snapshot) : Option PoolRef := s.poolStates.lookup l.pool

/-- The loop of `sniRouter`: a matching route whose pool is not in the snapshot is
    passed over. -/
def sniRoutes (s : Snapshot) (sni : String) : List TLSRouteConfig → Option PoolRef
  | [] => none
  | r :: rest =>
    if r.host = sni then
      match s.poolStates.lookup r.pool with
      | some ps => some ps
      | none => sniRoutes s sni rest
    else sniRoutes s sni rest

/-- The getter of `startTLSPassthroughProxy`. -/
def sniRouter (l : ListenerConfig) (s : Snapshot) (sni : String) : Option PoolRef :=
  match l.tls.bind fun t => sniRoutes s sni t.routes with
  | some ps => some ps
  | none => s.poolStates.lookup l.pool

/-! ## Proxies -/

/-- The proxy that `run` starts for a listener. -/
inductive ProxyKind where
  | tcp
  | tlsPassthrough
  | udp
  | http
  deriving DecidableEq

/-- The switch over the protocol in `run`; an unknown protocol is skipped. -/
def proxyKind (l : ListenerConfig) : Option ProxyKind :=
  if l.protocol = "tcp" then
    if l.tls.any fun t => t.mode = "passthrough" then some .tlsPassthrough else some .tcp
  else if l.protocol = "udp" then some .udp
  else if l.protocol = "http" then some .http
  else none

/-- What a proxy asks its getter about. -/
inductive Traffic where
  | request (req : Request)
  | connection
  | clientHello (sni : String)

/-- The traffic a proxy sees. -/
def ProxyKind.sees : ProxyKind → Traffic → Bool
  | .http, .request _ => true
  | .tcp, .connection => true
  | .udp, .connection => true
  | .tlsPassthrough, .clientHello _ => true
  | _, _ => false

/-- The pool, or the split, from which the proxy of listener `l` picks a backend. -/
def running (l : ListenerConfig) (s : Snapshot) : Traffic → Option (Target PoolRef)
  | .request req => (buildRouteTable l s).map fun t => (t.matchRoute req).target
  | .connection => (poolGetter l s).map .pool
  | .clientHello sni => (sniRouter l s sni).map .pool

end HootLb
