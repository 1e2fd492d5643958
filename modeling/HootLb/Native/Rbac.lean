import HootLb.ForStd.Percent
import HootLb.Native.GoString
import HootLb.Native.Config

/-!
# Admin API access control

`rbacMiddleware` and the mux behind it, `buildRESTMux`. Both look at the method
and the path of a request, each in its own way: the middleware at the decoded
path, the mux at the escaped one.
-/

namespace HootLb.Admin

open Config

/-! ## Requests -/

/-- What the middleware and the mux read of a request: `r.Method`,
    `r.URL.EscapedPath()`, `r.URL.Path` and the `Authorization` header, empty when
    absent. The parser takes the path of a CONNECT request after the authority. -/
structure Request where
  method : String
  escapedPath : GoString
  path : GoString
  authorization : GoString
  unescape_eq : Percent.unescape escapedPath = some path
  rooted : method = "CONNECT" → escapedPath = [] ∨ escapedPath.head? = some 47

/-! ## The middleware -/

/-- The permissions of the API. -/
inductive Permission where
  | read
  | drain
  | restart
  | backends
  | config
  deriving DecidableEq

/-- `PermRead` and so on. -/
def Permission.name : Permission → String
  | .read => "read"
  | .drain => "drain"
  | .restart => "restart"
  | .backends => "backends"
  | .config => "config"

/-- `role`. -/
structure Role where
  token : GoString
  permissions : GoMap Bool

/-- `permissions[perm]`. -/
def Role.holds (r : Role) (perm : Permission) : Bool := (r.permissions.lookup perm.name).getD false

/-- A response of the middleware itself; `challenge` is the `WWW-Authenticate`
    header. -/
structure Rejection where
  status : Nat
  body : String
  challenge : Bool
  deriving DecidableEq

/-- A 401 with the header. -/
def unauthorized (error : String) : Rejection :=
  { status := 401, body := "\x7b\"error\":\"" ++ error ++ "\"\x7d", challenge := true }

/-- `endpointPermission`; `none` is the empty string. -/
def endpointPermission (r : Request) : Option Permission :=
  if r.path = ascii "/admin/pools" ∧ r.method = "GET" then some .read
  else if r.path.hasPrefix (ascii "/admin/pools/") ∧ r.path.hasSuffix (ascii "/drain") then
    some .drain
  else if r.path.hasPrefix (ascii "/admin/pools/") ∧ r.path.hasSuffix (ascii "/undrain") then
    some .drain
  else if r.path = ascii "/admin/restart" then some .restart
  else if r.path.hasPrefix (ascii "/admin/pools/") ∧ r.path.hasSuffix (ascii "/backends") ∧
      r.method = "POST" then
    some .backends
  else if r.path.contains (ascii "/backends/") ∧ r.method = "DELETE" then some .backends
  else none

/-- `rbacMiddleware`: the matched role if the request goes on to the next handler. -/
def rbacMiddleware (roles : List Role) (r : Request) : Except Rejection Role :=
  if r.authorization = [] ∨ ¬ r.authorization.hasPrefix (ascii "Bearer ") then
    .error (unauthorized "missing or invalid Authorization header")
  else
    let got := r.authorization.trimPrefix (ascii "Bearer ")
    if got = [] then .error (unauthorized "missing or invalid Authorization header")
    else
      match roles.find? fun role => got = role.token with
      | none => .error (unauthorized "invalid token")
      | some matched =>
        match endpointPermission r with
        | none => .ok matched
        | some perm =>
          if matched.holds perm then .ok matched
          else
            .error { status := 403, body := "\x7b\"error\":\"forbidden\"\x7d", challenge := false }

/-! ## The mux -/

/-- The patterns `buildRESTMux` registers. -/
inductive Pattern where
  | pools
  | restart
  | poolsSubtree
  deriving DecidableEq

/-- The handlers behind them. -/
inductive Endpoint where
  | listPools
  | drainBackend
  | undrainBackend
  | addBackend
  | removeBackend
  | restart
  deriving DecidableEq

/-- `pathUnescape` of the mux: what cannot be decoded stays as it is. -/
def pathUnescape (segment : GoString) : GoString := (Percent.unescape segment).getD segment

/-- The decoded segments after the first slash. -/
def segments (escapedPath : GoString) : List GoString :=
  ((escapedPath.drop 1).splitOn 47).map pathUnescape

/-- `ServeMux` on the three patterns: `/admin/pools` and `/admin/restart` match
    alone, `/admin/pools/` whatever goes on below. -/
def matchPath (escapedPath : GoString) : Option Pattern :=
  match segments escapedPath with
  | [first, second] =>
    if first = ascii "admin" ∧ second = ascii "pools" then some .pools
    else if first = ascii "admin" ∧ second = ascii "restart" then some .restart
    else none
  | first :: second :: _ :: _ =>
    if first = ascii "admin" ∧ second = ascii "pools" then some .poolsSubtree else none
  | _ => none

/-- `path.Clean` on the segments of a rooted path. -/
def cleanSegments (segments : List GoString) : List GoString :=
  segments.foldl (fun kept segment =>
    if segment = [] ∨ segment = ascii "." then kept
    else if segment = ascii ".." then kept.dropLast
    else kept ++ [segment]) []

/-- `cleanPath` of `net/http`: rooted, without empty and dot segments, with the
    trailing slash it had. -/
def cleanPath (p : GoString) : GoString :=
  let p := if p.head? = some 47 then p else 47 :: p
  let cleaned := 47 :: [47].intercalate (cleanSegments ((p.drop 1).splitOn 47))
  if p.getLast? = some 47 ∧ cleaned ≠ [47] then cleaned ++ [47] else cleaned

/-- The pattern whose handler serves the request; `none` is a redirect to the
    clean path or a 404. The path of a CONNECT request is not cleaned. -/
def Request.route (r : Request) : Option Pattern :=
  if r.method = "CONNECT" ∨ cleanPath r.escapedPath = r.escapedPath then matchPath r.escapedPath
  else none

/-- `buildRESTMux`; `none` is a redirect or a 404. -/
def restMux (r : Request) : Option Endpoint :=
  match r.route with
  | none => none
  | some .pools => some .listPools
  | some .restart => some .restart
  | some .poolsSubtree =>
    if r.path.hasSuffix (ascii "/drain") then some .drainBackend
    else if r.path.hasSuffix (ascii "/undrain") then some .undrainBackend
    else if r.path.hasSuffix (ascii "/backends") ∧ r.method = "POST" then some .addBackend
    else if r.path.contains (ascii "/backends/") ∧ r.method = "DELETE" then some .removeBackend
    else none

end HootLb.Admin
