import HootLb.ForStd.Percent
import HootLb.Native.GoString
import HootLb.Native.Headers
import HootLb.Native.Transport

/-!
# The Director

`newDirectorInternal` from the match in the route table to the request that is
handed to the transport: the pool of the route or of a weighted draw, the backend
of a sticky cookie or of `Pick`, what is stored in the context, and the header
passes; and the cookie that goes with the response.

Cookie values are byte strings, since a client may send any. What net/http does
with the `Cookie` header is not modelled: a request comes with the pairs of names
and values that were read from it. Of a cookie that is set, only its name and
value matter here.
-/

namespace HootLb.L7

open Balancer Config HootLb.Runtime

/-! ## Split routes -/

section Split

variable {α : Type}

/-- The second loop of `pickSplitEntry`. -/
def splitWalk (target : Int) : List (SplitEntry α) → Option (SplitEntry α)
  | [] => none
  | e :: rest =>
    let target := goInt (target - e.weight)
    if target < 0 then some e else splitWalk target rest

/-- `pickSplitEntry`; `draw` stands for the generator. `none` is the panic of
    `rand.Intn` on a total that is not positive. -/
def pickSplitEntry (entries : List (SplitEntry α)) (draw : Nat) : Option (SplitEntry α) :=
  let totalWeight := entries.foldl (fun total e => goInt (total + e.weight)) 0
  if totalWeight ≤ 0 then none
  else
    match splitWalk (draw % totalWeight) entries with
    | some e => some e
    | none => entries.getLast?

/-- The pool a request for a target is sent to. -/
def Target.select (target : Target α) (draw : Nat) : Option α :=
  match target with
  | .pool a => some a
  | .split entries => (pickSplitEntry entries draw).map (·.pool)

end Split

/-! ## Sticky cookies -/

/-- Names and values of the cookies of a request. -/
abbrev Cookies := List (String × GoString)

/-- `Request.Cookie`: the first cookie of that name. -/
def Cookies.find (cookies : Cookies) (name : String) : Option GoString :=
  (List.find? (fun c => c.1 = name) cookies).map (·.2)

/-- The bytes of an address. -/
def addrBytes (addr : String) : GoString := addr.toUTF8.data.toList

/-- The address with these bytes. -/
def addrOfBytes (bytes : GoString) : Option String := String.fromUTF8? ⟨⟨bytes⟩⟩

/-- `makePoolMembershipCheck`. -/
def makePoolMembershipCheck (servers : List Server) (addr : GoString) : Bool :=
  servers.any fun s =>
    addrBytes s.address = addr && s.healthy && !s.draining && !s.circuitOpen

/-- `validateStickyCookie`: the empty string is no address. -/
def validateStickyCookie (cookie : Option GoString) (check : Option (GoString → Bool)) :
    GoString :=
  match cookie with
  | none => []
  | some value =>
    if value = [] then []
    else
      match Percent.queryUnescape value, check with
      | some addr, some check => if check addr then addr else []
      | _, _ => []

/-- The cookie `setStickyCookie` puts into the response. -/
structure StickyInfo where
  cookieName : String
  backendAddr : String
  deriving DecidableEq

/-- Its value. -/
def StickyInfo.value (info : StickyInfo) : GoString :=
  Percent.queryEscape (addrBytes info.backendAddr)

/-! ## Director -/

/-- What the Director reads of a request, and the random draws it makes. -/
structure Visit where
  req : Request
  cookies : Cookies
  clientIP : String
  splitDraw : Nat
  pickDraw : Nat

/-- The backend of a valid sticky cookie. -/
def stuckBackend (ps : PoolState) (cookies : Cookies) : Option String :=
  match ps.sticky with
  | none => none
  | some sticky =>
    let addr := validateStickyCookie (cookies.find sticky.cookieName)
      (some (makePoolMembershipCheck ps.servers))
    if addr ≠ [] then addrOfBytes addr else none

/-- `lb.Pick`, as far as the Director looks at a backend. -/
def pickAddress (ps : PoolState) (draw : Nat) (clientIP : String) : PickResult String :=
  match (ps.pick draw clientIP).1 with
  | .ok i => .ok (ps.deref i).address
  | .error why => .error why
  | .panic => .panic

/-- What the Director leaves behind. -/
structure DirectorResult where
  pool : PoolRef
  effects : List Effect
  ctx : Context
  sticky : Option StickyInfo
  headers : Header

/-- `newDirectorInternal` once the pool is known. -/
def directTo (ref : PoolRef) (ps : PoolState) (m : Option L7Metrics) (v : Visit) :
    Option DirectorResult :=
  let stuck := stuckBackend ps v.cookies
  match director ps m stuck (pickAddress ps v.pickDraw v.clientIP) with
  | none => none
  | some (effects, ctx) =>
    some
      { pool := ref, effects, ctx
        sticky :=
          match ps.sticky, stuck, ctx.backend with
          -- a fresh visit: the response will carry a cookie
          | some sticky, none, some backend =>
            some { cookieName := sticky.cookieName, backendAddr := backend }
          | _, _, _ => none
        headers :=
          -- without a backend the Director returns before the header passes
          match ctx.err with
          | some _ => v.req.headers
          | none => stripHopByHop (injectForwardedHeaders v.req.headers v.clientIP) }

/-- `newDirectorInternal`. `none` is a panic, in `rand.Intn` or in `Pick`. -/
def newDirectorInternal (heap : Heap) (table : RouteTable PoolRef) (m : Option L7Metrics)
    (v : Visit) : Option DirectorResult :=
  match (table.matchRoute v.req).target.select v.splitDraw with
  | none => none
  | some ref =>
    match heap.pools[ref]? with
    | none => none
    | some ps => directTo ref ps m v

/-- The Director of the proxy of listener `l`: the getter's table for the current
    snapshot, and the label `cfg.Pool` that the constructor passes. `metrics` says
    whether there are any, and whether they have a latency vector. -/
def httpDirector (l : ListenerConfig) (metrics : Option Bool) (s : Snapshot) (heap : Heap)
    (v : Visit) : Option DirectorResult :=
  match buildRouteTable l s with
  | none => none
  | some table =>
    newDirectorInternal heap table
      (metrics.map fun backendLatency => { pool := l.pool, backendLatency }) v

end HootLb.L7
