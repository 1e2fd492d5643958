import HootLb.Native.Balancer
import HootLb.Native.RateLimit

/-!
# UDP proxy

`UDPServer` of `internal/proxy/l4/udp.go` as a machine whose steps are the parts
of its goroutines between two points where others can run: a call of
`poolGetter`, a section under `mu`, an atomic store, a socket call.

Server objects are numbers and `servers` reads the object behind one; flags
change at any time. `poolGetter` returns the balancer installed last; a goroutine
that has called it holds the balancer's position. Session objects outlive their
table entry, because handlers and readers keep pointers to them.
-/

namespace HootLb.L4

open Balancer Ratelimit

/-- `udpSession`, with the state of its socket and of its reader goroutine.
    `pickedOn` is not a field of the source: it records the balancer the backend
    was picked on. -/
structure UdpSession where
  backend : Nat
  lastActive : Int
  connOpen : Bool
  reading : Bool
  pickedOn : Nat
  deriving DecidableEq

/-- `idleDuration`. -/
def UdpSession.idleDuration (sess : UdpSession) (now : Int) : Int :=
  if sess.lastActive = 0 then 0 else now - sess.lastActive

/-- `touch`. -/
def UdpSession.touch (now : Int) (sess : UdpSession) : UdpSession := { sess with lastActive := now }

/-- `backendConn.Close`. -/
def UdpSession.closeConn (sess : UdpSession) : UdpSession := { sess with connOpen := false }

/-- How far a `handleDatagram` call has come: it has called `poolGetter` and waits
    for the lock, or it has a session and is about to touch it or to write to it. -/
inductive Handler where
  | fetched (key clientIP : String) (lb : Nat)
  | touching (sess : Nat)
  | writing (sess : Nat)
  | done
  deriving DecidableEq

/-- `UDPServer` and the goroutines at work on it. A sweep is an `evictExpired` call
    that has called `poolGetter`, or `none` once it is done. -/
structure UdpServer where
  rateLimit : Option Limiter
  sessionTimeout : Duration
  servers : Nat → Server
  balancers : List (LoadBalancer Nat)
  objects : List UdpSession
  sessions : GoMap Nat
  closing : Bool
  handlers : List Handler
  sweeps : List (Option Nat)
  /-- a `Pick` has panicked -/
  crashed : Bool

/-- `NewUDPServer`, with the balancer that `poolGetter` returns first. -/
def newUdpServer (rateLimit : Option Limiter) (sessionTimeout : Duration) (servers : Nat → Server)
    (lb : LoadBalancer Nat) : UdpServer :=
  { rateLimit, sessionTimeout, servers, balancers := [lb], objects := [], sessions := ∅
    closing := false, handlers := [], sweeps := [], crashed := false }

namespace UdpServer

/-- The position of the balancer `poolGetter` returns. -/
def poolGetter (s : UdpServer) : Nat := s.balancers.length - 1

/-- `sess.backend.Address()`; the address of a server object never changes. -/
def addressOf (s : UdpServer) (sess : UdpSession) : String := (s.servers sess.backend).address

/-- What a handler meets under the lock: the draw of a random `Pick`, whether
    `ResolveUDPAddr` and `DialUDP` succeed, and the clock. -/
structure HandleIO where
  draw : Nat
  resolved : Bool
  dialed : Bool
  now : Int

/-- A new session to a backend that was picked on the balancer at `lb`, which is
    `balancer` after the `Pick`. -/
def addSession (s : UdpServer) (key : String) (lb : Nat) (balancer : LoadBalancer Nat)
    (backend : Nat) (now : Int) : UdpServer :=
  let sess : UdpSession :=
    { backend, lastActive := now, connOpen := true, reading := true, pickedOn := lb }
  { s with
    objects := s.objects ++ [sess]
    sessions := s.sessions.insert key s.objects.length
    balancers := s.balancers.set lb (balancer.acquire (s.addressOf sess)) }

/-- `handleDatagram` under the lock, with the session it goes on with. -/
def handle (s : UdpServer) (key clientIP : String) (lb : Nat) (io : HandleIO) :
    UdpServer × Option Nat :=
  if s.closing then (s, none)
  else
    match s.sessions.lookup key with
    | some sess => (s, some sess)
    | none =>
      match s.balancers[lb]? with
      | none => (s, none)
      | some balancer =>
        match balancer.pick s.servers io.draw clientIP with
        | (.panic, balancer) =>
          ({ s with balancers := s.balancers.set lb balancer, crashed := true }, none)
        | (.error _, balancer) => ({ s with balancers := s.balancers.set lb balancer }, none)
        | (.ok backend, balancer) =>
          if io.resolved && io.dialed then
            (s.addSession key lb balancer backend io.now, some s.objects.length)
          else ({ s with balancers := s.balancers.set lb balancer }, none)

/-- The loop of `evictExpired` and of `Close` over the table: each session it takes
    is closed, released on the balancer `lb`, and deleted. -/
def remove (s : UdpServer) (lb : Nat) (takes : String → UdpSession → Bool) : UdpServer :=
  let taken (key : String) (sess : Nat) : Bool := (s.objects[sess]?).any (takes key)
  let gone := (s.sessions.entries.filter fun e => taken e.1 e.2).map (·.2)
  { s with
    objects := s.objects.mapIdx fun i sess => if i ∈ gone then sess.closeConn else sess
    balancers := s.balancers.modify lb fun balancer =>
      (gone.filterMap fun i => (s.objects[i]?).map s.addressOf).foldl
        (fun balancer addr => balancer.release addr) balancer
    sessions :=
      { entries := s.sessions.entries.filter fun e => !taken e.1 e.2
        nodupKeys := s.sessions.nodupKeys.sublist List.filter_sublist } }

end UdpServer

/-- The steps. -/
inductive UdpOp where
  /-- the pool state is replaced: a new balancer over the given servers -/
  | replace (algorithm : String) (backends : List Nat)
  /-- health checks, the admin API and circuit breakers set flags -/
  | setFlags (server : Nat) (healthy draining circuitOpen : Bool)
  /-- a datagram arrives: rate limit and `poolGetter` -/
  | datagram (key clientIP : String) (now : Int)
  | handle (k : Nat) (io : UdpServer.HandleIO)
  | touch (k : Nat) (now : Int)
  | write (k : Nat)
  /-- `evictExpired` calls `poolGetter` -/
  | beginEvict
  /-- `evictExpired` under the lock, with the clock at its visit of each client -/
  | evict (k : Nat) (clock : String → Int)
  /-- `Close` sets `closing` -/
  | beginClose
  /-- `Close` under the lock the second time -/
  | closeSessions
  /-- a session's reader gets a datagram -/
  | received (sess : Nat) (now : Int)
  /-- a session's reader gets an error and exits, closing the socket -/
  | readError (sess : Nat)

namespace UdpServer

/-- A datagram arrives. A client over its limit is turned away. -/
def arrive (s : UdpServer) (key clientIP : String) (now : Int) : UdpServer :=
  let start (s : UdpServer) : UdpServer :=
    { s with handlers := s.handlers ++ [.fetched key clientIP s.poolGetter] }
  match s.rateLimit with
  | none => start s
  | some l =>
    let (allowed, l) := l.allow clientIP now
    let s := { s with rateLimit := some l }
    if allowed then start s else s

/-- A step of a server that has not crashed. -/
def stepRunning (s : UdpServer) : UdpOp → UdpServer
  | .replace algorithm backends =>
    { s with balancers := s.balancers ++ [newBalancer algorithm s.servers backends] }
  | .setFlags b healthy draining circuitOpen =>
    { s with
      servers := Function.update s.servers b { s.servers b with healthy, draining, circuitOpen } }
  | .datagram key clientIP now => s.arrive key clientIP now
  | .handle k io =>
    match s.handlers[k]? with
    | some (.fetched key clientIP lb) =>
      let (s', sess) := s.handle key clientIP lb io
      { s' with handlers := s.handlers.set k ((sess.map .touching).getD .done) }
    | _ => s
  | .touch k now =>
    match s.handlers[k]? with
    | some (.touching sess) =>
      { s with
        objects := s.objects.modify sess (UdpSession.touch now)
        handlers := s.handlers.set k (.writing sess) }
    | _ => s
  | .write k =>
    match s.handlers[k]? with
    | some (.writing _) => { s with handlers := s.handlers.set k .done }
    | _ => s
  | .beginEvict => { s with sweeps := s.sweeps ++ [some s.poolGetter] }
  | .evict k clock =>
    match s.sweeps[k]? with
    | some (some lb) =>
      { s.remove lb fun key sess => sess.idleDuration (clock key) > s.sessionTimeout with
        sweeps := s.sweeps.set k none }
    | _ => s
  | .beginClose => { s with closing := true }
  | .closeSessions => if s.closing then s.remove s.poolGetter fun _ _ => true else s
  | .received sess now =>
    { s with
      objects := s.objects.modify sess fun sess =>
        if sess.connOpen && sess.reading then sess.touch now else sess }
  | .readError sess =>
    { s with
      objects := s.objects.modify sess fun sess =>
        if sess.reading then { sess.closeConn with reading := false } else sess }

/-- A step. Nothing happens after a crash. -/
def step (s : UdpServer) (op : UdpOp) : UdpServer := if s.crashed then s else s.stepRunning op

end UdpServer

end HootLb.L4
