import HootLb.ForStd.Semaphore
import HootLb.Native.Headers
import Mathlib.Data.Finset.Basic

/-!
# Dashboard connections

`WebSocketHandler.ServeHTTP` of the dashboard and the parts of `admin.Server` that
are to end its connections: `Track`, `Untrack` and `Close`. A handler takes its
connection away from the HTTP server with `Hijack`; from then on `Shutdown` does
not see it, and it is for `Close` to find it in `wsConns` and to wait for the
handler with `wsWg`.

A step is one step of one goroutine: of a handler, of `Close`, or of the HTTP
server. What is written to and read from a connection is left out; the serve loop
may end at any time, because the client leaves, because a write fails or because
the connection has been closed.
-/

namespace HootLb.Dashboard

open HootLb.L7

/-! ## The handshake -/

/-- What `ServeHTTP` reads of an upgrade request. -/
structure UpgradeRequest where
  method : String
  /-- `r.URL.Query().Get("token")` -/
  token : String
  headers : Header
  /-- the response writer is an `http.Hijacker` -/
  hijacker : Bool

/-- `validToken`. -/
def validToken (token got : String) : Bool := if got = "" then false else got = token

/-- Equality of a character and a lower case ASCII letter under case folding. Two of
    these letters have a third form. -/
def foldsTo (c want : Char) : Bool :=
  c.toLower = want || (want = 'k' && c = '\u212a') || (want = 's' && c = '\u017f')

/-- `strings.EqualFold` with a text of lower case ASCII letters. -/
def equalFold (s want : String) : Bool :=
  s.toList.length = want.toList.length &&
    (s.toList.zip want.toList).all fun (c, w) => foldsTo c w

/-- `headerContainsToken`. -/
def headerContainsToken (h : Header) (name want : String) : Bool :=
  ((h.lookup (canonicalMIMEHeaderKey name)).getD []).any fun v =>
    (splitComma v).any fun part => equalFold (trimSpace part) want

/-- Why a request is not upgraded. -/
inductive UpgradeError where
  /-- answered with 401 -/
  | invalidToken
  /-- logged -/
  | handshake (why : String)
  deriving DecidableEq

/-- The checks of `ServeHTTP` and of `handshake` up to the call of `Hijack`; what
    they let through is the key of the client. -/
def checkUpgrade (token : String) (r : UpgradeRequest) : Except UpgradeError String :=
  if !validToken token r.token then .error .invalidToken
  else if r.method ≠ "GET" then .error (.handshake "websocket handshake requires GET")
  else if !headerContainsToken r.headers "Connection" "upgrade" then
    .error (.handshake "missing or invalid Connection: Upgrade header")
  else if !headerContainsToken r.headers "Upgrade" "websocket" then
    .error (.handshake "missing or invalid Upgrade: websocket header")
  else
    let key := r.headers.get "Sec-WebSocket-Key"
    if key = "" then .error (.handshake "missing Sec-WebSocket-Key header")
    else if !r.hijacker then
      .error (.handshake "response writer does not support hijacking")
    else .ok key

/-! ## Handlers -/

/-- Where a call of `ServeHTTP` is. -/
inductive ViewerPhase where
  /-- at the checks -/
  | requested
  /-- at `Hijack` -/
  | checked
  /-- `Hijack` has returned the connection; the response 101 is next -/
  | hijacked
  /-- the response could not be written; the connection is closed next -/
  | failed
  /-- `handshake` has returned; `Track` is next -/
  | upgraded
  /-- tracked; `wg.Add(1)` is next -/
  | tracked
  /-- in `serve` -/
  | serving
  /-- `serve` has returned; the deferred `wg.Done()` is next -/
  | served
  /-- the deferred `Untrack` is next -/
  | released
  /-- the deferred `conn.Close()` is next -/
  | untracked
  | finished
  deriving DecidableEq

/-- A call of `ServeHTTP`. -/
structure Viewer where
  request : UpgradeRequest
  phase : ViewerPhase
  /-- there is a hijacked connection that is open -/
  connOpen : Bool

/-- The next step of a handler, as far as it concerns the handler itself. `ok` says
    whether `Hijack` and the writing of the response succeed. -/
def Viewer.next (token : String) (ok : Bool) (v : Viewer) : Viewer :=
  match v.phase with
  | .requested =>
    { v with phase := if (checkUpgrade token v.request).isOk then .checked else .finished }
  | .checked =>
    if ok then { v with phase := .hijacked, connOpen := true } else { v with phase := .finished }
  | .hijacked => { v with phase := if ok then .upgraded else .failed }
  | .failed => { v with phase := .finished, connOpen := false }
  | .upgraded => { v with phase := .tracked }
  | .tracked => { v with phase := .serving }
  | .serving => { v with phase := .served }
  | .served => { v with phase := .released }
  | .released => { v with phase := .untracked }
  | .untracked => { v with phase := .finished, connOpen := false }
  | .finished => v

/-! ## The server -/

/-- Where the call of `Server.Close` is. -/
inductive CloseCall where
  | notCalled
  /-- in `srv.Shutdown` -/
  | shutdown
  /-- in `wsConns.Range`; `left` are the connections that were there when it began and
      that it has not come to -/
  | range (left : Finset Nat)
  /-- in `wsWg.Wait` -/
  | wait
  | returned
  deriving DecidableEq

/-- `admin.Server` and the calls of `ServeHTTP`, known by their numbers. The counter of
    the wait group is kept with the handlers that count themselves there. -/
structure AdminServer where
  wsWg : Semaphore Viewer
  wsConns : Finset Nat
  close : CloseCall
  /-- `Shutdown` has returned without error: the HTTP server has no connections left -/
  drained : Bool

def newAdminServer : AdminServer :=
  { wsWg := .empty, wsConns := ∅, close := .notCalled, drained := false }

namespace AdminServer

def viewers (s : AdminServer) : List Viewer := s.wsWg.clients

/-- The next step of handler `i`. -/
def advance (token : String) (s : AdminServer) (i : Nat) (ok : Bool) : AdminServer :=
  match s.viewers[i]? with
  | none => s
  | some v =>
    let v' := v.next token ok
    match v.phase with
    | .upgraded => { s with wsWg := s.wsWg.move i v', wsConns := insert i s.wsConns }
    | .tracked => { s with wsWg := s.wsWg.take i v' }
    | .served =>
      match s.wsWg.give i v' with
      | some wsWg => { s with wsWg }
      -- the counter would be negative, which is a panic
      | none => s
    | .released => { s with wsWg := s.wsWg.move i v', wsConns := s.wsConns.erase i }
    | _ => { s with wsWg := s.wsWg.move i v' }

/-- `conn.Close()` in the function that `Close` ranges with. -/
def closeConn (s : AdminServer) (i : Nat) : AdminServer :=
  match s.viewers[i]? with
  | none => s
  | some v => { s with wsWg := s.wsWg.move i { v with connOpen := false } }

/-- The connection of this handler still belongs to the HTTP server. -/
def owned (v : Viewer) : Bool := v.phase = .requested || v.phase = .checked

end AdminServer

inductive AdminAction where
  /-- the HTTP server calls `ServeHTTP` -/
  | request (r : UpgradeRequest)
  | next (viewer : Nat) (ok : Bool)
  | callClose
  /-- `Shutdown` has no connection to wait for any more -/
  | shutdownReturns
  /-- the context of `Close` expires during `Shutdown` -/
  | shutdownExpires
  /-- `Range` comes to a connection -/
  | visit (viewer : Nat)
  | rangeReturns
  | waitReturns

/-- A step. An action that is not possible does nothing. -/
def AdminServer.step (token : String) (s : AdminServer) : AdminAction → AdminServer
  | .request r =>
    if s.drained then s
    else
      { s with wsWg := s.wsWg.enter { request := r, phase := .requested, connOpen := false } }
  | .next i ok => s.advance token i ok
  | .callClose =>
    match s.close with
    | .notCalled => { s with close := .shutdown }
    | _ => s
  | .shutdownReturns =>
    match s.close with
    | .shutdown =>
      if s.viewers.any owned then s else { s with close := .range s.wsConns, drained := true }
    | _ => s
  | .shutdownExpires =>
    match s.close with
    | .shutdown => { s with close := .range s.wsConns }
    | _ => s
  | .visit i =>
    match s.close with
    | .range left =>
      -- a connection that is stored during the call may be visited or not
      if i ∈ left ∨ i ∈ s.wsConns then
        { s.closeConn i with close := .range (left.erase i) }
      else s
    | _ => s
  | .rangeReturns =>
    match s.close with
    -- one that is deleted during the call may be left out
    | .range left => if left ∩ s.wsConns = ∅ then { s with close := .wait } else s
    | _ => s
  | .waitReturns =>
    match s.close with
    | .wait => if s.wsWg.tokens = 0 then { s with close := .returned } else s
    | _ => s

end HootLb.Dashboard
