import HootLb.ForStd.Semaphore

/-!
# Connection limits

The semaphores that bound the number of connections of a listener: the accept
loops of `TCPServer` and `TLSPassthroughServer`, which are the same code, and the
`semLimitedListener` with its `semReleaseConn` of the HTTP server. A semaphore is
a channel with room for `maxConn` tokens; taking one is a send in a `select` with
a default, giving one back is a plain receive.

A connection is known by its number in the order of `Accept`; what the code that
owns it is about to do next is its phase. Every action is one step of one
goroutine, so an interleaving is a list of actions; `none` is an action that is
not possible, or a receive that blocks.
-/

namespace HootLb.L4

/-- Where a connection is. -/
inductive ConnPhase where
  /-- `Accept` has returned it -/
  | accepted
  /-- closed by the loop because there was no room -/
  | refused
  /-- past the `select` -/
  | admitted
  /-- closed by the loop because the server is closing; its token goes back next -/
  | aborting
  /-- its goroutine is in `handleConn` -/
  | serving
  /-- `handleConn` has returned; the deferred receive is next -/
  | served
  | finished
  deriving DecidableEq

/-- Where the accept loop of `Serve` is. -/
inductive ServeLoop where
  | accept
  | select (conn : Nat)
  | lock (conn : Nat)
  | abort (conn : Nat)
  | returned
  deriving DecidableEq

/-- `TCPServer` and `TLSPassthroughServer`, as far as their loops go. -/
structure AcceptServer where
  sem : Semaphore ConnPhase
  closing : Bool
  loop : ServeLoop

def newAcceptServer : AcceptServer := { sem := .empty, closing := false, loop := .accept }

inductive AcceptAction where
  /-- `Accept` returns a connection -/
  | accept
  /-- `Accept` returns an error that ends the loop -/
  | acceptFails
  /-- the loop passes the `select` -/
  | select
  /-- the loop looks at `closing` under the mutex -/
  | lock
  /-- the loop gives back the token of a connection that came too late -/
  | abort
  /-- `handleConn` of a connection returns -/
  | handled (conn : Nat)
  /-- the deferred receive of its goroutine -/
  | release (conn : Nat)
  /-- `Close` is called -/
  | close
  deriving DecidableEq

/-- The capacity of `connSem`; without a limit there is no channel. -/
def connSem (maxConn : Int) : Option Nat := if maxConn > 0 then some maxConn.toNat else none

/-- The `<-s.connSem` behind its nil check. -/
def giveBack (maxConn : Int) (sem : Semaphore ConnPhase) (conn : Nat) :
    Option (Semaphore ConnPhase) :=
  match connSem maxConn with
  | none => some (sem.move conn .finished)
  | some _ => sem.give conn .finished

def AcceptServer.step (maxConn : Int) (s : AcceptServer) : AcceptAction → Option AcceptServer
  | .accept =>
    match s.loop with
    | .accept =>
      some { s with sem := s.sem.enter .accepted, loop := .select s.sem.clients.length }
    | _ => none
  | .acceptFails =>
    match s.loop with
    | .accept => some { s with loop := .returned }
    | _ => none
  | .select =>
    match s.loop with
    | .select conn =>
      match connSem maxConn with
      | none => some { s with sem := s.sem.move conn .admitted, loop := .lock conn }
      | some capacity =>
        if s.sem.tokens < capacity then
          some { s with sem := s.sem.take conn .admitted, loop := .lock conn }
        else some { s with sem := s.sem.move conn .refused, loop := .accept }
    | _ => none
  | .lock =>
    match s.loop with
    | .lock conn =>
      if s.closing then some { s with sem := s.sem.move conn .aborting, loop := .abort conn }
      else some { s with sem := s.sem.move conn .serving, loop := .accept }
    | _ => none
  | .abort =>
    match s.loop with
    | .abort conn =>
      (giveBack maxConn s.sem conn).map fun sem => { s with sem, loop := .returned }
    | _ => none
  | .handled conn =>
    if s.sem.clients[conn]? = some .serving then some { s with sem := s.sem.move conn .served }
    else none
  | .release conn =>
    if s.sem.clients[conn]? = some .served then
      (giveBack maxConn s.sem conn).map fun sem => { s with sem }
    else none
  | .close => some { s with closing := true }

end HootLb.L4

namespace HootLb.L7

/-- Where a connection of the limited listener is. -/
inductive LimitedPhase where
  | accepted
  | refused
  /-- handed out as a `semReleaseConn` with `released` at 0 -/
  | open
  /-- a `Close` has set `released` and receives next -/
  | releasing
  | released
  deriving DecidableEq

/-- `semLimitedListener.Accept`, called over and over. -/
inductive AcceptLoop where
  | accept
  | select (conn : Nat)
  deriving DecidableEq

structure LimitedListener where
  sem : Semaphore LimitedPhase
  loop : AcceptLoop

def newLimitedListener : LimitedListener := { sem := .empty, loop := .accept }

inductive LimitedAction where
  | accept
  | select
  /-- someone calls `Close` on a connection, up to its compare-and-swap -/
  | close (conn : Nat)
  /-- the receive of the `Close` that won it -/
  | receive (conn : Nat)
  deriving DecidableEq

def LimitedListener.step (capacity : Nat) (s : LimitedListener) :
    LimitedAction → Option LimitedListener
  | .accept =>
    match s.loop with
    | .accept => some { sem := s.sem.enter .accepted, loop := .select s.sem.clients.length }
    | _ => none
  | .select =>
    match s.loop with
    | .select conn =>
      if s.sem.tokens < capacity then some { sem := s.sem.take conn .open, loop := .accept }
      else some { sem := s.sem.move conn .refused, loop := .accept }
    | _ => none
  | .close conn =>
    match s.sem.clients[conn]? with
    | some .open => some { s with sem := s.sem.move conn .releasing }
    -- the flag is set already: only the connection underneath is closed again
    | some .releasing => some s
    | some .released => some s
    | _ => none
  | .receive conn =>
    if s.sem.clients[conn]? = some .releasing then
      (s.sem.give conn .released).map fun sem => { s with sem }
    else none

end HootLb.L7
