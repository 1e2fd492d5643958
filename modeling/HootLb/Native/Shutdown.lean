import HootLb.ForStd.WaitGroup
import HootLb.Native.ConnLimit
import HootLb.Native.Udp

/-!
# Shutdown of the L4 proxies

`Close` of `TCPServer`, `TLSPassthroughServer` and `UDPServer` next to everything it
can run together with: the accept loop and the handlers of the first two, which are
the same code, and `Serve`, the eviction goroutine, the calls of `handleDatagram` and
the session readers of the third. Each server is the one of the models that are there
already, with its wait group and the calls of `Serve` and `Close`.

`Close` is called once; a second call would close `shutdown` twice.
-/

namespace HootLb.L4

/-- Where the call of `Close` is. -/
inductive CloseStage where
  | notCalled
  /-- `closing` is set -/
  | marked
  /-- `shutdown` is closed -/
  | signalled
  /-- the listener is closed -/
  | stopped
  /-- the UDP sessions are closed and deleted; it waits for `evictStarted` -/
  | swept
  /-- in `wg.Wait` -/
  | waiting
  /-- with `nil` if `drained`, else with the error of the context -/
  | returned (drained : Bool)
  deriving DecidableEq

/-- The wait has begun. -/
def CloseStage.waits : CloseStage → Bool
  | waiting | returned _ => true
  | _ => false

/-! ## TCP and TLS passthrough -/

/-- A server with its wait group, which counts the goroutines of the connections. -/
structure TcpShutdown where
  server : AcceptServer
  wg : WaitGroup Nat
  close : CloseStage

def newTcpShutdown : TcpShutdown :=
  { server := newAcceptServer, wg := .empty, close := .notCalled }

inductive TcpShutdownAction where
  /-- a step of the accept loop, or of a handler up to its last deferred call -/
  | serve (a : AcceptAction)
  /-- the deferred `wg.Done()` of the goroutine started as number `k` -/
  | done (k : Nat)
  /-- `Close` sets `closing` under the mutex -/
  | mark
  | signal
  | closeListener
  | beginWait
  /-- `wg.Wait` returns, and with it `Close` -/
  | waitReturns
  /-- the context of `Close` expires -/
  | expire
  deriving DecidableEq

/-- A step, if it is possible. -/
def TcpShutdown.step (maxConn : Int) (s : TcpShutdown) : TcpShutdownAction → Option TcpShutdown
  | .serve a =>
    match a, s.server.loop with
    | .close, _ => none
    | .lock, .lock conn =>
      (s.server.step maxConn .lock).map fun server =>
        -- `wg.Add(1)` before the mutex is released
        { s with server, wg := if s.server.closing then s.wg else s.wg.start conn }
    | a, _ => (s.server.step maxConn a).map fun server => { s with server }
  | .done k =>
    match h : s.wg.tasks[k]? with
    | some (.running conn) =>
      if s.server.sem.clients[conn]? = some .finished then
        some { s with wg := s.wg.finish k conn h }
      else none
    | _ => none
  | .mark =>
    if s.close = .notCalled then
      (s.server.step maxConn .close).map fun server => { s with server, close := .marked }
    else none
  | .signal => if s.close = .marked then some { s with close := .signalled } else none
  | .closeListener => if s.close = .signalled then some { s with close := .stopped } else none
  | .beginWait => if s.close = .stopped then some { s with close := .waiting } else none
  | .waitReturns =>
    if s.close = .waiting ∧ s.wg.counter = 0 then some { s with close := .returned true } else none
  | .expire => if s.close = .waiting then some { s with close := .returned false } else none

/-! ## UDP -/

/-- What the wait group of a `UDPServer` counts. -/
inductive UdpTask where
  /-- `readSession` of a session -/
  | reader (sess : Nat)
  /-- `evictIdleSessions` -/
  | evictor
  deriving DecidableEq

/-- Where `Serve` is. -/
inductive UdpServe where
  | notCalled
  /-- the eviction goroutine is registered and started -/
  | registered
  /-- `evictStarted` is closed, and datagrams are read -/
  | reading
  deriving DecidableEq

structure UdpShutdown where
  server : UdpServer
  wg : WaitGroup UdpTask
  serve : UdpServe
  /-- `evictIdleSessions` has returned -/
  evictorExited : Bool
  close : CloseStage

/-- A server on which neither `Serve` nor `Close` has been called. -/
def newUdpShutdown (server : UdpServer) : UdpShutdown :=
  { server, wg := .empty, serve := .notCalled, evictorExited := false, close := .notCalled }

inductive UdpShutdownAction where
  /-- a step of `handleDatagram`, of a sweep, of a reader or of the pool -/
  | op (op : UdpOp)
  /-- `Serve` registers the eviction goroutine -/
  | registerEvictor
  /-- `Serve` closes `evictStarted` -/
  | announceEvictor
  | evictorExits
  /-- the deferred `wg.Done()` of the goroutine started as number `k` -/
  | done (k : Nat)
  | mark
  | signal
  | closeListener
  /-- `Close` deletes the sessions under the mutex -/
  | closeSessions
  | beginWait
  | waitReturns
  | expire

namespace UdpShutdown

/-- Steps that belong to a call of `Close`, or to goroutines that have not started or
    have returned, are not steps of the others. -/
def possible (s : UdpShutdown) : UdpOp → Bool
  | .beginClose | .closeSessions => false
  | .datagram _ _ _ => s.serve = .reading
  | .beginEvict => s.serve ≠ .notCalled && !s.evictorExited
  | _ => true

/-- The task is at its deferred `wg.Done()`. -/
def exited (s : UdpShutdown) : UdpTask → Bool
  | .reader sess => (s.server.objects[sess]?).any fun o => !o.reading
  | .evictor => s.evictorExited

/-- `handleDatagram` registers the reader of a session that it creates. -/
def register (wg : WaitGroup UdpTask) (before after : UdpServer) : WaitGroup UdpTask :=
  if before.objects.length < after.objects.length then wg.start (.reader before.objects.length)
  else wg

def stepRunning (s : UdpShutdown) : UdpShutdownAction → Option UdpShutdown
  | .op op =>
    if s.possible op then
      let server := s.server.step op
      some { s with server, wg := register s.wg s.server server }
    else none
  | .registerEvictor =>
    if s.serve = .notCalled then
      some { s with serve := .registered, wg := s.wg.start .evictor }
    else none
  | .announceEvictor => if s.serve = .registered then some { s with serve := .reading } else none
  | .evictorExits =>
    if s.serve ≠ .notCalled && s.server.sweeps.all (·.isNone) then
      some { s with evictorExited := true }
    else none
  | .done k =>
    match h : s.wg.tasks[k]? with
    | some (.running task) =>
      if s.exited task then some { s with wg := s.wg.finish k task h } else none
    | _ => none
  | .mark =>
    if s.close = .notCalled then
      some { s with server := s.server.step .beginClose, close := .marked }
    else none
  | .signal => if s.close = .marked then some { s with close := .signalled } else none
  | .closeListener => if s.close = .signalled then some { s with close := .stopped } else none
  | .closeSessions =>
    if s.close = .stopped then
      some { s with server := s.server.step .closeSessions, close := .swept }
    else none
  | .beginWait =>
    if s.close = .swept ∧ s.serve = .reading then some { s with close := .waiting } else none
  | .waitReturns =>
    if s.close = .waiting ∧ s.wg.counter = 0 then some { s with close := .returned true } else none
  | .expire => if s.close = .waiting then some { s with close := .returned false } else none

/-- A step, if it is possible. Nothing happens after a crash. -/
def step (s : UdpShutdown) (a : UdpShutdownAction) : Option UdpShutdown :=
  if s.server.crashed then none else s.stepRunning a

end UdpShutdown

end HootLb.L4
