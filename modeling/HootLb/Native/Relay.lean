import HootLb.Native.Passthrough
import Mathlib.Logic.Function.Basic

/-!
# The relay

`relay` of `internal/proxy/l4/tcp.go`: two goroutines, each of which sets a deadline
on the connection it writes to, copies to it with `io.Copy` and then closes its write
side if it is a `*net.TCPConn`. The TCP proxy calls it with the connection of the
client, the TLS passthrough proxy with a `bufferedConn` around it.

A step is one call that a goroutine makes; what the peers do shows in how the calls
end. A deadline holds for every later read and write of the connection, and a call
that comes at the deadline or after it fails without doing anything.
-/

namespace HootLb.L4

/-! ## Connections -/

/-- Why `io.Copy` returns. -/
inductive CopyEnd where
  | eof
  /-- a read or a write met an expired deadline -/
  | timeout
  /-- the peer reset the connection or the like -/
  | peerError
  deriving DecidableEq

/-- A TCP connection. -/
structure Sock where
  /-- what the peer sends, as far as it has not been read -/
  inbound : List UInt8
  /-- the time given to `SetDeadline` -/
  deadline : Option Int
  /-- what has been written to the peer -/
  written : List UInt8
  /-- `CloseWrite` has been called -/
  writeClosed : Bool
  deriving DecidableEq

def Sock.expired (s : Sock) (now : Int) : Bool := s.deadline.any (· ≤ now)

/-- How a read of a TCP connection ends whose deadline has not expired. -/
inductive ReadEvent where
  /-- up to `k` bytes have arrived -/
  | data (k : Nat)
  /-- the peer has closed its side, after all its bytes -/
  | eof
  | peerError
  deriving DecidableEq

/-- `Read` of a TCP connection. An error comes without bytes. -/
def Sock.read (now : Int) (event : ReadEvent) : Reader Sock UInt8 CopyEnd := fun s n =>
  if s.expired now then (([], some .timeout), s)
  else
    match event with
    | .data k => ((s.inbound.take (min k n), none), { s with inbound := s.inbound.drop (min k n) })
    | .eof => (([], if s.inbound = [] then some .eof else none), s)
    | .peerError => (([], some .peerError), s)

/-- A `net.Conn` that `relay` is called with. -/
inductive NetConn where
  | tcp (conn : Sock)
  | buffered (conn : BufferedConn Sock)

namespace NetConn

/-- The TCP connection, which a `bufferedConn` leaves all but `Read` to. -/
def sock : NetConn → Sock
  | tcp conn => conn
  | buffered bc => bc.conn

/-- The bytes that are read before those of the peer. -/
def held : NetConn → List UInt8
  | tcp _ => []
  | buffered bc => bc.remaining

def onSock (f : Sock → Sock) : NetConn → NetConn
  | tcp conn => tcp (f conn)
  | buffered bc => buffered { bc with conn := f bc.conn }

def read (now : Int) (event : ReadEvent) : Reader NetConn UInt8 CopyEnd
  | tcp conn, n =>
    let (result, conn) := Sock.read now event conn n
    (result, tcp conn)
  | buffered bc, n =>
    let (result, bc) := BufferedConn.read (Sock.read now event) bc n
    (result, buffered bc)

def setDeadline (deadline : Int) : NetConn → NetConn :=
  onSock fun s => { s with deadline := some deadline }

/-- The peer takes these bytes. -/
def write (bytes : List UInt8) : NetConn → NetConn :=
  onSock fun s => { s with written := s.written ++ bytes }

/-- `if tc, ok := conn.(*net.TCPConn); ok { tc.CloseWrite() }`. -/
def closeWrite : NetConn → NetConn
  | tcp conn => tcp { conn with writeClosed := true }
  | buffered bc => buffered bc

end NetConn

/-! ## The two goroutines -/

/-- The parties of a relay. A goroutine is named by the party that it writes to. -/
inductive Party where
  | client
  | backend
  deriving DecidableEq

/-- The party that the goroutine reads from. -/
def Party.other : Party → Party
  | client => backend
  | backend => client

/-- Where a goroutine is. -/
inductive CopyPhase where
  | start
  /-- in `io.Copy`, at a read -/
  | reading
  /-- in `io.Copy`, with this much of a chunk to write -/
  | writing (chunk : List UInt8)
  /-- `io.Copy` has returned -/
  | copied (why : CopyEnd)
  | finished (why : CopyEnd)
  deriving DecidableEq

structure RelayState where
  conns : Party → NetConn
  /-- the goroutine that writes to this party -/
  phase : Party → CopyPhase
  /-- the bytes that its `io.Copy` has written so far -/
  count : Party → Nat
  /-- `sent` for the backend and `received` for the client -/
  total : Party → Nat
  /-- `relay` has returned, and with the deferred calls of `handleConn` both
      connections are closed -/
  closed : Bool

/-- `relay` is called. -/
def startRelay (client backend : NetConn) : RelayState where
  conns
    | .client => client
    | .backend => backend
  phase := fun _ => .start
  count := fun _ => 0
  total := fun _ => 0
  closed := false

inductive RelayAction where
  /-- the goroutine that writes to this party starts -/
  | begin (dst : Party) (now : Int)
  | read (dst : Party) (event : ReadEvent) (now : Int)
  /-- the peer takes up to `k` bytes of the chunk -/
  | write (dst : Party) (k : Nat) (now : Int)
  | writeFails (dst : Party)
  /-- what comes after `io.Copy` -/
  | finish (dst : Party)
  | close
  deriving DecidableEq

/-- Size of the buffer of `io.Copy`. -/
def copyBufferSize := 32 * 1024

namespace RelayState

def setPhase (s : RelayState) (dst : Party) (phase : CopyPhase) : RelayState :=
  { s with phase := Function.update s.phase dst phase }

def setConn (s : RelayState) (p : Party) (conn : NetConn) : RelayState :=
  { s with conns := Function.update s.conns p conn }

/-- A step. An action that is not possible does nothing. -/
def step (idleTimeout : Duration) (s : RelayState) : RelayAction → RelayState
  | .begin dst now =>
    match s.phase dst with
    | .start =>
      let s :=
        if idleTimeout > 0 then s.setConn dst ((s.conns dst).setDeadline (now + idleTimeout)) else s
      s.setPhase dst .reading
    | _ => s
  | .read dst event now =>
    match s.phase dst with
    | .reading =>
      let src := dst.other
      match NetConn.read now event (s.conns src) copyBufferSize with
      | ((chunk, none), conn) =>
        (s.setConn src conn).setPhase dst (if chunk = [] then .reading else .writing chunk)
      | ((_, some why), conn) => (s.setConn src conn).setPhase dst (.copied why)
    | _ => s
  | .write dst k now =>
    match s.phase dst with
    | .writing chunk =>
      if (s.conns dst).sock.expired now then s.setPhase dst (.copied .timeout)
      else
        let s := s.setConn dst ((s.conns dst).write (chunk.take k))
        let s :=
          { s with count := Function.update s.count dst (s.count dst + (chunk.take k).length) }
        s.setPhase dst (if chunk.drop k = [] then .reading else .writing (chunk.drop k))
    | _ => s
  | .writeFails dst =>
    match s.phase dst with
    | .writing _ => s.setPhase dst (.copied .peerError)
    | _ => s
  | .finish dst =>
    match s.phase dst with
    | .copied why =>
      let s := { s with total := Function.update s.total dst (s.total dst + s.count dst) }
      (s.setConn dst (s.conns dst).closeWrite).setPhase dst (.finished why)
    | _ => s
  | .close =>
    match s.phase .client, s.phase .backend with
    | .finished _, .finished _ => { s with closed := true }
    | _, _ => s

@[simp] theorem setPhase_conns (s : RelayState) (dst : Party) (phase : CopyPhase) :
    (s.setPhase dst phase).conns = s.conns := rfl

@[simp] theorem setConn_phase (s : RelayState) (p : Party) (conn : NetConn) :
    (s.setConn p conn).phase = s.phase := rfl

@[simp] theorem setPhase_phase (s : RelayState) (dst : Party) (phase : CopyPhase) :
    (s.setPhase dst phase).phase = Function.update s.phase dst phase := rfl

theorem setConn_conn {s : RelayState} {q : Party} {conn : NetConn} {p : Party}
    (P : NetConn → Prop) (hself : P (s.conns p)) (hconn : p = q → P conn) :
    P ((s.setConn q conn).conns p) := by
  by_cases hp : p = q
  · subst hp
    simpa [setConn] using hconn rfl
  · simpa [setConn, hp] using hself

/-- What a step can do to a connection. -/
theorem step_conn (idleTimeout : Duration) (s : RelayState) (a : RelayAction) (p : Party)
    (P : NetConn → Prop) (hself : P (s.conns p))
    (hbegin : ∀ now, a = .begin p now → P ((s.conns p).setDeadline (now + idleTimeout)))
    (hread : ∀ now event, P (NetConn.read now event (s.conns p) copyBufferSize).2)
    (hwrite : ∀ bytes, P ((s.conns p).write bytes)) (hclose : P (s.conns p).closeWrite) :
    P ((s.step idleTimeout a).conns p) := by
  cases a with
  | begin dst now =>
    simp only [step]
    split
    · split
      · exact setConn_conn P hself fun h => h ▸ hbegin now (by rw [h])
      · exact hself
    · exact hself
  | read dst event now =>
    -- the goroutine reads from the other party
    have hconn (h : p = dst.other) := h ▸ hread now event
    simp only [step]
    split
    · rcases hr : NetConn.read now event (s.conns dst.other) copyBufferSize with
        ⟨⟨chunk, err⟩, conn⟩
      rw [hr] at hconn
      cases err <;> exact setConn_conn P hself hconn
    · exact hself
  | write dst k now =>
    simp only [step]
    split
    · split
      · exact hself
      · exact setConn_conn P hself fun h => h ▸ hwrite _
    · exact hself
  | writeFails dst =>
    simp only [step]
    split <;> exact hself
  | finish dst =>
    simp only [step]
    split
    · exact setConn_conn P hself fun h => h ▸ hclose
    · exact hself
  | close =>
    simp only [step]
    split <;> exact hself

end RelayState

end HootLb.L4
