import HootLb.ForStd.List
import HootLb.Native.Relay

/-!
# A relay over a buffered connection

The TLS passthrough proxy relays over a `bufferedConn` that holds the bytes already
read. We compare such a relay with one over the bare connection whose peer has those
bytes still to send: `bare` takes the state of the one to the state of the other, and
steps commute with it.

What it adds to a wrapped connection is a half-close. `relay` looks for a
`*net.TCPConn` and does not find it in a `bufferedConn`, so that a client is not told
that the backend has finished until both directions are done.

## Key results

- `bare_step`: a step of the wrapped relay is a step of the bare one
- `replay_transparent_iff`: what the peers see of both relays, and when it differs
-/

namespace HootLb.L4

def CopyPhase.isFinished : CopyPhase → Bool
  | finished _ => true
  | _ => false

namespace NetConn

/-- The connection without the wrapper, its bytes being still to be sent and its write
    side being closed if `done` says so. -/
def bare (done : Bool) : NetConn → NetConn
  | tcp conn => tcp conn
  | buffered bc =>
    tcp
      { bc.conn with
        inbound := bc.remaining ++ bc.conn.inbound
        writeClosed := bc.conn.writeClosed || done }

/-- The read of the bare connection that returns what the wrapped one returns. -/
def bareEvent (c : NetConn) (n : Nat) (event : ReadEvent) : ReadEvent :=
  if c.held = [] then event else .data (min c.held.length n)

theorem bare_setDeadline (c : NetConn) (done : Bool) (deadline : Int) :
    (c.setDeadline deadline).bare done = (c.bare done).setDeadline deadline := by
  cases c <;> rfl

theorem bare_write (c : NetConn) (done : Bool) (bytes : List UInt8) :
    (c.write bytes).bare done = (c.bare done).write bytes := by
  cases c <;> rfl

/-- The half-close that the wrapped connection does not get. -/
theorem bare_closeWrite (c : NetConn) :
    c.closeWrite.bare true = (c.bare false).closeWrite := by
  cases c with
  | tcp conn => rfl
  | buffered bc => simp [closeWrite, bare]

theorem bare_expired (c : NetConn) (done : Bool) (now : Int) :
    (c.bare done).sock.expired now = c.sock.expired now := by
  cases c <;> rfl

theorem take_of_held (held inbound : List UInt8) (n : Nat) :
    (held ++ inbound).take (min held.length n) = held.take n := by
  rw [List.take_append_of_le_length (by omega), List.take_eq_take_iff]
  omega

theorem drop_of_held (held inbound : List UInt8) (n : Nat) :
    (held ++ inbound).drop (min held.length n) = held.drop n ++ inbound := by
  rw [List.drop_append_of_le_length (by omega)]
  by_cases h : held.length ≤ n
  · rw [Nat.min_eq_left h, List.drop_length, List.drop_eq_nil_of_le h]
  · rw [Nat.min_eq_right (by omega)]

/-- Held bytes are read from the wrapper whatever the deadline is, so that the bare
    connection must not have expired. -/
theorem bare_read (c : NetConn) (done : Bool) (now : Int) (event : ReadEvent) (n : Nat)
    (h : c.held ≠ [] → c.sock.expired now = false) :
    NetConn.read now (c.bareEvent n event) (c.bare done) n =
      ((NetConn.read now event c n).1, (NetConn.read now event c n).2.bare done) := by
  cases c with
  | tcp conn => rfl
  | buffered bc =>
    obtain ⟨conn, remaining⟩ := bc
    cases remaining with
    | nil =>
      by_cases hexp : conn.expired now
      · simp [NetConn.read, BufferedConn.read, bareEvent, held, bare, Sock.read,
          Sock.expired] at hexp ⊢
        simp [hexp]
      · simp only [Sock.expired] at hexp
        cases event <;>
          simp [NetConn.read, BufferedConn.read, bareEvent, held, bare, Sock.read, Sock.expired,
            hexp]
    | cons b rest =>
      have hexp : conn.expired now = false := h (by simp [held])
      have hsize : min (min (b :: rest).length n) n = min (b :: rest).length n := by omega
      have hevent : bareEvent (.buffered { conn, remaining := b :: rest }) n event =
          .data (min (b :: rest).length n) := by simp [bareEvent, held]
      have hread : NetConn.read now event (.buffered { conn, remaining := b :: rest }) n =
          (((b :: rest).take n, none), .buffered { conn, remaining := (b :: rest).drop n }) := rfl
      rw [hevent, hread]
      simp only [NetConn.read, bare]
      rw [Sock.read, if_neg (by simpa [Sock.expired] using hexp)]
      simp only [hsize, take_of_held, drop_of_held]

/-- Whether the write side of a wrapped connection is closed; `none` for a bare one. -/
def wrapped : NetConn → Option Bool
  | tcp _ => none
  | buffered bc => some bc.conn.writeClosed

theorem wrapped_read (now : Int) (event : ReadEvent) (c : NetConn) (n : Nat) :
    (NetConn.read now event c n).2.wrapped = c.wrapped := by
  cases c with
  | tcp conn => rfl
  | buffered bc =>
    simp only [NetConn.read, BufferedConn.read, Sock.read]
    split
    · rfl
    · split
      · rfl
      · cases event <;> rfl

theorem wrapped_setDeadline (c : NetConn) (deadline : Int) :
    (c.setDeadline deadline).wrapped = c.wrapped := by
  cases c <;> rfl

theorem wrapped_write (c : NetConn) (bytes : List UInt8) :
    (c.write bytes).wrapped = c.wrapped := by
  cases c <;> rfl

theorem wrapped_closeWrite (c : NetConn) : c.closeWrite.wrapped = c.wrapped := by
  cases c <;> rfl

end NetConn

namespace RelayState

variable {idleTimeout : Duration}

/-- The state of the relay over the bare connections. -/
def bare (s : RelayState) : RelayState :=
  { s with conns := fun p => (s.conns p).bare (s.phase p).isFinished }

@[simp] theorem bare_phase (s : RelayState) : s.bare.phase = s.phase := rfl

@[simp] theorem bare_conns (s : RelayState) (p : Party) :
    s.bare.conns p = (s.conns p).bare (s.phase p).isFinished := rfl

/-- What the bare relay does while the wrapped one takes a step. -/
def bareAction (s : RelayState) : RelayAction → RelayAction
  | .read dst event now => .read dst ((s.conns dst.other).bareEvent copyBufferSize event) now
  | a => a

/-- A read of held bytes comes before the deadline of the connection. -/
def ReadsHeldInTime (s : RelayState) : RelayAction → Prop
  | .read dst _ now => (s.conns dst.other).held ≠ [] → (s.conns dst.other).sock.expired now = false
  | _ => True

instance (s : RelayState) : (a : RelayAction) → Decidable (s.ReadsHeldInTime a)
  | .read dst _ now =>
    inferInstanceAs (Decidable
      ((s.conns dst.other).held ≠ [] → (s.conns dst.other).sock.expired now = false))
  | .begin _ _ | .write _ _ _ | .writeFails _ | .finish _ | .close => instDecidableTrue

/-- A step that does not finish a goroutine changes the bare state as it changes the
    state. -/
theorem bare_setConn_setPhase (s : RelayState) (q dst : Party) (conn : NetConn) (phase : CopyPhase)
    (h : phase.isFinished = (s.phase dst).isFinished) :
    ((s.setConn q conn).setPhase dst phase).bare =
      (s.bare.setConn q (conn.bare (s.phase q).isFinished)).setPhase dst phase := by
  have hfinished (p : Party) :
      (Function.update s.phase dst phase p).isFinished = (s.phase p).isFinished := by
    by_cases hp : p = dst
    · subst hp
      simpa using h
    · simp [hp]
  simp only [bare, setConn, setPhase, hfinished]
  congr 1
  funext p
  by_cases hp : p = q
  · subst hp
    simp
  · simp [hp]

theorem bare_setPhase (s : RelayState) (dst : Party) (phase : CopyPhase)
    (h : phase.isFinished = (s.phase dst).isFinished) :
    (s.setPhase dst phase).bare = s.bare.setPhase dst phase := by
  have hconn := bare_setConn_setPhase s dst dst (s.conns dst) phase h
  have hsame : s.setConn dst (s.conns dst) = s := by simp [setConn]
  have hbare : s.bare.setConn dst ((s.conns dst).bare (s.phase dst).isFinished) = s.bare := by
    simp [setConn, bare]
  rwa [hsame, hbare] at hconn

/-- The bare relay takes the same step, with a half-close where the wrapped connection
    gets none. -/
theorem bare_step (s : RelayState) (a : RelayAction) (h : s.ReadsHeldInTime a) :
    s.bare.step idleTimeout (s.bareAction a) = (s.step idleTimeout a).bare := by
  cases a with
  | begin dst now =>
    simp only [bareAction, step, bare_phase, bare_conns]
    split
    case h_1 hs =>
      have hfinished : CopyPhase.reading.isFinished = (s.phase dst).isFinished := by rw [hs]; rfl
      split
      · rw [← NetConn.bare_setDeadline]
        exact (bare_setConn_setPhase s dst dst _ _ hfinished).symm
      · exact (bare_setPhase s dst _ hfinished).symm
    case h_2 => rfl
  | read dst event now =>
    have hread := NetConn.bare_read (s.conns dst.other) (s.phase dst.other).isFinished now event
      copyBufferSize h
    simp only [bareAction, step, bare_phase, bare_conns, hread]
    split
    case h_1 hs =>
      rcases NetConn.read now event (s.conns dst.other) copyBufferSize with ⟨⟨chunk, err⟩, conn⟩
      cases err with
      | none =>
        refine (bare_setConn_setPhase s dst.other dst conn _ ?_).symm
        rw [hs]
        split <;> rfl
      | some why => exact (bare_setConn_setPhase s dst.other dst conn _ (by rw [hs]; rfl)).symm
    case h_2 => rfl
  | write dst k now =>
    simp only [bareAction, step, bare_phase, bare_conns, NetConn.bare_expired]
    split
    case h_1 chunk hs =>
      split
      · exact (bare_setPhase s dst _ (by rw [hs]; rfl)).symm
      · rw [← NetConn.bare_write]
        have hfinished : (if chunk.drop k = [] then CopyPhase.reading
            else .writing (chunk.drop k)).isFinished = (s.phase dst).isFinished := by
          rw [hs]
          split <;> rfl
        exact (bare_setConn_setPhase
          { s with count := Function.update s.count dst (s.count dst + (chunk.take k).length) }
          dst dst _ _ hfinished).symm
    case h_2 => rfl
  | writeFails dst =>
    simp only [bareAction, step, bare_phase]
    split
    case h_1 chunk hs => exact (bare_setPhase s dst _ (by rw [hs]; rfl)).symm
    case h_2 => rfl
  | finish dst =>
    simp only [bareAction, step, bare_phase, bare_conns]
    split
    case h_1 why hs =>
      -- the one step that is not the same for the two connections
      simp only [bare, setConn, setPhase]
      congr 1
      funext p
      by_cases hp : p = dst
      · subst hp
        simp [hs, CopyPhase.isFinished, NetConn.bare_closeWrite]
      · simp [hp]
    case h_2 => rfl
  | close =>
    simp only [bareAction, step, bare_phase]
    split <;> rfl

/-- What the bare relay does in the course of a run of the wrapped one. -/
def bareRun (idleTimeout : Duration) : RelayState → List RelayAction → List RelayAction
  | _, [] => []
  | s, a :: run => s.bareAction a :: bareRun idleTimeout (s.step idleTimeout a) run

theorem bare_run (s : RelayState) (run : List RelayAction)
    (h : List.Along (step idleTimeout) ReadsHeldInTime s run) :
    (bareRun idleTimeout s run).foldl (step idleTimeout) s.bare =
      (run.foldl (step idleTimeout) s).bare := by
  induction run generalizing s with
  | nil => rfl
  | cons a run ih =>
    rw [bareRun, List.foldl_cons, List.foldl_cons, bare_step s a h.1]
    exact ih _ h.2

/-- No step takes a wrapper off or closes the write side of a connection in a wrapper. -/
theorem step_wrapped (s : RelayState) (a : RelayAction) (p : Party) :
    ((s.step idleTimeout a).conns p).wrapped = (s.conns p).wrapped :=
  step_conn idleTimeout s a p (fun c => c.wrapped = (s.conns p).wrapped) rfl
    (fun _ _ => NetConn.wrapped_setDeadline ..) (fun _ _ => NetConn.wrapped_read ..)
    (fun _ => NetConn.wrapped_write ..) (NetConn.wrapped_closeWrite _)

theorem run_wrapped (idleTimeout : Duration) (s : RelayState) (run : List RelayAction) (p : Party) :
    ((run.foldl (step idleTimeout) s).conns p).wrapped = (s.conns p).wrapped := by
  induction run generalizing s with
  | nil => rfl
  | cons a run ih => rw [List.foldl_cons, ih, step_wrapped]

/-- What a peer sees of a relay: the bytes it gets and whether they have ended. -/
def seenBy (s : RelayState) (p : Party) : List UInt8 × Bool :=
  ((s.conns p).sock.written, (s.conns p).sock.writeClosed || s.closed)

/-- For every stream of the client of which some bytes are held by the wrapper, every
    backend and every behaviour of the two: the relay over the bare connection with the
    whole stream goes through the same phases with the same bytes to both peers and the
    same end of the bytes to the backend. The client sees the same exactly as long as
    the backend has not finished, and again when the relay is over; in between the bare
    connection is half-closed and the wrapped one is not. -/
theorem replay_transparent_iff (idleTimeout : Duration) (client : BufferedConn Sock)
    (hopen : client.conn.writeClosed = false) (backend : Sock) (run : List RelayAction)
    (hrun : List.Along (step idleTimeout) ReadsHeldInTime
      (startRelay (.buffered client) (.tcp backend)) run) :
    ∃ s b,
      s = run.foldl (step idleTimeout) (startRelay (.buffered client) (.tcp backend)) ∧
      b = (bareRun idleTimeout (startRelay (.buffered client) (.tcp backend)) run).foldl
        (step idleTimeout)
        (startRelay
          (.tcp { client.conn with inbound := client.remaining ++ client.conn.inbound })
          (.tcp backend)) ∧
      b.phase = s.phase ∧ b.total = s.total ∧ b.closed = s.closed ∧
      b.seenBy .backend = s.seenBy .backend ∧
      (b.seenBy .client).1 = (s.seenBy .client).1 ∧
      (b.seenBy .client = s.seenBy .client ↔ ¬ (s.phase .client).isFinished ∨ s.closed) := by
  have hbare : startRelay
      (.tcp { client.conn with inbound := client.remaining ++ client.conn.inbound })
      (.tcp backend) = (startRelay (.buffered client) (.tcp backend)).bare := by
    simp only [startRelay, bare]
    congr 1
    funext p
    cases p <;> simp [NetConn.bare, CopyPhase.isFinished]
  refine ⟨_, _, rfl, rfl, ?_⟩
  rw [hbare, bare_run _ run hrun]
  -- what is kept of the two connections
  have hclient := run_wrapped idleTimeout
    (startRelay (.buffered client) (.tcp backend)) run .client
  have hbackend := run_wrapped idleTimeout
    (startRelay (.buffered client) (.tcp backend)) run .backend
  generalize run.foldl (step idleTimeout) (startRelay (.buffered client) (.tcp backend)) = s
    at hclient hbackend ⊢
  obtain ⟨bc, hbc, hclosed⟩ :
      ∃ bc, s.conns .client = .buffered bc ∧ bc.conn.writeClosed = false := by
    cases hconn : s.conns .client with
    | tcp conn =>
      rw [hconn] at hclient
      cases hclient
    | buffered bc =>
      rw [hconn] at hclient
      exact ⟨bc, rfl, (Option.some.inj hclient).trans hopen⟩
  obtain ⟨conn, hconn⟩ : ∃ conn, s.conns .backend = .tcp conn := by
    cases hconn : s.conns .backend with
    | tcp conn => exact ⟨conn, rfl⟩
    | buffered bc =>
      rw [hconn] at hbackend
      cases hbackend
  refine ⟨rfl, rfl, rfl, ?_, ?_, ?_⟩
  · simp [seenBy, bare, hconn, NetConn.bare]
  · simp [seenBy, bare, hbc, NetConn.bare, NetConn.sock]
  · simp only [seenBy, bare, hbc, NetConn.bare, NetConn.sock, hclosed]
    cases (s.phase .client).isFinished <;> cases s.closed <;> simp

/-- A client of which two bytes are held and one is still to come. -/
def heldHello : BufferedConn Sock where
  conn := { inbound := [3], deadline := none, written := [], writeClosed := false }
  remaining := [1, 2]

/-- A backend that sends one byte. -/
def briefBackend : Sock :=
  { inbound := [9], deadline := none, written := [], writeClosed := false }

/-- The held bytes go to the backend, and its byte to the client. -/
def replayed : List RelayAction :=
  [.begin .backend 0, .begin .client 0, .read .backend .eof 0, .write .backend 2 0,
    .read .client (.data 1) 1, .write .client 1 1]

theorem replay_transparent_so_far :
    ∃ s b,
      s = replayed.foldl (step 300) (startRelay (.buffered heldHello) (.tcp briefBackend)) ∧
      b = (bareRun 300 (startRelay (.buffered heldHello) (.tcp briefBackend)) replayed).foldl
        (step 300)
        (startRelay (.tcp { heldHello.conn with inbound := [1, 2, 3] }) (.tcp briefBackend)) ∧
      b.seenBy .backend = s.seenBy .backend ∧ b.seenBy .client = s.seenBy .client := by
  obtain ⟨s, b, hs, hb, -, -, -, hbackend, -, hclient⟩ :=
    replay_transparent_iff 300 heldHello rfl briefBackend replayed (by decide +kernel)
  have hnot : ¬ (s.phase .client).isFinished := by
    rw [hs]
    decide +kernel
  exact ⟨s, b, hs, hb, hbackend, hclient.mpr (.inl hnot)⟩

/-- The backend has finished sending and the client goes on: the bare connection is
    half-closed and the wrapped one is not, so that the client waits for more. -/
theorem half_close_lost :
    ∃ (run : List RelayAction) (s b : RelayState),
      run = replayed ++ [.read .client .eof 2, .finish .client] ∧
      s = run.foldl (step 300) (startRelay (.buffered heldHello) (.tcp briefBackend)) ∧
      b = (bareRun 300 (startRelay (.buffered heldHello) (.tcp briefBackend)) run).foldl (step 300)
        (startRelay (.tcp { heldHello.conn with inbound := [1, 2, 3] }) (.tcp briefBackend)) ∧
      s.phase .client = .finished .eof ∧ s.phase .backend = .reading ∧
      b.seenBy .client = ([9], true) ∧ s.seenBy .client = ([9], false) := by
  refine ⟨_, _, _, rfl, rfl, rfl, ?_⟩
  decide +kernel

end RelayState

end HootLb.L4
