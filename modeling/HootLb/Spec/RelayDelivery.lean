import HootLb.Spec.RelayIdle
import HootLb.Spec.RelayReplay

/-!
# What a relay delivers

The two goroutines of a relay share both connections: each reads from the one that the
other writes to. They still make up two streams that have nothing to do with each other.
`Flow` is one of them, from the bytes that are still to be read to those that the peer has
got, and a step of the relay is a step of one flow and no step of the other.

## Key results

- `step_flow`: a step of a relay, seen from one direction
- `relay_delivers`: whole runs, whatever the order of the calls of the two goroutines
-/

namespace HootLb.L4

/-! ## Reading -/

/-- What can still be read from a connection. -/
def NetConn.unread (c : NetConn) : List UInt8 := c.held ++ c.sock.inbound

/-- A read takes what it returns from the front and writes nothing. An error comes without
    bytes, and the end of the stream after the last one. -/
structure ReadsFront (c : NetConn) (chunk : List UInt8) (err : Option CopyEnd) (c' : NetConn) :
    Prop where
  unread : c.unread = chunk ++ c'.unread
  written : c'.sock.written = c.sock.written
  writeClosed : c'.sock.writeClosed = c.sock.writeClosed
  error : ∀ why, err = some why → chunk = [] ∧ (why = .eof → c.unread = [])

theorem Sock.read_front (now : Int) (event : ReadEvent) (s : Sock) (n : Nat) :
    ReadsFront (.tcp s) (Sock.read now event s n).1.1 (Sock.read now event s n).1.2
      (.tcp (Sock.read now event s n).2) := by
  unfold Sock.read
  split
  · exact ⟨rfl, rfl, rfl, by simp⟩
  · cases event with
    | data k => exact ⟨(List.take_append_drop _ _).symm, rfl, rfl, by simp⟩
    | eof => exact ⟨rfl, rfl, rfl, by simp [NetConn.unread, NetConn.held, NetConn.sock]⟩
    | peerError => exact ⟨rfl, rfl, rfl, by simp⟩

theorem NetConn.read_front (now : Int) (event : ReadEvent) (c : NetConn) (n : Nat) :
    ReadsFront c (NetConn.read now event c n).1.1 (NetConn.read now event c n).1.2
      (NetConn.read now event c n).2 := by
  cases c with
  | tcp conn => exact Sock.read_front now event conn n
  | buffered bc =>
    simp only [NetConn.read, BufferedConn.read]
    split
    · refine ⟨?_, rfl, rfl, by simp⟩
      simp [unread, held, sock, ← List.append_assoc]
    · rename_i hheld
      have hnone : bc.remaining = [] := List.length_eq_zero_iff.mp (by omega)
      obtain ⟨hunread, hwritten, hclosed, herror⟩ := Sock.read_front now event bc.conn n
      have hsame (conn : Sock) : unread (.buffered ⟨conn, bc.remaining⟩) = unread (.tcp conn) := by
        simp [unread, held, sock, hnone]
      exact ⟨(hsame _).trans (hunread.trans (congrArg _ (hsame _).symm)), hwritten, hclosed,
        fun why h => (herror why h).imp_right fun heof hwhy => (hsame _).trans (heof hwhy)⟩

@[simp] theorem NetConn.unread_onSock (c : NetConn) (f : Sock → Sock)
    (hf : (f c.sock).inbound = c.sock.inbound) : (c.onSock f).unread = c.unread := by
  cases c <;> exact congrArg (_ ++ ·) hf

@[simp] theorem NetConn.unread_closeWrite (c : NetConn) : c.closeWrite.unread = c.unread := by
  cases c <;> rfl

@[simp] theorem Party.other_ne (p : Party) : p.other ≠ p := by cases p <;> decide

@[simp] theorem Party.ne_other (p : Party) : p ≠ p.other := p.other_ne.symm

namespace CopyPhase

/-- The bytes between a read and the end of its writes. -/
def inFlight : CopyPhase → List UInt8
  | writing chunk => chunk
  | _ => []

/-- Why the copy has ended, if it has. -/
def ended : CopyPhase → Option CopyEnd
  | copied why | finished why => some why
  | _ => none

end CopyPhase

namespace RelayState

/-! ## One direction -/

/-- A direction of a relay: what is still to be read, where the goroutine is, and what it has
    done to the connection that it writes to. -/
structure Flow where
  source : List UInt8
  phase : CopyPhase
  written : List UInt8
  writeClosed : Bool
  count : Nat
  total : Nat

def flow (s : RelayState) (dst : Party) : Flow :=
  { source := (s.conns dst.other).unread, phase := s.phase dst
    written := (s.conns dst).sock.written, writeClosed := (s.conns dst).sock.writeClosed
    count := s.count dst, total := s.total dst }

/-- What a step does to a direction. -/
inductive FlowStep (f : Flow) : Flow → Prop
  | stay : FlowStep f f
  | begin (h : f.phase = .start) : FlowStep f { f with phase := .reading }
  | read (chunk rest : List UInt8) (h : f.phase = .reading) (hsource : f.source = chunk ++ rest) :
    FlowStep f
      { f with source := rest, phase := if chunk = [] then .reading else .writing chunk }
  | readEnds (why : CopyEnd) (h : f.phase = .reading) (heof : why = .eof → f.source = []) :
    FlowStep f { f with phase := .copied why }
  | write (chunk : List UInt8) (k : Nat) (h : f.phase = .writing chunk) :
    FlowStep f
      { f with
        written := f.written ++ chunk.take k, count := f.count + (chunk.take k).length
        phase := if chunk.drop k = [] then .reading else .writing (chunk.drop k) }
  | writeEnds (chunk : List UInt8) (why : CopyEnd) (h : f.phase = .writing chunk)
    (hwhy : why ≠ .eof) : FlowStep f { f with phase := .copied why }
  | finish (why : CopyEnd) (writeClosed : Bool) (h : f.phase = .copied why) :
    FlowStep f { f with total := f.total + f.count, writeClosed, phase := .finished why }

/-- A step of the goroutine that writes to the other party: it may read from `dst` and write
    to the connection that `dst` is sent from. -/
theorem flow_of_other {s s' : RelayState} {d dst : Party} (hd : dst ≠ d)
    (hphase : s'.phase dst = s.phase dst) (hcount : s'.count dst = s.count dst)
    (htotal : s'.total dst = s.total dst) (hunread : (s'.conns d).unread = (s.conns d).unread)
    (hwritten : (s'.conns d.other).sock.written = (s.conns d.other).sock.written)
    (hclosed : (s'.conns d.other).sock.writeClosed = (s.conns d.other).sock.writeClosed) :
    FlowStep (s.flow dst) (s'.flow dst) := by
  have hdst : dst.other = d ∧ d.other = dst := by
    cases d <;> cases dst <;> simp_all [Party.other]
  have hsame : s'.flow dst = s.flow dst := by
    simp only [flow, hdst.1, hphase, hcount, htotal, hunread]
    rw [← hdst.2, hwritten, hclosed]
  exact hsame ▸ .stay

/-- A write that fails ends the copy. -/
theorem flow_write_fails {s : RelayState} {d : Party} {chunk : List UInt8} {why : CopyEnd}
    (h : s.phase d = .writing chunk) (hwhy : why ≠ .eof) (dst : Party) :
    FlowStep (s.flow dst) ((s.setPhase d (.copied why)).flow dst) := by
  by_cases hd : dst = d
  · subst hd
    simpa [flow, setPhase] using FlowStep.writeEnds (f := s.flow dst) chunk why h hwhy
  · apply flow_of_other hd <;> simp [setPhase, hd]

theorem step_flow (idleTimeout : Duration) (s : RelayState) (a : RelayAction) (dst : Party) :
    FlowStep (s.flow dst) ((s.step idleTimeout a).flow dst) := by
  cases a with
  | begin d now =>
    simp only [step]
    split
    · rename_i h
      by_cases hd : dst = d
      · subst hd
        have hstep := FlowStep.begin (f := s.flow dst) h
        split <;> simpa [flow, setConn, setPhase, NetConn.setDeadline] using hstep
      · split <;> apply flow_of_other hd <;> simp [setConn, setPhase, hd, NetConn.setDeadline]
    · exact .stay
  | read d event now =>
    simp only [step]
    split
    · rename_i h
      have hread := NetConn.read_front now event (s.conns d.other) copyBufferSize
      generalize NetConn.read now event (s.conns d.other) copyBufferSize = r at hread
      obtain ⟨⟨chunk, err⟩, conn⟩ := r
      by_cases hd : dst = d
      · subst hd
        cases err with
        | none =>
          simpa [flow, setConn, setPhase]
            using FlowStep.read (f := s.flow dst) chunk conn.unread h hread.unread
        | some why =>
          obtain ⟨rfl, heof⟩ := hread.error why rfl
          have hsame : conn.unread = (s.conns dst.other).unread := hread.unread.symm
          simpa [flow, setConn, setPhase, hsame]
            using FlowStep.readEnds (f := s.flow dst) why h heof
      · cases err <;> apply flow_of_other hd <;>
          simp [setConn, setPhase, hd, hread.written, hread.writeClosed]
    · exact .stay
  | write d k now =>
    simp only [step]
    split
    · rename_i chunk h
      split
      · exact flow_write_fails h (by decide) dst
      · by_cases hd : dst = d
        · subst hd
          simpa [flow, setConn, setPhase, NetConn.write]
            using FlowStep.write (f := s.flow dst) chunk k h
        · apply flow_of_other hd <;> simp [setConn, setPhase, hd, NetConn.write]
    · exact .stay
  | writeFails d =>
    simp only [step]
    split
    · exact flow_write_fails ‹_› (by decide) dst
    · exact .stay
  | finish d =>
    simp only [step]
    split
    · rename_i why h
      by_cases hd : dst = d
      · subst hd
        simpa [flow, setConn, setPhase]
          using FlowStep.finish (f := s.flow dst) why (s.conns dst).closeWrite.sock.writeClosed h
      · apply flow_of_other hd <;> simp [setConn, setPhase, hd]
    · exact .stay
  | close =>
    simp only [step]
    split <;> exact .stay

/-! ## Runs -/

/-- A direction delivers in order what it is to carry, and loses nothing unless it fails. -/
structure Flow.Delivers (sent : List UInt8) (f : Flow) : Prop where
  order : f.written ++ f.phase.inFlight <+: sent
  whole : f.phase.ended = none ∨ f.phase.ended = some .eof →
    f.written ++ (f.phase.inFlight ++ f.source) = sent
  eof : f.phase.ended = some .eof → f.source = []
  count : f.count = f.written.length
  total : f.total = if f.phase.isFinished then f.count else 0
  closed : f.writeClosed → f.phase.isFinished

theorem Flow.Delivers.of_whole {sent : List UInt8} {f : Flow}
    (whole : f.written ++ (f.phase.inFlight ++ f.source) = sent)
    (eof : f.phase.ended = some .eof → f.source = []) (count : f.count = f.written.length)
    (total : f.total = if f.phase.isFinished then f.count else 0)
    (closed : f.writeClosed → f.phase.isFinished) : f.Delivers sent :=
  ⟨⟨f.source, by rw [← whole, List.append_assoc]⟩, fun _ => whole, eof, count, total, closed⟩

/-- `io.Copy` goes on with a chunk. -/
theorem Flow.Delivers.goesOn {sent chunk : List UInt8} (f : Flow)
    (whole : f.written ++ (chunk ++ f.source) = sent) (count : f.count = f.written.length)
    (total : f.total = 0) (closed : f.writeClosed → false) :
    { f with phase := if chunk = [] then .reading else .writing chunk }.Delivers sent := by
  by_cases h : chunk = []
  · subst h
    exact .of_whole whole nofun count total closed
  · simp only [h, if_false]
    exact .of_whole whole nofun count total closed

theorem FlowStep.delivers {sent : List UInt8} {f f' : Flow} (hstep : FlowStep f f')
    (h : f.Delivers sent) : f'.Delivers sent := by
  obtain ⟨horder, hwhole, heof, hcount, htotal, hclosed⟩ := h
  cases hstep with
  | stay => exact ⟨horder, hwhole, heof, hcount, htotal, hclosed⟩
  | begin hp | readEnds why hp hend =>
    rw [hp] at hwhole htotal hclosed
    refine .of_whole (hwhole (.inl rfl)) ?_ hcount htotal hclosed
    simp_all [CopyPhase.ended]
  | read chunk rest hp hsource =>
    rw [hp] at hwhole htotal hclosed
    exact .goesOn { f with source := rest } (hsource ▸ hwhole (.inl rfl)) hcount htotal hclosed
  | write chunk k hp =>
    rw [hp] at hwhole htotal hclosed
    refine .goesOn { f with
      written := f.written ++ chunk.take k, count := f.count + (chunk.take k).length } ?_ ?_
      htotal hclosed
    · rw [List.append_assoc, ← List.append_assoc (chunk.take k), List.take_append_drop]
      exact hwhole (.inl rfl)
    · rw [List.length_append, hcount]
  | writeEnds chunk why hp hwhy =>
    rw [hp] at horder htotal hclosed
    refine ⟨?_, ?_, ?_, hcount, htotal, hclosed⟩
    · exact (List.append_nil f.written).symm ▸ (List.prefix_append _ _).trans horder
    all_goals simp [CopyPhase.ended, hwhy]
  | finish why wc hp =>
    rw [hp] at horder hwhole heof htotal
    exact ⟨horder, hwhole, heof, hcount, by rw [htotal]; exact Nat.zero_add _, fun _ => rfl⟩

/-- In every run of a relay, whatever the order of the calls of its goroutines, each party
    has got the beginning of what the other one sent, in order and without gaps, and all of
    it once the direction has ended with the end of the stream. The reported totals are the
    bytes that were delivered, and the write side of a connection is closed only after the
    last of them. -/
theorem relay_delivers (idleTimeout : Duration) (client backend : NetConn)
    (hfresh : ∀ p, ((startRelay client backend).conns p).sock.written = [] ∧
      ((startRelay client backend).conns p).sock.writeClosed = false)
    (run : List RelayAction) (dst : Party) :
    let s := run.foldl (step idleTimeout) (startRelay client backend)
    let sent := ((startRelay client backend).conns dst.other).unread
    let got := (s.conns dst).sock.written
    got <+: sent ∧ ((s.phase dst).ended = some .eof → got = sent) ∧
      s.total dst = (if (s.phase dst).isFinished then got.length else 0) ∧
      ((s.conns dst).sock.writeClosed → (s.phase dst).isFinished) := by
  intro s sent got
  have hstart : ((startRelay client backend).flow dst).Delivers sent := by
    obtain ⟨hwritten, hclosed⟩ := hfresh dst
    refine .of_whole (congrArg (· ++ sent) hwritten) nofun ?_ rfl fun h => ?_
    · exact (congrArg List.length hwritten).symm
    · exact absurd h (by simp [flow, hclosed])
  have h : (s.flow dst).Delivers sent :=
    List.foldlRecOn (motive := fun t => (flow t dst).Delivers sent) run _ hstart
      fun t ht a _ => (step_flow idleTimeout t a dst).delivers ht
  refine ⟨(List.prefix_append _ _).trans h.order, fun heof => ?_, h.count ▸ h.total, h.closed⟩
  have hnone : (s.phase dst).inFlight = [] := by
    cases hp : s.phase dst with
    | writing chunk =>
      rw [hp] at heof
      exact nomatch heof
    | _ => rfl
  calc got = got ++ ((s.phase dst).inFlight ++ (s.flow dst).source) := by
        rw [hnone, h.eof heof, List.append_nil, List.append_nil]
    _ = sent := h.whole (.inr heof)

/-- The client's byte arrives, and its direction has ended. -/
theorem relay_delivers_short :
    let s := shortRelay.foldl (step 300) (startRelay (freshConn [1]) (freshConn [2]))
    (s.conns .backend).sock.written = [1] ∧ s.total .backend = 1 := by
  have h := relay_delivers 300 (freshConn [1]) (freshConn [2])
    (fun p => by cases p <;> exact ⟨rfl, rfl⟩) shortRelay .backend
  exact ⟨h.2.1 rfl, h.2.2.1⟩

end RelayState

end HootLb.L4
