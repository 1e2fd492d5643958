import HootLb.Native.Passthrough

/-!
# The ClientHello is replayed

The first record is taken off the stream of the client and put back in front of it.
Neither step depends on how the connection cuts the stream into reads, and together
they give the stream back.
-/

namespace HootLb.L4

variable {σ : Type}

/-- The length that the header of the first record announces. -/
def announcedLength (stream : List UInt8) : Nat := BigEndian.value ((stream.take 5).drop 3)

/-- What is to be read from a wrapped connection. -/
def BufferedConn.pending (pending : σ → List UInt8) (bc : BufferedConn σ) : List UInt8 :=
  bc.remaining ++ pending bc.conn

/-- A wrapped connection delivers the bytes it holds, then those of the connection. -/
theorem BufferedConn.read_delivers {ε : Type} {read : Reader σ UInt8 ε}
    {pending : σ → List UInt8} (h : read.Delivers pending) :
    (BufferedConn.read read).Delivers (BufferedConn.pending pending) := by
  intro bc n hn hne
  obtain ⟨conn, remaining⟩ := bc
  cases remaining with
  | nil =>
    obtain ⟨piece, conn', hread, hpiece, hfits, hsplit⟩ := h conn n hn hne
    refine ⟨piece, { conn := conn', remaining := [] }, ?_, hpiece, hfits, ?_⟩
    · simp [BufferedConn.read, hread]
    · simpa [BufferedConn.pending] using hsplit
  | cons b rest =>
    refine ⟨(b :: rest).take n, { conn, remaining := (b :: rest).drop n }, ?_, ?_, ?_, ?_⟩
    · simp [BufferedConn.read]
    · simp only [ne_eq, List.take_eq_nil_iff, not_or]
      exact ⟨by omega, by simp⟩
    · exact List.length_take_le _ _
    · simp only [BufferedConn.pending]
      rw [← List.append_assoc, List.take_append_drop]

/-- One record is read, and nothing after it. -/
theorem readClientHello_record {read : Reader σ UInt8 String} {pending : σ → List UInt8}
    (h : read.Delivers pending) (conn : σ) (stream : List UInt8) (hstream : pending conn = stream)
    (hmax : announcedLength stream ≤ maxClientHelloSize)
    (hlen : 5 + announcedLength stream ≤ stream.length) :
    ∃ conn', pending conn' = stream.drop (5 + announcedLength stream) ∧
      ∀ fuel, 5 + announcedLength stream < fuel → readClientHello read fuel conn =
        some
          { buf := stream.take (5 + announcedLength stream)
            err := none
            conn := conn' } := by
  obtain ⟨conn₁, hconn₁, hheader⟩ :=
    h.fill tlsRecordHeaderSize 1 Nat.one_pos [] conn
      (by rw [hstream, tlsRecordHeaderSize]; simp; omega)
  simp only [hstream, tlsRecordHeaderSize, List.length_nil, Nat.sub_zero, List.nil_append]
    at hconn₁ hheader
  have htake : (stream.take 5).length = 5 := List.length_take_of_le (by omega)
  obtain ⟨conn₂, hconn₂, hpayload⟩ :=
    h.fill (5 + announcedLength stream) payloadChunkSize (by decide) (stream.take 5) conn₁
      (by rw [hconn₁, htake, List.length_drop]; omega)
  simp only [hconn₁, htake, Nat.add_sub_cancel_left, List.drop_drop] at hconn₂ hpayload
  refine ⟨conn₂, hconn₂, ?_⟩
  intro fuel hfuel
  have hbytes : stream.take 5 ++ (stream.drop 5).take (announcedLength stream) =
      stream.take (5 + announcedLength stream) := (List.take_add ..).symm
  have hvalue : BigEndian.value (((stream.take 5).take 5).drop 3) = announcedLength stream := by
    rw [List.take_take, Nat.min_self, announcedLength]
  simp only [readClientHello, tlsRecordHeaderSize]
  rw [hheader fuel (by omega)]
  simp only [Option.bind_some]
  rw [hvalue, if_neg (by omega), hpayload fuel (by omega), hbytes]
  rfl

/-- For a client whose stream starts with a record of an allowed length, and however the
    connection cuts the stream, `readClientHello` returns that record and takes nothing
    else; what is then read from the wrapped connection is the stream from its start,
    with as many calls as it takes and whatever the sizes of their buffers. -/
theorem passthrough_replays (read : Reader σ UInt8 String) (pending : σ → List UInt8)
    (h : read.Delivers pending) (conn : σ) (stream : List UInt8) (hstream : pending conn = stream)
    (hmax : announcedLength stream ≤ maxClientHelloSize)
    (hlen : 5 + announcedLength stream ≤ stream.length) :
    ∃ conn',
      (∀ fuel, 5 + announcedLength stream < fuel → readClientHello read fuel conn =
        some
          { buf := stream.take (5 + announcedLength stream)
            err := none
            conn := conn' }) ∧
      pending conn' = stream.drop (5 + announcedLength stream) ∧
      ∀ wrapped : BufferedConn σ,
        wrapped = { conn := conn', remaining := stream.take (5 + announcedLength stream) } →
        ∀ sizes : Nat → Nat, (∀ i, 0 < sizes i) → ∃ k ≤ stream.length,
          (∃ bc, (BufferedConn.read read).readTimes k sizes wrapped = .ok (stream, bc)) ∧
          ∀ j ≤ k, ∃ got bc, (BufferedConn.read read).readTimes j sizes wrapped = .ok (got, bc) ∧
            j ≤ got.length ∧ stream = got ++ bc.pending pending := by
  obtain ⟨conn', hrest, hread⟩ := readClientHello_record h conn stream hstream hmax hlen
  refine ⟨conn', hread, hrest, ?_⟩
  rintro wrapped rfl sizes hsizes
  have hall : BufferedConn.pending pending
      { conn := conn', remaining := stream.take (5 + announcedLength stream) } = stream := by
    rw [BufferedConn.pending, hrest, List.take_append_drop]
  obtain ⟨k, hk, ⟨bc, hdone, -⟩, hpart⟩ :=
    (BufferedConn.read_delivers h).readTimes _ sizes hsizes
  rw [hall] at hk hdone
  rw [hall] at hpart
  exact ⟨k, hk, ⟨bc, hdone⟩, hpart⟩

/-- A connection that has these bytes and hands out at most two of them at a time. -/
def inPairs : Reader (List UInt8) UInt8 String := fun bytes n =>
  ((bytes.take (min n 2), none), bytes.drop (min n 2))

theorem inPairs_delivers : inPairs.Delivers id := by
  intro bytes n hn hne
  refine ⟨bytes.take (min n 2), bytes.drop (min n 2), rfl, ?_, ?_, ?_⟩
  · simp only [ne_eq, List.take_eq_nil_iff, not_or]
    exact ⟨by omega, hne⟩
  · rw [List.length_take]
    omega
  · simp

/-- A record of two bytes with one more byte after it. -/
theorem passthrough_replays_pairs :
    ∃ conn', readClientHello inPairs 8 [22, 3, 1, 0, 2, 7, 8, 9] =
        some { buf := [22, 3, 1, 0, 2, 7, 8], err := none, conn := conn' } ∧
      conn' = [9] ∧
      ∃ k ≤ 8, ∃ bc, (BufferedConn.read inPairs).readTimes k (fun _ => 3)
        { conn := conn', remaining := [22, 3, 1, 0, 2, 7, 8] } =
          .ok ([22, 3, 1, 0, 2, 7, 8, 9], bc) := by
  obtain ⟨conn', hread, hrest, hreplay⟩ :=
    passthrough_replays inPairs id inPairs_delivers [22, 3, 1, 0, 2, 7, 8, 9]
      [22, 3, 1, 0, 2, 7, 8, 9] rfl (by decide) (by decide)
  obtain ⟨k, hk, ⟨bc, hbc⟩, -⟩ := hreplay _ rfl (fun _ => 3) (fun _ => by decide)
  exact ⟨conn', hread 8 (by decide), hrest, k, hk, bc, hbc⟩

end HootLb.L4
