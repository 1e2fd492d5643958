import HootLb.ForStd.BigEndian
import HootLb.ForStd.Reader
import HootLb.Native.ClientHello

/-!
# Bytes of a passthrough connection

`readClientHello` of `internal/proxy/l4/clienthello.go` takes the first TLS record off
a connection, and `bufferedConn` of `internal/proxy/l4/tls_passthrough.go` puts it in
front of what the connection delivers afterwards. A connection is any reader of bytes;
its errors are given by their texts where they end up in a message.
-/

namespace HootLb.L4

/-- What `readClientHello` returns, and the connection afterwards. -/
structure HelloRead (σ : Type) where
  buf : List UInt8
  err : Option Message
  conn : σ

/-- Size of the buffers that the payload is read with. -/
def payloadChunkSize := 4096

/-- `readClientHello`, in at most `fuel` rounds of either loop. -/
def readClientHello {σ : Type} (read : Reader σ UInt8 String) (fuel : Nat) (conn : σ) :
    Option (HelloRead σ) :=
  (read.fill tlsRecordHeaderSize 1 fuel [] conn).bind fun header =>
    match header.failed with
    -- a byte that comes together with an error is dropped
    | some (_, err) =>
      some
        { buf := header.got
          err := some { format := "reading TLS record header: %w", args := [.str err] }
          conn := header.state }
    | none =>
      -- there are five bytes now, so that `buf[3:5]` is in range
      let recordLen := BigEndian.value ((header.got.take 5).drop 3)
      if recordLen > maxClientHelloSize then
        some
          { buf := header.got
            err := some
              { format := "TLS record too large (%d bytes, max %d)"
                args := [.int recordLen, .int maxClientHelloSize] }
            conn := header.state }
      else
        let needed := tlsRecordHeaderSize + recordLen
        (read.fill needed payloadChunkSize fuel header.got header.state).map fun payload =>
          match payload.failed with
          -- here it is kept
          | some (chunk, err) =>
            { buf := payload.got ++ chunk
              err := some { format := "reading TLS record payload: %w", args := [.str err] }
              conn := payload.state }
          | none => { buf := payload.got, err := none, conn := payload.state }

/-- `bufferedConn`. -/
structure BufferedConn (σ : Type) where
  conn : σ
  remaining : List UInt8

/-- `bufferedConn.Read`. -/
def BufferedConn.read {σ ε : Type} (read : Reader σ UInt8 ε) : Reader (BufferedConn σ) UInt8 ε :=
  fun bc n =>
    if bc.remaining.length > 0 then
      ((bc.remaining.take n, none), { bc with remaining := bc.remaining.drop n })
    else
      let (result, conn) := read bc.conn n
      (result, { bc with conn })

end HootLb.L4
