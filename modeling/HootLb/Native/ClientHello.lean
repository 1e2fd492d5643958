import HootLb.Native.Config
import HootLb.Native.GoString

/-!
# Reading the server name of a ClientHello

`ParseSNI` of `internal/proxy/l4/clienthello.go`. Every index and slice expression
is a checked access: one that is out of range ends the call with a panic. Slices are
checked against their length, not against their capacity.
-/

namespace HootLb.L4

/-- How a call ends that returns no result. -/
inductive Abort where
  | error (msg : Message)
  | panic
  deriving DecidableEq

abbrev Parse (α : Type) := Except Abort α

/-- Return an error. -/
def fail {α : Type} (msg : Message) : Parse α := .error (.error msg)

/-- `b[i]`. -/
def index (b : List UInt8) (i : Nat) : Parse UInt8 :=
  match b[i]? with
  | some x => .ok x
  | none => .error .panic

/-- `b[lo:hi]`. -/
def slice (b : List UInt8) (lo hi : Nat) : Parse (List UInt8) :=
  if lo ≤ hi ∧ hi ≤ b.length then .ok ((b.take hi).drop lo) else .error .panic

/-- `binary.BigEndian.Uint16`, as an `int`. -/
def uint16 (b : List UInt8) : Parse Nat := do
  let lo ← index b 1
  let hi ← index b 0
  return 256 * hi.toNat + lo.toNat

def maxClientHelloSize := 16 * 1024
def tlsRecordHeaderSize := 5
def tlsContentTypeHandshake := 22
def tlsHandshakeClientHello := 1
def sniExtensionType := 0

/-! ## Record and handshake header -/

/-- The record header, up to `payload`. -/
def recordPayload (data : List UInt8) : Parse (List UInt8) :=
  if data.length < tlsRecordHeaderSize then fail (.text "TLS record header too short")
  else do
    let contentType ← index data 0
    if contentType.toNat ≠ tlsContentTypeHandshake then
      fail
        { format := "unexpected TLS content type %d, expected %d (handshake)"
          args := [.int contentType.toNat, .int tlsContentTypeHandshake] }
    else do
      let recordLen ← uint16 (← slice data 3 5)
      if recordLen < 4 then
        fail { format := "TLS record payload too short (%d bytes)", args := [.int recordLen] }
      else if recordLen > maxClientHelloSize then
        fail
          { format := "TLS record payload exceeds maximum (%d > %d)"
            args := [.int recordLen, .int maxClientHelloSize] }
      else
        let totalLen := tlsRecordHeaderSize + recordLen
        if data.length < totalLen then
          fail
            { format := "TLS record claims %d bytes but only %d available"
              args := [.int recordLen, .int (data.length - tlsRecordHeaderSize)] }
        else slice data tlsRecordHeaderSize totalLen

/-- The handshake header, up to `hs`. -/
def clientHelloBody (payload : List UInt8) : Parse (List UInt8) :=
  if payload.length < 4 then fail (.text "handshake header too short")
  else do
    let hsType ← index payload 0
    if hsType.toNat ≠ tlsHandshakeClientHello then
      fail
        { format := "expected ClientHello (type %d), got type %d"
          args := [.int tlsHandshakeClientHello, .int hsType.toNat] }
    else do
      let b1 ← index payload 1
      let b2 ← index payload 2
      let b3 ← index payload 3
      let hsLen := 256 * (256 * b1.toNat + b2.toNat) + b3.toNat
      if hsLen < 34 then
        fail
          { format := "ClientHello handshake length too short (%d bytes)", args := [.int hsLen] }
      else if hsLen > payload.length - 4 then
        fail
          { format := "ClientHello handshake claims %d bytes but only %d available in record"
            args := [.int hsLen, .int (payload.length - 4)] }
      else slice payload 4 (4 + hsLen)

/-! ## Counted fields -/

/-- Skip a field with one byte of length; the errors name what is cut off. -/
def skip8 (hs : List UInt8) (off : Nat) (atLength inField : String) : Parse Nat :=
  if off ≥ hs.length then fail (.text atLength)
  else do
    let n ← index hs off
    let off := off + 1
    if off + n.toNat > hs.length then fail (.text inField) else .ok (off + n.toNat)

def skipSessionID (hs : List UInt8) (off : Nat) : Parse Nat :=
  skip8 hs off "ClientHello truncated at session ID length" "ClientHello truncated in session ID"

def skipCompressionMethods (hs : List UInt8) (off : Nat) : Parse Nat :=
  skip8 hs off "ClientHello truncated at compression methods length"
    "ClientHello truncated in compression methods"

/-- The cipher suites have two bytes of length. -/
def skipCipherSuites (hs : List UInt8) (off : Nat) : Parse Nat :=
  if off + 2 > hs.length then fail (.text "ClientHello truncated at cipher suites length")
  else do
    let cipherLen ← uint16 (← slice hs off (off + 2))
    let off := off + 2
    if off + cipherLen > hs.length then fail (.text "ClientHello truncated in cipher suites")
    else .ok (off + cipherLen)

/-! ## Extensions -/

/-- The loop of `parseSNIExtension`. -/
def findHostName (data : List UInt8) (off listEnd : Nat) : Parse GoString :=
  if off + 3 ≤ listEnd then do
    let nameType ← index data off
    let nameLen ← uint16 (← slice data (off + 1) (off + 3))
    let start := off + 3
    if start + nameLen > listEnd then
      fail (.text "SNI hostname extends beyond list boundary")
    else if nameType.toNat = 0 then do
      let name ← slice data start (start + nameLen)
      if name.length = 0 then fail (.text "SNI hostname is empty") else .ok name
    else findHostName data (start + nameLen) listEnd
  else fail (.text "SNI extension has no hostname entry")
termination_by listEnd - off

def parseSNIExtension (data : List UInt8) : Parse GoString :=
  if data.length < 2 then fail (.text "SNI extension too short for list length")
  else do
    let listLen ← uint16 (← slice data 0 2)
    if listLen > data.length - 2 then fail (.text "SNI extension list length exceeds data")
    else findHostName data 2 (2 + listLen)

/-- `fmt.Errorf("parsing SNI extension: %w", err)`. -/
def wrapSNIError : Abort → Abort
  | .error msg => .error { msg with format := "parsing SNI extension: " ++ msg.format }
  | .panic => .panic

/-- The loop of `ParseSNI` over the extensions. -/
def findServerName (hs : List UInt8) (off extEnd : Nat) : Parse GoString :=
  if off + 4 ≤ extEnd then do
    let extType ← uint16 (← slice hs off (off + 2))
    let extDataLen ← uint16 (← slice hs (off + 2) (off + 4))
    let start := off + 4
    if start + extDataLen > extEnd then
      fail (.text "extension data exceeds extensions boundary")
    else if extType = sniExtensionType then do
      let ext ← slice hs start (start + extDataLen)
      (parseSNIExtension ext).mapError wrapSNIError
    else findServerName hs (start + extDataLen) extEnd
  else .ok []
termination_by extEnd - off

/-- `ParseSNI`. -/
def parseSNI (data : List UInt8) : Parse GoString := do
  let payload ← recordPayload data
  let hs ← clientHelloBody payload
  if hs.length < 34 then fail (.text "ClientHello too short for version + random")
  else do
    let off ← skipSessionID hs 34
    let off ← skipCipherSuites hs off
    let off ← skipCompressionMethods hs off
    -- no extensions
    if off + 2 > hs.length then .ok []
    else do
      let extLen ← uint16 (← slice hs off (off + 2))
      let off := off + 2
      if off + extLen > hs.length then fail (.text "ClientHello truncated in extensions")
      else findServerName hs off (off + extLen)

end HootLb.L4
