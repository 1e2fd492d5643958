import HootLb.ForStd.BigEndian
import HootLb.ForStd.ByteStream

/-!
# WebSocket frames

`frameHeader` and `readFrame` of the dashboard: a frame is a byte with the opcode, a
byte with the mask bit and seven bits of length, two or eight more bytes of length
where seven bits are not enough, the mask key if there is one, and the payload.
-/

namespace HootLb.Dashboard

open StreamReader

/-! ## Writing -/

/-- `frameHeader`. -/
def frameHeader (opcode : UInt8) (length : Nat) (masked : Bool) : List UInt8 :=
  let first := 0x80 ||| opcode
  let mask (b : UInt8) := if masked then b ||| 0x80 else b
  if length ≤ 125 then [first, mask (UInt8.ofNat length)]
  else if length ≤ 0xFFFF then first :: mask 126 :: BigEndian.encode 2 length
  else first :: mask 127 :: BigEndian.encode 8 length

/-! ## Reading -/

def maxClientFrameLength : Nat := 1 <<< 16

/-- The `switch` over the seven bits of length. -/
def readLength (length : Nat) : StreamReader Nat :=
  if length = 126 then BigEndian.value <$> readFull 2
  else if length = 127 then BigEndian.value <$> readFull 8
  else pure length

/-- The loop that applies the mask key. -/
def applyMask (maskKey payload : List UInt8) : List UInt8 :=
  payload.mapIdx fun i b => b ^^^ maskKey.getD (i % 4) 0

/-- The part of `readFrame` behind the length. -/
def readPayload (masked : Bool) (length : Nat) : StreamReader (List UInt8) := do
  let maskKey ← (if masked then readFull 4 else pure [0, 0, 0, 0])
  let payload ← (if length > 0 then readFull length else pure [])
  pure (if masked then applyMask maskKey payload else payload)

/-- `readFrame`. -/
def readFrame : StreamReader (UInt8 × List UInt8) := do
  let head ← readFull 2
  let opcode := head.getD 0 0 &&& 0x0f
  let masked := head.getD 1 0 &&& 0x80 ≠ 0
  let length ← readLength (head.getD 1 0 &&& 0x7f).toNat
  if length > maxClientFrameLength then
    throw s!"client frame too large: {length} bytes"
  else
    let payload ← readPayload masked length
    pure (opcode, payload)

end HootLb.Dashboard
