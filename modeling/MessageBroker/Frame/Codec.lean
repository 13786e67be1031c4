import MessageBroker.Frame.Basic
import MessageBroker.Performative.Decoding
import MessageBroker.Performative.Encoding

/-!
# Frames of performatives

The body of a frame is a performative, after which the payload of a transfer may follow.
-/

namespace MessageBroker

/-! ### Encoding -/

/-- The parts of the frame of a performative and its payload. -/
def encodeFrame (channel : UInt16) (p : Performative) (payload : Option Bytes) : List Bytes :=
  Frame.parts channel (p.encode :: payload.toList)

/-- The number of octets of the frame of a performative without payload. -/
def Performative.frameSize (p : Performative) : Nat :=
  FrameHeader.length + p.encode.length

/-! ### Decoding -/

/-- The performative and the payload in the body of a frame.  The body is complete, so that
octets are missing is a defect. -/
def decodeBody (body : Bytes) : Except DecodeError (Performative × Bytes) :=
  match Performative.catalogue.decode body with
  | .ok (p, size) => .ok (p, body.drop size)
  | .error (.insufficientData _) => .error (.malformed .truncatedPerformative)
  | .error error => .error error

/-- A frame and what is in it. -/
structure DecodedFrame where
  /-- The channel. -/
  channel : UInt16
  /-- The performative; a heartbeat has none. -/
  performative : Option Performative
  /-- The payload. -/
  payload : Bytes
  /-- The number of octets of the frame. -/
  size : Nat

/-- The frame at the front of a byte string. -/
def decodeFrame (bytes : Bytes) : Except DecodeError DecodedFrame := do
  match FrameHeader.decode? bytes with
  | none => throw (.insufficientData (FrameHeader.length - bytes.length))
  | some header =>
    let size := header.size.toNat
    if header.dataOffset < FrameHeader.leastDataOffset ∨ size < header.bodyOffset then
      throw (.malformed (.frameHeader size header.dataOffset.toNat))
    let octets := bytes.take size
    if octets.length < size then throw (.insufficientData (size - octets.length))
    let body := octets.drop header.bodyOffset
    if body.isEmpty then return ⟨header.channel, none, [], size⟩
    let (p, payload) ← decodeBody body
    return ⟨header.channel, some p, payload, size⟩

end MessageBroker
