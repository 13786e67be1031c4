import MessageBroker.Fault.Scope
import MessageBroker.Octets

/-!
# Frame headers

A frame begins with eight octets: its size, the place of its body in words of four octets, its
kind and its channel.  What stands between the header and the body is passed over.
-/

namespace MessageBroker

/-- The first octets that both peers send. -/
def protocolHeader : Bytes :=
  [0x41, 0x4d, 0x51, 0x50, 0x00, 0x01, 0x00, 0x00]

/-- No peer may limit frames to fewer octets. -/
def leastMaxFrameSize : UInt32 := 512

/-- The limit on frames that a broker sets unless told otherwise. -/
def defaultMaxFrameSize : UInt32 := 65536

/-- The header of a frame. -/
structure FrameHeader where
  /-- The number of octets of the frame, header included. -/
  size : UInt32
  /-- The place of the body, in words of four octets. -/
  dataOffset : UInt8
  /-- The kind of the frame. -/
  kind : UInt8
  /-- The channel of the frame. -/
  channel : UInt16
  deriving DecidableEq, Repr

namespace FrameHeader

/-- The number of octets of a header. -/
def length : Nat := 8

/-- The least place of a body: just after the header. -/
def leastDataOffset : UInt8 := 2

/-- The header of a frame with a body of `bodySize` octets just after it. -/
def forBody (channel : UInt16) (bodySize : Nat) : FrameHeader :=
  ⟨.ofNat (length + bodySize), leastDataOffset, 0, channel⟩

/-- The octets of a header. -/
def encode (header : FrameHeader) : Bytes :=
  bigEndian 4 header.size.toNat ++ [header.dataOffset, header.kind] ++
    bigEndian 2 header.channel.toNat

/-- The header at the front of a byte string; none if it is too short. -/
def decode? : Bytes → Option FrameHeader
  | a :: b :: c :: d :: dataOffset :: kind :: e :: f :: _ =>
    some ⟨.ofNat (ofBigEndian [a, b, c, d]), dataOffset, kind, .ofNat (ofBigEndian [e, f])⟩
  | _ => none

/-- The place of the body, in octets. -/
def bodyOffset (header : FrameHeader) : Nat :=
  header.dataOffset.toNat * 4

/-- The number of octets of the body. -/
def bodySize (header : FrameHeader) : Nat :=
  header.size.toNat - header.bodyOffset

/-- Fails unless a header is that of a frame of at most `maxFrameSize` octets. -/
def validate (header : FrameHeader) (maxFrameSize : UInt32) : Except Fault Unit :=
  if header.dataOffset < leastDataOffset then
    .error (.onConnection .framingError
      s!"DOFF {header.dataOffset} is below minimum {leastDataOffset}")
  else if header.size.toNat < header.bodyOffset then
    .error (.onConnection .framingError
      s!"Frame size {header.size} is smaller than data offset {header.bodyOffset}")
  else if header.size > maxFrameSize then
    .error (.onConnection .framingError
      s!"Frame size {header.size} exceeds maximum {maxFrameSize}")
  else if header.kind ≠ 0 then
    .error (.onConnection .framingError
      ("Unsupported frame type " ++ hexNumber 2 header.kind.toNat))
  else .ok ()

end FrameHeader

end MessageBroker
