import MessageBroker.Frame.Basic

/-!
# Frame buffers

A frame buffer takes octets as they arrive and gives out frames as they become complete.  It
checks a header as soon as it has arrived and keeps the rest of the octets until the frame is
complete.
-/

namespace MessageBroker

/-- Octets on their way to become frames. -/
structure FrameBuffer where
  /-- The header of the frame that is arriving, if its header has arrived. -/
  arriving : Option FrameHeader
  /-- The octets that have arrived and belong to no frame yet. -/
  octets : Bytes
  /-- The number of octets of the largest frame that is accepted. -/
  maxFrameSize : UInt32
  deriving DecidableEq, Repr

namespace FrameBuffer

/-- A frame buffer into which nothing has arrived. -/
def empty (maxFrameSize : UInt32) : FrameBuffer :=
  ⟨none, [], maxFrameSize⟩

/-- A frame buffer with nothing in it, and the same limit. -/
def clear (buffer : FrameBuffer) : FrameBuffer :=
  empty buffer.maxFrameSize

/-- A frame buffer with another limit. -/
def limit (buffer : FrameBuffer) (maxFrameSize : UInt32) : FrameBuffer :=
  { buffer with maxFrameSize }

/-- What a frame buffer gives out. -/
inductive Step where
  /-- A frame, and what is left. -/
  | frame (frame : Frame) (buffer : FrameBuffer)
  /-- Nothing before more octets arrive. -/
  | starved (buffer : FrameBuffer)
  /-- Nothing ever, because a header is not acceptable. -/
  | refused (fault : Fault) (buffer : FrameBuffer)

/-- Completes the frame that is arriving. -/
def complete (buffer : FrameBuffer) (header : FrameHeader) : Step :=
  let size := header.size.toNat - FrameHeader.length
  let octets := buffer.octets.take size
  if octets.length < size then .starved { buffer with arriving := some header }
  else
    .frame ⟨header, octets.drop (header.bodyOffset - FrameHeader.length)⟩
      { buffer with arriving := none, octets := buffer.octets.drop size }

/-- Gives out a frame if there is one. -/
def next (buffer : FrameBuffer) : Step :=
  match buffer.arriving with
  | some header => buffer.complete header
  | none =>
    match FrameHeader.decode? buffer.octets with
    | none => .starved buffer
    | some header =>
      match header.validate buffer.maxFrameSize with
      | .error fault => .refused fault buffer
      | .ok () =>
        { buffer with octets := buffer.octets.drop FrameHeader.length }.complete header

/-- Gives out all frames there are, at most `count`, after those in `done`, which are in
reverse. -/
def drainAfter (done : List Frame) : Nat → FrameBuffer → Except Fault (List Frame) × FrameBuffer
  | 0, buffer => (.ok done.reverse, buffer)
  | count + 1, buffer =>
    match buffer.next with
    | .frame frame buffer => drainAfter (frame :: done) count buffer
    | .starved buffer => (.ok done.reverse, buffer)
    | .refused fault buffer => (.error fault, buffer)

/-- Takes octets and gives out the frames that are complete now.  If a header is not acceptable,
the frames before it are given up.  Every frame takes at least one octet, so there are no more
frames than octets. -/
def push (buffer : FrameBuffer) (octets : Bytes) : Except Fault (List Frame) × FrameBuffer :=
  let buffer := { buffer with octets := buffer.octets ++ octets }
  drainAfter [] (buffer.octets.length + 1) buffer

end FrameBuffer

end MessageBroker
