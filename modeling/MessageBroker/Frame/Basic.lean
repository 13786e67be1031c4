import MessageBroker.Frame.Header

/-!
# Frames

A frame is a header and a body.  A frame without a body is a heartbeat.
-/

namespace MessageBroker

/-- A frame. -/
structure Frame where
  /-- The header. -/
  header : FrameHeader
  /-- The octets from the place that the header gives. -/
  body : Bytes
  deriving DecidableEq, Repr

namespace Frame

/-- Whether a frame only shows that its sender is alive. -/
def isHeartbeat (frame : Frame) : Bool :=
  frame.body.isEmpty

/-- The octets of a frame with the given body. -/
def wire (channel : UInt16) (body : Bytes) : Bytes :=
  (FrameHeader.forBody channel body.length).encode ++ body

/-- The octets of a frame whose body is put together from parts: the header, and the parts that
are not empty. -/
def parts (channel : UInt16) (body : List Bytes) : List Bytes :=
  (FrameHeader.forBody channel body.flatten.length).encode ::
    body.filter fun part => !part.isEmpty

theorem flatten_filter_not_isEmpty (parts : List Bytes) :
  (parts.filter fun part => !part.isEmpty).flatten = parts.flatten
  := by
  induction parts with
  | nil => rfl
  | cons part others ih => cases part <;> simp [ih]

/-- The parts put together are the frame. -/
theorem flatten_parts (channel : UInt16) (body : List Bytes) :
  (parts channel body).flatten = wire channel body.flatten
  := by
  rw [parts, List.flatten_cons, flatten_filter_not_isEmpty, wire]

end Frame

end MessageBroker
