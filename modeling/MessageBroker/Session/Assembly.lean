import MessageBroker.Performative.Basic

/-!
# Assemblies

A delivery may arrive in several transfers.  Its assembly gathers their payloads until the last
one has come, or only waits for that if the delivery was refused meanwhile.
-/

namespace MessageBroker

/-- A delivery whose first transfer has arrived. -/
structure Assembly where
  /-- The number of the delivery. -/
  id : UInt32
  /-- The tag of the delivery. -/
  tag : Bytes
  /-- Whether the sender has settled the delivery. -/
  settled : Bool
  /-- How the receiver is to settle the delivery. -/
  settleMode : ReceiverSettleMode
  /-- The state that the sender told last. -/
  state : Option DeliveryState
  /-- The payloads gathered, in order. -/
  chunks : List Bytes
  /-- The number of octets that have been gathered. -/
  size : Nat
  /-- Whether payloads are dropped. -/
  discarding : Bool
  deriving DecidableEq, Repr

namespace Assembly

/-- An assembly that has gathered nothing. -/
def start (id : UInt32) (tag : Bytes) (settled : Bool) (settleMode : ReceiverSettleMode)
    (state : Option DeliveryState) : Assembly :=
  { id, tag, settled, settleMode, state, chunks := [], size := 0, discarding := false }

/-- What a further transfer of the delivery tells about it. -/
def resume (assembly : Assembly) (transfer : Transfer) : Assembly :=
  { assembly with
    settled := assembly.settled || transfer.settled = some true
    state := transfer.state.or assembly.state }

/-- Gathers a payload. -/
def push (assembly : Assembly) (payload : Bytes) : Assembly :=
  if assembly.discarding || payload.isEmpty then assembly
  else
    { assembly with
      chunks := assembly.chunks ++ [payload]
      size := assembly.size + payload.length }

/-- Drops what was gathered and what is to come. -/
def discard (assembly : Assembly) : Assembly :=
  { assembly with chunks := [], discarding := true }

/-- The message. -/
def payload (assembly : Assembly) : Bytes :=
  assembly.chunks.flatten

end Assembly

end MessageBroker
