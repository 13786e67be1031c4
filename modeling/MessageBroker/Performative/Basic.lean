import MessageBroker.Delivery.Terminus

/-!
# Performatives

The nine kinds of frames by which peers open and close connections, sessions and links, and move
messages.  A field of `Option` type may be absent.
-/

namespace MessageBroker

/-! ### Roles and settle modes -/

/-- An end of a link, by what it does with messages. -/
inductive Role where
  | sender
  | receiver
  deriving DecidableEq, Repr

namespace Role

/-- The other end. -/
def opposite : Role → Role
  | .sender => .receiver
  | .receiver => .sender

/-- A role on the wire: whether it is the receiver. -/
def isReceiver : Role → Bool
  | .sender => false
  | .receiver => true

/-- The role that the wire tells. -/
def ofIsReceiver : Bool → Role
  | false => .sender
  | true => .receiver

end Role

/-- Whether a sender settles its deliveries as it sends them. -/
inductive SenderSettleMode where
  | unsettled
  | settled
  | mixed
  deriving DecidableEq, Repr

namespace SenderSettleMode

/-- The number of a mode on the wire. -/
def code : SenderSettleMode → UInt8
  | .unsettled => 0
  | .settled => 1
  | .mixed => 2

/-- The mode with a number. -/
def ofCode? : UInt8 → Option SenderSettleMode
  | 0 => some .unsettled
  | 1 => some .settled
  | 2 => some .mixed
  | _ => none

end SenderSettleMode

/-- Whether a receiver settles a delivery before or after its sender. -/
inductive ReceiverSettleMode where
  | first
  | second
  deriving DecidableEq, Repr

namespace ReceiverSettleMode

/-- The number of a mode on the wire. -/
def code : ReceiverSettleMode → UInt8
  | .first => 0
  | .second => 1

/-- The mode with a number. -/
def ofCode? : UInt8 → Option ReceiverSettleMode
  | 0 => some .first
  | 1 => some .second
  | _ => none

end ReceiverSettleMode

/-! ### Performatives -/

/-- Opens a connection. -/
structure Open where
  /-- The name of the peer. -/
  containerId : String
  /-- The name under which the other peer is addressed. -/
  hostname : Option String
  /-- The largest frame that the peer accepts. -/
  maxFrameSize : Option UInt32
  /-- The greatest channel number that the peer accepts. -/
  channelMax : Option UInt16
  /-- How long the peer waits for a frame, in milliseconds. -/
  idleTimeOut : Option UInt32

/-- Begins a session. -/
structure Begin where
  /-- The channel that is answered. -/
  remoteChannel : Option UInt16
  /-- The number of the next transfer that the peer sends. -/
  nextOutgoingId : UInt32
  /-- How many transfers the peer accepts. -/
  incomingWindow : UInt32
  /-- How many transfers the peer may send. -/
  outgoingWindow : UInt32
  /-- The greatest handle that the peer accepts. -/
  handleMax : Option UInt32

/-- Attaches a link. -/
structure Attach where
  /-- The name of the link. -/
  name : String
  /-- The number of the link in its session. -/
  handle : UInt32
  /-- The end of the link that the peer is. -/
  role : Role
  /-- How the sender settles. -/
  sndSettleMode : SenderSettleMode
  /-- How the receiver settles. -/
  rcvSettleMode : ReceiverSettleMode
  /-- Where messages come from. -/
  source : Option Source
  /-- Where messages go to. -/
  target : Option Target
  /-- The delivery count that the sender starts with. -/
  initialDeliveryCount : Option UInt32
  /-- The size of the largest message that the peer accepts. -/
  maxMessageSize : Option UInt64

/-- Tells the windows of a session, and the credit of a link. -/
structure Flow where
  /-- The number of the next transfer that the peer expects. -/
  nextIncomingId : Option UInt32
  /-- How many transfers the peer accepts. -/
  incomingWindow : UInt32
  /-- The number of the next transfer that the peer sends. -/
  nextOutgoingId : UInt32
  /-- How many transfers the peer may send. -/
  outgoingWindow : UInt32
  /-- The link that the fields below are about. -/
  handle : Option UInt32
  /-- How many deliveries the link has seen. -/
  deliveryCount : Option UInt32
  /-- How many more deliveries the receiver accepts. -/
  linkCredit : Option UInt32
  /-- How many deliveries the sender has waiting. -/
  available : Option UInt32
  /-- Whether the sender is to use up its credit or give it back. -/
  drain : Bool
  /-- Whether an answer is wanted. -/
  echo : Bool

/-- Carries a message, or a part of one. -/
structure Transfer where
  /-- The link. -/
  handle : UInt32
  /-- The number of the delivery. -/
  deliveryId : Option UInt32
  /-- The name of the delivery on its link. -/
  deliveryTag : Option Bytes
  /-- The format of the message. -/
  messageFormat : Option UInt32
  /-- Whether the sender has settled the delivery. -/
  settled : Option Bool
  /-- Whether further parts follow. -/
  more : Bool
  /-- How the receiver is to settle the delivery. -/
  rcvSettleMode : Option ReceiverSettleMode
  /-- The state of the delivery at its sender. -/
  state : Option DeliveryState
  /-- Whether the delivery is taken up again. -/
  resume : Bool
  /-- Whether the delivery is given up. -/
  aborted : Bool
  /-- Whether the answer may wait. -/
  batchable : Bool

/-- Tells the state of deliveries. -/
structure Disposition where
  /-- The end that the peer is of the links concerned. -/
  role : Role
  /-- The first delivery. -/
  first : UInt32
  /-- The last delivery; it is the first if absent. -/
  last : Option UInt32
  /-- Whether the peer has settled the deliveries. -/
  settled : Bool
  /-- The state of the deliveries at the peer. -/
  state : Option DeliveryState
  /-- Whether the answer may wait. -/
  batchable : Bool

/-- The last delivery of a disposition. -/
def Disposition.lastId (disposition : Disposition) : UInt32 :=
  disposition.last.getD disposition.first

/-- Detaches a link. -/
structure Detach where
  /-- The link. -/
  handle : UInt32
  /-- Whether the link is given up for good. -/
  closed : Bool
  /-- Why the link is detached. -/
  error : Option ErrorReport

/-- A frame's command. -/
inductive Performative where
  /-- Opens a connection. -/
  | openConnection (terms : Open)
  /-- Begins a session. -/
  | beginSession (terms : Begin)
  /-- Attaches a link. -/
  | attach (attach : Attach)
  /-- Tells windows and credit. -/
  | flow (flow : Flow)
  /-- Carries a message. -/
  | transfer (transfer : Transfer)
  /-- Tells the state of deliveries. -/
  | disposition (disposition : Disposition)
  /-- Detaches a link. -/
  | detach (detach : Detach)
  /-- Ends a session. -/
  | endSession (error : Option ErrorReport)
  /-- Closes a connection. -/
  | closeConnection (error : Option ErrorReport)

/-- The name of a performative. -/
def Performative.name : Performative → String
  | .openConnection _ => "open"
  | .beginSession _ => "begin"
  | .attach _ => "attach"
  | .flow _ => "flow"
  | .transfer _ => "transfer"
  | .disposition _ => "disposition"
  | .detach _ => "detach"
  | .endSession _ => "end"
  | .closeConnection _ => "close"

end MessageBroker
