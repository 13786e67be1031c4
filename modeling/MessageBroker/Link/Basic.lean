import MessageBroker.Link.Credit
import MessageBroker.Link.Unsettled
import MessageBroker.Performative.Basic

/-!
# Links

A link carries messages one way between two ends.  It is attached when both ends have sent an
attach, and detached when both have sent a detach; either may be the first to do so.
-/

namespace MessageBroker

/-- How far a link has come. -/
inductive LinkState where
  /-- No end has sent an attach. -/
  | unattached
  /-- One end has sent an attach. -/
  | attaching
  /-- Both ends have sent an attach. -/
  | attached
  /-- One end has sent a detach. -/
  | detaching
  /-- Both ends have sent a detach. -/
  | detached
  deriving DecidableEq, Repr

/-- The name of a state. -/
def LinkState.name : LinkState → String
  | .unattached => "Unattached"
  | .attaching => "Attaching"
  | .attached => "Attached"
  | .detaching => "Detaching"
  | .detached => "Detached"

/-- A link, as one of its ends sees it. -/
structure Link where
  /-- The name. -/
  name : String
  /-- The number of the link in its session. -/
  handle : UInt32
  /-- The end that sees it. -/
  role : Role
  /-- Whether this end has sent an attach. -/
  attachSent : Bool
  /-- Whether the other end has sent an attach. -/
  attachReceived : Bool
  /-- Whether this end has sent a detach. -/
  detachSent : Bool
  /-- Whether the other end has sent a detach. -/
  detachReceived : Bool
  /-- How the sender settles. -/
  sndSettleMode : SenderSettleMode
  /-- How the receiver settles. -/
  rcvSettleMode : ReceiverSettleMode
  /-- Where messages come from. -/
  source : Option Source
  /-- Where messages go to. -/
  target : Option Target
  /-- The size of the largest message that this end accepts; zero stands for any. -/
  maxMessageSize : UInt64
  /-- The size of the largest message that the other end accepts; zero stands for any. -/
  remoteMaxMessageSize : UInt64
  /-- The credit. -/
  credit : LinkCredit
  /-- The deliveries that are not settled. -/
  unsettled : Unsettled

namespace Link

/-- A link that no end has attached. -/
def new (name : String) (handle : UInt32) (role : Role) : Link where
  name
  handle
  role
  attachSent := false
  attachReceived := false
  detachSent := false
  detachReceived := false
  sndSettleMode := .mixed
  rcvSettleMode := .first
  source := none
  target := none
  maxMessageSize := 0
  remoteMaxMessageSize := 0
  credit := .start 0
  unsettled := .empty

/-- The link that the other end's attach proposes, on its terms. -/
def ofAttach (attach : Attach) (maxMessageSize : UInt64) : Link :=
  { new attach.name attach.handle attach.role.opposite with
    attachReceived := true
    sndSettleMode := attach.sndSettleMode
    rcvSettleMode := attach.rcvSettleMode
    source := attach.source
    target := attach.target
    maxMessageSize
    remoteMaxMessageSize := attach.maxMessageSize.getD 0
    credit := .start (attach.initialDeliveryCount.getD 0) }

/-! ### Views -/

/-- How far the link has come. -/
def state (link : Link) : LinkState :=
  if link.detachSent && link.detachReceived then .detached
  else if link.detachSent || link.detachReceived then .detaching
  else if link.attachSent && link.attachReceived then .attached
  else if link.attachSent || link.attachReceived then .attaching
  else .unattached

/-- Whether messages can be carried. -/
def isAttached (link : Link) : Bool :=
  link.state = .attached

/-- Whether the link is no more. -/
def isDetached (link : Link) : Bool :=
  link.state = .detached

/-- Fails unless messages can be carried. -/
def ensureAttached (link : Link) : Except Fault Unit :=
  if link.isAttached then .ok ()
  else .error (.onLink link.handle .illegalState s!"link '{link.name}' is {link.state.name}")

/-- Whether a message of this size is larger than this end accepts. -/
def exceedsMaxMessageSize (link : Link) (size : Nat) : Bool :=
  link.maxMessageSize ≠ 0 ∧ link.maxMessageSize.toNat < size

/-- Whether the source lets deliveries be rejected. -/
def supportsRejected (link : Link) : Bool :=
  link.source.any Source.supportsRejected

/-- Whether messages are copied and stay where they are. -/
def isBrowser (link : Link) : Bool :=
  link.source.any Source.isBrowser

/-- How a delivery is settled that asks for a mode: the receiver of a link on which it settles
first cannot settle second. -/
def settleMode (link : Link) (requested : Option ReceiverSettleMode) :
    Except ErrorReport ReceiverSettleMode :=
  match requested, link.rcvSettleMode with
  | none, mode => .ok mode
  | some .second, .first =>
    .error (.of .invalidField
      ("transfer rcv-settle-mode second is not allowed on a link with " ++
        "rcv-settle-mode first"))
  | some mode, _ => .ok mode

/-! ### Operations -/

/-- Sends an attach. -/
def sendAttach (link : Link) : Attach × Link :=
  ({ name := link.name
     handle := link.handle
     role := link.role
     sndSettleMode := link.sndSettleMode
     rcvSettleMode := link.rcvSettleMode
     source := link.source
     target := link.target
     initialDeliveryCount :=
       match link.role with
       | .sender => some link.credit.deliveryCount
       | .receiver => none
     maxMessageSize := if link.maxMessageSize = 0 then none else some link.maxMessageSize },
    { link with attachSent := true })

/-- Sends a detach that gives the link up for good. -/
def sendDetach (link : Link) (error : Option ErrorReport) : Detach × Link :=
  (⟨link.handle, true, error⟩, { link with detachSent := true })

/-- Receives a detach. -/
def receiveDetach (link : Link) : Link :=
  { link with detachReceived := true }

/-- Settles a delivery. -/
def settle (link : Link) (id : UInt32) : Link :=
  { link with unsettled := (link.unsettled.settle id).2 }

end Link

end MessageBroker
