import MessageBroker.Config.Basic
import MessageBroker.Performative.Encoding
import MessageBroker.Session.Endpoint
import MessageBroker.Session.Settlement
import MessageBroker.Transaction.Ledger

/-!
# Sessions

A session carries the links between the broker and one peer.  It bounds the transfers in either
direction by windows, keeps account of the deliveries that are not settled and of the transactions
that are open, and gathers what is to be sent to the peer.  Transfers, deliveries and link credit
are counted independently of each other.
-/

namespace MessageBroker

/-- The limits of a session. -/
structure SessionLimits where
  /-- How many transfers the session accepts at a time. -/
  incomingWindow : UInt32
  /-- How many deliveries a link accepts at a time. -/
  linkCredit : UInt32
  /-- The size of the largest message that a link accepts; zero stands for any. -/
  maxMessageSize : UInt64
  /-- Whether durable messages are accepted. -/
  persistence : Bool
  /-- The size of the largest frame that the peer accepts. -/
  maxFrameSize : UInt32
  deriving DecidableEq, Repr

/-- The limits that a configuration sets, for a peer that accepts frames up to a size. -/
def BrokerConfig.sessionLimits (config : BrokerConfig) (maxFrameSize : UInt32) :
    SessionLimits where
  incomingWindow := config.incomingWindow
  linkCredit := config.linkCredit
  maxMessageSize := config.maxMessageSize
  persistence := config.persistence
  maxFrameSize

/-- A delivery that was sent and is not settled. -/
structure OutgoingDelivery where
  /-- The link that it was sent on. -/
  handle : UInt32
  /-- The queue of the message. -/
  queue : QueueId
  /-- The number of the message in its queue. -/
  entry : Nat
  deriving DecidableEq, Repr

/-- A performative to be sent, with its payload. -/
structure Outgoing where
  /-- The performative. -/
  performative : Performative
  /-- The payload, of a transfer. -/
  payload : Option Bytes

/-- A session. -/
structure Session where
  /-- The limits. -/
  limits : SessionLimits
  /-- The number of the next transfer from the peer. -/
  nextIncomingId : UInt32
  /-- How many transfers the peer may send. -/
  incomingWindow : UInt32
  /-- The number of the next transfer to the peer. -/
  nextOutgoingId : UInt32
  /-- The number of the next delivery to the peer. -/
  nextDeliveryId : UInt32
  /-- How many transfers the peer accepts. -/
  remoteIncomingWindow : UInt32
  /-- How many transfers the peer has told it may send. -/
  remoteOutgoingWindow : UInt32
  /-- The ends of the links, by handle. -/
  endpoints : Table UInt32 Endpoint
  /-- The open transactions. -/
  transactions : Ledger
  /-- The deliveries that the peer has not settled, by number.  They outlive their links. -/
  outgoingUnsettled : Table UInt32 OutgoingDelivery
  /-- The links of the deliveries that are settled when the peer has settled them, by number. -/
  incomingUnsettled : Table UInt32 UInt32
  /-- What is to be told about deliveries from the peer before anything else is sent. -/
  settlements : List Settlement
  /-- What is to be sent, in order. -/
  outbox : List Outgoing

namespace Session

/-- The outgoing window that the broker tells: any number of transfers. -/
def outgoingWindow : UInt32 := 4294967295

/-- The session that the peer's begin proposes. -/
def ofBegin (terms : Begin) (limits : SessionLimits) : Session where
  limits
  nextIncomingId := terms.nextOutgoingId
  incomingWindow := limits.incomingWindow
  nextOutgoingId := 0
  nextDeliveryId := 0
  remoteIncomingWindow := terms.incomingWindow
  remoteOutgoingWindow := terms.outgoingWindow
  endpoints := []
  transactions := .empty
  outgoingUnsettled := []
  incomingUnsettled := []
  settlements := []
  outbox := []

/-- The begin that answers the peer's. -/
def localBegin (session : Session) (remoteChannel : UInt16) : Begin where
  remoteChannel := some remoteChannel
  nextOutgoingId := session.nextOutgoingId
  incomingWindow := session.incomingWindow
  outgoingWindow
  handleMax := none

/-- The link with a handle. -/
def link? (session : Session) (handle : UInt32) : Option Link :=
  (session.endpoints.get? handle).map (·.link)

/-! ### Endpoints and settlements -/

/-- Puts an endpoint in place of the one there was under its handle. -/
def putEndpoint (session : Session) (handle : UInt32) (endpoint : Endpoint) : Session :=
  { session with endpoints := session.endpoints.put handle endpoint }

/-- Settles a delivery of a link. -/
def settle (session : Session) (handle id : UInt32) : Session :=
  { session with endpoints := session.endpoints.update handle (·.settle id) }

/-- Tells the peer about a delivery. -/
def tell (session : Session) (settlement : Settlement) : Session :=
  { session with settlements := session.settlements ++ [settlement] }

/-! ### Output -/

/-- Turns the settlements into dispositions to be sent. -/
def flush (session : Session) : Session :=
  { session with
    settlements := []
    outbox := session.outbox ++
      (Settlement.coalesce .receiver session.settlements).map fun disposition =>
        ⟨.disposition disposition, none⟩ }

/-- Sends a performative, after the settlements. -/
def emit (session : Session) (performative : Performative) (payload : Option Bytes) : Session :=
  let session := session.flush
  { session with outbox := session.outbox ++ [⟨performative, payload⟩] }

/-- Takes what is to be sent. -/
def takeOutput (session : Session) : List Outgoing × Session :=
  let session := session.flush
  (session.outbox, { session with outbox := [] })

/-! ### Flows -/

/-- The flow that tells the windows. -/
def sessionFlow (session : Session) : Flow where
  nextIncomingId := some session.nextIncomingId
  incomingWindow := session.incomingWindow
  nextOutgoingId := session.nextOutgoingId
  outgoingWindow
  handle := none
  deliveryCount := none
  linkCredit := none
  available := none
  drain := false
  echo := false

/-- The flow that tells the windows and the credit of a link. -/
def linkFlow (session : Session) (store : QueueStore) (handle : UInt32) (endpoint : Endpoint) :
    Flow :=
  let credit := endpoint.link.credit
  { session.sessionFlow with
    handle := some handle
    deliveryCount := some credit.deliveryCount
    linkCredit := some credit.credit
    available := endpoint.kind.waiting store
    drain := endpoint.kind.isSending && credit.drain }

/-- Sends the flow that tells the windows. -/
def emitSessionFlow (session : Session) : Session :=
  session.emit (.flow session.sessionFlow) none

/-- Sends the flow that tells the windows and the credit of a link, if there is such a link. -/
def emitLinkFlow (session : Session) (store : QueueStore) (handle : UInt32) : Session :=
  match session.endpoints.get? handle with
  | some endpoint => session.emit (.flow (session.linkFlow store handle endpoint)) none
  | none => session

end Session

/-! ### Sessions at work -/

/-- A session and the queues of its broker, on which it works. -/
structure Serving where
  /-- The session. -/
  session : Session
  /-- The queues. -/
  store : QueueStore

/-- An operation of a session on the queues of its broker.  What it did before a fault stays
done. -/
abbrev Operation :=
  EStateM Fault Serving

namespace Serving

/-- Changes the session alone. -/
def onSession (s : Serving) (change : Session → Session) : Serving :=
  { s with session := change s.session }

/-- Changes the queues alone. -/
def onStore (s : Serving) (change : QueueStore → QueueStore) : Serving :=
  { s with store := change s.store }

end Serving

namespace Operation

/-- Changes the session alone. -/
def onSession (change : Session → Session) : Operation Unit :=
  modify (·.onSession change)

/-- Changes the queues alone. -/
def onStore (change : QueueStore → QueueStore) : Operation Unit :=
  modify (·.onStore change)

end Operation

end MessageBroker
