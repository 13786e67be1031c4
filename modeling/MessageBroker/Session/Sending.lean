import MessageBroker.Frame.Codec
import MessageBroker.Session.Basic

/-!
# Deliveries to the peer

A sending link sends deliveries while the peer's window, the credit of the link and the messages
that wait allow it.  A delivery is cut into as many transfers as the peer's frame size asks for,
and all of them are sent once it has begun.
-/

namespace MessageBroker

/-! ### Transfers of one delivery -/

/-- A transfer that goes on with a delivery. -/
def Transfer.continuation (handle : UInt32) : Transfer where
  handle
  deliveryId := none
  deliveryTag := none
  messageFormat := none
  settled := none
  more := true
  rcvSettleMode := none
  state := none
  resume := false
  aborted := false
  batchable := false

/-- The transfer that begins a delivery.  Its tag is its number. -/
def Transfer.opening (handle id : UInt32) (settled : Bool) : Transfer :=
  { Transfer.continuation handle with
    deliveryId := some id
    deliveryTag := some (bigEndian 4 id.toNat)
    messageFormat := some 0
    settled := some settled }

namespace Session

/-- How many octets of a delivery fit in a transfer; at least one. -/
def chunkSize (maxFrameSize : UInt32) (opening : Transfer) : Nat :=
  max 1 (maxFrameSize.toNat - (Performative.transfer opening).frameSize)

/-- Sends a transfer. -/
def sendTransfer (session : Session) (transfer : Transfer) (payload : Bytes) : Session :=
  { session with
    nextOutgoingId := session.nextOutgoingId + 1
    remoteIncomingWindow :=
      if session.remoteIncomingWindow = 0 then 0 else session.remoteIncomingWindow - 1
  }.emit (.transfer transfer) (some payload)

/-- Sends the pieces of a delivery, the first by the given transfer. -/
def sendPieces (session : Session) (transfer : Transfer) : List Bytes → Session
  | [] => session
  | [piece] => session.sendTransfer { transfer with more := false } piece
  | piece :: pieces =>
    (session.sendTransfer { transfer with more := true } piece).sendPieces
      (.continuation transfer.handle) pieces

/-- Sends a delivery. -/
def sendDelivery (session : Session) (handle id : UInt32) (settled : Bool) (payload : Bytes) :
    Session :=
  let opening := Transfer.opening handle id settled
  session.sendPieces opening
    (slices (chunkSize session.limits.maxFrameSize opening) payload)

end Session

/-! ### Pumping -/

namespace Serving

/-- Sends a message that a link has chosen.  A message that is not copied is gone if the delivery
is settled as it is sent, and otherwise stays with the session until the delivery is settled. -/
def send (s : Serving) (handle : UInt32) (endpoint : Endpoint) (pick : Endpoint.Pick) : Serving :=
  let id := s.session.nextDeliveryId
  let link := endpoint.link
  let settled := link.sndSettleMode = .settled || pick.copied
  let endpoint :=
    { endpoint with kind := pick.kind, link := { link with credit := link.credit.spend } }
  let session :=
    { s.session.putEndpoint handle endpoint with
      nextDeliveryId := id + 1
      outgoingUnsettled :=
        if settled then s.session.outgoingUnsettled
        else s.session.outgoingUnsettled.put id ⟨handle, pick.queue, pick.entry.id⟩ }
  let store :=
    if settled && !pick.copied then (pick.store.acknowledge pick.queue pick.entry.id).2
    else pick.store
  ⟨session.sendDelivery handle id settled pick.entry.payload, store⟩

/-- Sends the next delivery of a link, if one may be sent. -/
def sendNext? (s : Serving) (handle : UInt32) : Option Serving :=
  if s.session.remoteIncomingWindow = 0 then none
  else
    match s.session.endpoints.get? handle with
    | none => none
    | some endpoint =>
      if endpoint.link.isAttached && endpoint.link.credit.maySend then
        (endpoint.pick? s.store).map (s.send handle endpoint)
      else none

/-- Sends deliveries of a link while one may be sent, at most so many. -/
def sendAtMost : Nat → UInt32 → Serving → Serving
  | 0, _, s => s
  | count + 1, handle, s =>
    match s.sendNext? handle with
    | some s => sendAtMost count handle s
    | none => s

/-- Gives back the credit that is left on a link, if the peer wants that. -/
def giveBackCredit (s : Serving) (handle : UInt32) : Serving :=
  match s.session.endpoints.get? handle with
  | none => s
  | some endpoint =>
    match endpoint.link.credit.giveBack with
    | (false, _) => s
    | (true, credit) =>
      s.onSession fun session =>
        (session.putEndpoint handle
          (endpoint.onLink fun link => { link with credit })).emitLinkFlow s.store handle

/-- The credit of a link. -/
def creditOf (s : Serving) (handle : UInt32) : UInt32 :=
  ((s.session.link? handle).map (·.credit.credit)).getD 0

/-- Sends deliveries of a link while one may be sent.  Every delivery takes one credit, so there
are no more deliveries than credit. -/
def pump (s : Serving) (handle : UInt32) : Serving :=
  (sendAtMost (s.creditOf handle).toNat handle s).giveBackCredit handle

/-- Sends deliveries of every sending link, in the order of their handles. -/
def pumpAll (s : Serving) : Serving :=
  let sending := s.session.endpoints.filter fun row => row.2.kind.isSending
  (Table.keys sending).foldl pump s

end Serving

end MessageBroker
