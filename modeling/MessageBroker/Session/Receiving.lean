import MessageBroker.Message.Sections
import MessageBroker.Session.Basic
import MessageBroker.Transaction.Control

/-!
# Deliveries from the peer

Transfers are counted against the incoming window and gathered into deliveries.  A complete
delivery is put into its queue, recorded in its transaction or carried out as a transaction
control, and the peer is told.  Credit and window are topped up when half of them is used.
-/

namespace MessageBroker.Operation

/-! ### Answers -/

/-- Fails unless the result of a computation is there. -/
def ofExcept {α : Type} : Except Fault α → Operation α
  | .ok a => pure a
  | .error fault => throw fault

/-- Refuses a delivery: its outcome is rejected if its source lets deliveries be rejected and it
is not settled; otherwise its link is at fault. -/
def refuse (endpoint : Endpoint) (assembly : Assembly) (report : ErrorReport) :
    Operation Unit :=
  let link := endpoint.link
  if !link.supportsRejected || assembly.settled then throw (.link link.handle report)
  else
    onSession fun session =>
      (session.settle link.handle assembly.id).tell
        ⟨assembly.id, true, .rejected (some report)⟩

/-- Tells the outcome of a delivery that is not settled, and settles it unless the peer is to do
so first. -/
def answer (handle : UInt32) (assembly : Assembly) (outcome : DeliveryState) : Operation Unit :=
  onSession fun session =>
    if assembly.settled then session.settle handle assembly.id
    else
      match assembly.settleMode with
      | .first => (session.settle handle assembly.id).tell ⟨assembly.id, true, outcome⟩
      | .second =>
        { session with
          incomingUnsettled := session.incomingUnsettled.put assembly.id handle
        }.tell ⟨assembly.id, false, outcome⟩

/-! ### Complete deliveries -/

/-- Puts a delivery into its queue, at once or at the end of its transaction. -/
def deliver (endpoint : Endpoint) (queue : QueueId) (assembly : Assembly) : Operation Unit := do
  let handle := endpoint.link.handle
  let session := (← get).session
  match MessageSections.parse assembly.payload with
  | .error error => throw (.onLink handle .decodeError error.message)
  | .ok sections =>
    if sections.durable && !session.limits.persistence then
      refuse endpoint assembly
        (.of .preconditionFailed "durable messages cannot be accepted without persistence")
    else
      match assembly.state.bind DeliveryState.transaction? with
      | some transaction =>
        match session.transactions.record transaction (.enqueue queue assembly.payload) with
        | .error report => refuse endpoint assembly report
        | .ok transactions =>
          onSession ({ · with transactions })
          answer handle assembly (.provisional transaction .accepted)
      | none =>
        onStore fun store => (store.enqueue queue assembly.payload).2
        answer handle assembly .accepted

/-- The transaction control that a message holds. -/
def controlOf (message : Bytes) : Except DecodeError TransactionControl := do
  match (← MessageSections.parse message).value with
  | some value => TransactionControl.catalogue.ofValue value
  | none => throw (.malformed .noControl)

/-- Carries out a transaction control: the state that answers it. -/
def coordinate (endpoint : Endpoint) (control : TransactionControl) :
    Operation DeliveryState := do
  let s ← get
  match control with
  | .declare _ =>
    let (id, transactions) := s.session.transactions.declare
    onSession ({ · with transactions })
    return .declared id
  | .discharge id fail =>
    match s.session.transactions.discharge s.store id fail with
    | .ok (_, transactions, store) =>
      set (Serving.mk { s.session with transactions } store)
      return .accepted
    | .error report =>
      if endpoint.link.supportsRejected then return .rejected (some report)
      else throw (.link endpoint.link.handle report)

/-- Carries out a delivery to the coordinator. -/
def carryOutControl (endpoint : Endpoint) (assembly : Assembly) : Operation Unit := do
  let handle := endpoint.link.handle
  match controlOf assembly.payload with
  | .error error => throw (.onLink handle .decodeError error.message)
  | .ok control =>
    let state ← coordinate endpoint control
    onSession fun session =>
      (session.settle handle assembly.id).tell ⟨assembly.id, true, state⟩

/-- Brings a delivery to what stands behind its endpoint. -/
def complete (endpoint : Endpoint) (assembly : Assembly) : Operation Unit :=
  match endpoint.kind with
  | .receiving queue => deliver endpoint queue assembly
  | .coordinator => carryOutControl endpoint assembly
  | _ => pure ()

/-! ### Transfers -/

/-- Refuses a delivery that is larger than its link accepts, and drops the rest of it. -/
def limitSize (endpoint : Endpoint) (assembly : Assembly) : Operation Assembly := do
  let link := endpoint.link
  if !assembly.discarding && link.exceedsMaxMessageSize assembly.size then
    refuse endpoint assembly
      (.of .messageSizeExceeded
        (s!"delivery of at least {assembly.size} bytes exceeds the link limit of " ++
          s!"{link.maxMessageSize}"))
    return assembly.discard
  else return assembly

/-- Tops the credit of a link up if at most half of it is left. -/
def replenishCredit (handle : UInt32) : Operation Unit :=
  modify fun s =>
    match s.session.endpoints.get? handle with
    | none => s
    | some endpoint =>
      if endpoint.link.detachSent || !endpoint.link.credit.needsReplenish then s
      else
        s.onSession fun session =>
          (session.putEndpoint handle (endpoint.onLink fun link =>
            { link with credit := link.credit.grant session.limits.linkCredit })).emitLinkFlow
              s.store handle

/-- Receives a transfer on an endpoint that takes messages from the peer. -/
def receiveOn (endpoint : Endpoint) (transfer : Transfer) (payload : Bytes) :
    Operation Unit := do
  let handle := transfer.handle
  let (taken, endpoint) := endpoint.takeAssembly transfer
  onSession (·.putEndpoint handle endpoint)
  let assembly ← ofExcept taken
  if transfer.aborted then
    onSession (·.settle handle assembly.id)
  else
    let assembly ← limitSize endpoint (assembly.push payload)
    if transfer.more then
      onSession fun session =>
        { session with
          endpoints := session.endpoints.update handle ({ · with assembly := some assembly }) }
    else
      if !assembly.discarding then complete endpoint assembly
      replenishCredit handle

/-- Receives a transfer that the incoming window admits. -/
def receive (transfer : Transfer) (payload : Bytes) : Operation Unit := do
  let handle := transfer.handle
  match (← get).session.endpoints.get? handle with
  | none => throw (.onSession .unattachedHandle s!"transfer on unattached handle {handle}")
  | some endpoint =>
    if endpoint.link.detachSent then return
    else if endpoint.kind.isReceiving then receiveOn endpoint transfer payload
    else
      throw (.onLink handle .illegalState "transfer on a link where the broker is the sender")

/-- Tops the incoming window up if at most half of it is left, and tells the peer. -/
def replenishWindow (s : Serving) : Serving :=
  s.onSession fun session =>
    if session.incomingWindow > session.limits.incomingWindow / 2 then session
    else { session with incomingWindow := session.limits.incomingWindow }.emitSessionFlow

/-- Receives a transfer. -/
def onTransfer (transfer : Transfer) (payload : Bytes) : Operation Unit := fun s =>
  if s.session.incomingWindow = 0 then
    .error (.onSession .windowViolation "transfer received with the incoming window closed") s
  else
    let counted := s.onSession fun session =>
      { session with
        incomingWindow := session.incomingWindow - 1
        nextIncomingId := session.nextIncomingId + 1 }
    match receive transfer payload counted with
    | .ok () s => .ok () (replenishWindow s)
    | .error fault s => .error fault (replenishWindow s)

end MessageBroker.Operation
