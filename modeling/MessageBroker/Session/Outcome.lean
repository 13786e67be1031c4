import MessageBroker.Session.Sending

/-!
# Dispositions of the peer

The peer tells the outcome of deliveries that were sent to it, and that it has settled deliveries
that it sent.  An outcome is carried out on the message in its queue; in a transaction, taking a
message is only recorded.
-/

namespace MessageBroker

/-! ### Deliveries from the peer -/

namespace Session

/-- Forgets a delivery that the peer has settled. -/
def forget (session : Session) (id : UInt32) : Session :=
  match session.incomingUnsettled.get? id with
  | some handle =>
    { session.settle handle id with
      incomingUnsettled := session.incomingUnsettled.erase id }
  | none => session

/-- Whether a disposition speaks of a delivery. -/
def covers (disposition : Disposition) (id : UInt32) : Bool :=
  disposition.first ≤ id ∧ id ≤ disposition.lastId

/-- The peer has told that it settled deliveries that it sent. -/
def onSenderDisposition (session : Session) (disposition : Disposition) : Session :=
  if disposition.settled then
    (session.incomingUnsettled.keys.filter (covers disposition)).foldl forget session
  else session

end Session

/-! ### Deliveries to the peer -/

namespace Operation

/-- Takes a delivery in a transaction.  If the transaction is not open, the message is given back
and the link is at fault. -/
def take (delivery : OutgoingDelivery) (transaction : Bytes) : Operation Unit := do
  let ledger := (← get).session.transactions
  match ledger.record transaction (.dequeue delivery.queue delivery.entry) with
  | .ok transactions => onSession ({ · with transactions })
  | .error report =>
    onStore fun store => (store.release delivery.queue delivery.entry false).2
    throw (.link delivery.handle report)

/-- Gives the message of a delivery back, counting a failed attempt or not. -/
def giveBack (delivery : OutgoingDelivery) (counted : Bool) : Operation Unit :=
  onStore fun store => (store.release delivery.queue delivery.entry counted).2

/-- Carries out the outcome of a delivery. -/
def carryOut (delivery : OutgoingDelivery) : DeliveryState → Operation Unit
  | .accepted => onStore fun store => (store.acknowledge delivery.queue delivery.entry).2
  | .modified deliveryFailed _ => giveBack delivery deliveryFailed
  | .rejected _ => giveBack delivery true
  | .transactional transaction => take delivery transaction
  | .provisional transaction .accepted => take delivery transaction
  | .provisional _ outcome => carryOut delivery outcome
  | _ => giveBack delivery false

/-- Carries out the outcomes of deliveries, in order, up to the first fault. -/
def carryOutEach : List (UInt32 × OutgoingDelivery × DeliveryState) → Operation Unit
  | [] => pure ()
  | (id, delivery, outcome) :: others => do
    onSession fun session =>
      { session with outgoingUnsettled := session.outgoingUnsettled.erase id }
    carryOut delivery outcome
    carryOutEach others

end Operation

namespace Session

/-- The outcome that a disposition gives a delivery, if it gives one: the state, if that is
terminal, or for a settled delivery without a state the default of its link. -/
def outcome? (session : Session) (disposition : Disposition) (delivery : OutgoingDelivery) :
    Option DeliveryState :=
  match disposition.state with
  | some state => if state.isTerminal then some state else none
  | none =>
    if disposition.settled then
      some (((session.endpoints.get? delivery.handle).map Endpoint.defaultOutcome).getD .accepted)
    else none

/-- The deliveries that a disposition gives an outcome, in order. -/
def decided (session : Session) (disposition : Disposition) :
    List (UInt32 × OutgoingDelivery × DeliveryState) :=
  (session.outgoingUnsettled.filter fun row => covers disposition row.1).filterMap
    fun (id, delivery) => (session.outcome? disposition delivery).map (id, delivery, ·)

end Session

/-- The disposition that confirms a disposition of the peer: the broker has settled too. -/
def Disposition.confirmation (disposition : Disposition) : Disposition :=
  { disposition with role := .sender, settled := true, batchable := false }

namespace Operation

/-- The peer has told the outcome of deliveries that were sent to it. -/
def onReceiverDisposition (disposition : Disposition) : Operation Unit := do
  if disposition.lastId < disposition.first then return
  let decided := (← get).session.decided disposition
  carryOutEach decided
  if !decided.isEmpty && !disposition.settled then
    onSession (·.emit (.disposition disposition.confirmation) none)
  modify Serving.pumpAll

/-- The peer has told about deliveries. -/
def onDisposition (disposition : Disposition) : Operation Unit :=
  match disposition.role with
  | .receiver => onReceiverDisposition disposition
  | .sender => onSession (·.onSenderDisposition disposition)

end Operation

end MessageBroker
