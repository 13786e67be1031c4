import MessageBroker.Session.Outcome
import MessageBroker.Session.Receiving

/-!
# Performatives of the peer

What a session does on each performative of the peer.  A fault of a link is dealt with here, by
detaching the link; a fault of the session or of the connection is left to the connection.
-/

namespace MessageBroker

namespace Operation

/-! ### Detaching -/

/-- Detaches a link because of an error.  Its endpoint stays until the peer has detached it too,
so that transfers on their way are passed over. -/
def detachWith (handle : UInt32) (report : ErrorReport) : Operation Unit := do
  match (← get).session.endpoints.get? handle with
  | none => throw (.session report)
  | some endpoint =>
    if endpoint.link.detachSent then return
    let settled :=
      match endpoint.assembly with
      | some assembly => { endpoint.settle assembly.id with assembly := none }
      | none => endpoint
    let (detach, link) := settled.link.sendDetach (some report)
    onSession fun session =>
      let session :=
        if link.isDetached then { session with endpoints := session.endpoints.erase handle }
        else session.putEndpoint handle { settled with link }
      session.emit (.detach detach) none

/-- The peer has detached a link; the broker does so too, unless it has. -/
def onDetach (detach : Detach) : Operation Unit := do
  let handle := detach.handle
  match (← get).session.endpoints.get? handle with
  | none => throw (.onSession .unattachedHandle s!"detach on unattached handle {handle}")
  | some endpoint =>
    onSession fun session =>
      { session with
        endpoints := session.endpoints.erase handle
        incomingUnsettled := session.incomingUnsettled.filter fun row => row.2 ≠ handle }
    if !endpoint.link.detachSent then
      onSession (·.emit (.detach ⟨endpoint.link.handle, detach.closed, none⟩) none)

/-! ### Attaching -/

/-- Refuses an attach: the answer lacks the terminus that is the broker's, and the link is
detached at once. -/
def refuseAttach (link : Link) (report : ErrorReport) : Operation Unit := do
  let bare :=
    match link.role with
    | .receiver => { link with target := none }
    | .sender => { link with source := none }
  let (reply, link) := bare.sendAttach
  onSession fun session =>
    (session.emit (.attach reply) none).putEndpoint link.handle ⟨link, .refused, none⟩
  detachWith link.handle report

/-- Accepts an attach.  A link that takes messages from the peer is given credit. -/
def acceptAttach (link : Link) (kind : EndpointKind) : Operation Unit := do
  let (reply, link) := link.sendAttach
  onSession (·.emit (.attach reply) none)
  if kind.isReceiving then
    modify fun s =>
      s.onSession fun session =>
        (session.putEndpoint link.handle
          ⟨{ link with credit := link.credit.grant session.limits.linkCredit }, kind,
            none⟩).emitLinkFlow s.store link.handle
  else onSession (·.putEndpoint link.handle ⟨link, kind, none⟩)

/-- The peer attaches a link. -/
def onAttach (attach : Attach) : Operation Unit := do
  let s ← get
  if s.session.endpoints.has attach.handle then
    throw (.onSession .handleInUse s!"handle {attach.handle} is already in use")
  let link := Link.ofAttach attach s.session.limits.maxMessageSize
  match EndpointKind.ofAttach s.store attach with
  | .ok kind => acceptAttach link kind
  | .error report => refuseAttach link report

/-! ### Flows -/

/-- How many transfers the peer accepts, after a flow: as many as it tells, less those it had not
seen, and none if those are more. -/
def windowAfter (flow : Flow) (nextOutgoingId : UInt32) : UInt32 :=
  let window := flow.nextIncomingId.getD 0 + flow.incomingWindow - nextOutgoingId
  if window > flow.incomingWindow then 0 else window

/-- The peer tells the windows, and the credit of a link. -/
def onFlow (flow : Flow) : Operation Unit := do
  onSession fun session =>
    { session with
      remoteOutgoingWindow := flow.outgoingWindow
      remoteIncomingWindow := windowAfter flow session.nextOutgoingId }
  match flow.handle with
  | none =>
    if flow.echo then onSession (·.emitSessionFlow)
    modify Serving.pumpAll
  | some handle =>
    match (← get).session.endpoints.get? handle with
    | none => throw (.onSession .unattachedHandle s!"flow on unattached handle {handle}")
    | some endpoint =>
      if endpoint.kind.isSending then
        let credit :=
          endpoint.link.credit.onFlow flow.deliveryCount (flow.linkCredit.getD 0) flow.drain
        onSession (·.putEndpoint handle (endpoint.onLink fun link => { link with credit }))
        modify (·.pump handle)
      if flow.echo then
        modify fun s => s.onSession fun session => session.emitLinkFlow s.store handle

/-! ### All performatives -/

/-- The peer has sent a performative; faults are left to the caller. -/
def dispatch (p : Performative) (payload : Bytes) : Operation Unit :=
  match p with
  | .attach attach => onAttach attach
  | .flow flow => onFlow flow
  | .transfer transfer => onTransfer transfer payload
  | .disposition disposition => onDisposition disposition
  | .detach detach => onDetach detach
  | _ => throw (.onConnection .illegalState s!"unexpected {p.name} routed to a session")

/-- The peer has sent a performative. -/
def handle (p : Performative) (payload : Bytes) : Operation Unit := fun s =>
  match dispatch p payload s with
  | .error (.link handle report) s => detachWith handle report s
  | result => result

end Operation

namespace Serving

/-! ### Recovery and end -/

/-- Gives back the messages of deliveries, counting a failed attempt for each or not; tells what
became of each. -/
def releaseAll (counted : Bool) :
    List OutgoingDelivery → QueueStore → List ReleaseOutcome × QueueStore
  | [], store => ([], store)
  | delivery :: others, store =>
    let (outcome, store) := store.release delivery.queue delivery.entry counted
    let (outcomes, store) := releaseAll counted others store
    (outcome.toList ++ outcomes, store)

/-- Takes every delivery back that the peer has not settled, counting a failed attempt for each,
and sends what may be sent; tells what became of each. -/
def recover (s : Serving) : List ReleaseOutcome × Serving :=
  let (outcomes, store) := releaseAll true s.session.outgoingUnsettled.rows s.store
  (outcomes, pumpAll ⟨{ s.session with outgoingUnsettled := [] }, store⟩)

/-- Ends the session: deliveries that the peer has not settled are taken back, open transactions
fail, and the links are dropped. -/
def finish (s : Serving) : Serving :=
  let (_, store) := releaseAll false s.session.outgoingUnsettled.rows s.store
  let (transactions, store) := s.session.transactions.rollbackAll store
  ⟨{ s.session with
      outgoingUnsettled := []
      transactions
      endpoints := []
      incomingUnsettled := [] }, store⟩

end Serving

end MessageBroker
