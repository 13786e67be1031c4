import MessageBroker.Proofs.Link.Spending
import MessageBroker.Proofs.Session.Lasting

/-!
# What a session has to send on a link

Deliveries are begun on a link when messages are sent on it, and then only as far as its credit
goes.  All else that is done with a session begins none, and gives a link no credit, but for the
flows that name it.
-/

namespace MessageBroker

/-- Whether an output begins a delivery on a link. -/
def Outgoing.beginsOn (handle : UInt32) (output : Outgoing) : Bool :=
  match output.performative with
  | .transfer transfer => transfer.deliveryId.isSome && transfer.handle = handle
  | _ => false

/-- What of the end of a link bears on the deliveries to the peer. -/
structure Meter where
  /-- Whether messages go to the peer. -/
  sending : Bool
  /-- Whether messages can be carried. -/
  attached : Bool
  /-- Whether the peer has detached the link. -/
  detachReceived : Bool
  /-- The credit, if messages go to the peer. -/
  credit : LinkCredit
  deriving DecidableEq, Repr

/-- The link gives the credit that is left back, if the peer wants that. -/
def Meter.giveBack (meter : Meter) : Meter :=
  { meter with credit := meter.credit.giveBack.2 }

/-- The link with the credit that a flow gives it. -/
def Meter.credited (meter : Meter) (flow : Flow) : Meter :=
  { meter with
    credit := meter.credit.onFlow flow.deliveryCount (flow.linkCredit.getD 0) flow.drain }

/-- What of the end of a link bears on the deliveries to the peer.  The credit is the peer's where
messages come from it. -/
def Endpoint.meter (endpoint : Endpoint) : Meter where
  sending := endpoint.kind.isSending
  attached := endpoint.link.isAttached
  detachReceived := endpoint.link.detachReceived
  credit := if endpoint.kind.isSending then endpoint.link.credit else .start 0

/-- How many deliveries have been begun on a link, and how the link stands, if there is one. -/
structure Standing where
  /-- The number of deliveries. -/
  begun : Nat
  /-- How the link stands. -/
  meter : Option Meter
  deriving DecidableEq, Repr

namespace Session

/-- How many of the deliveries that a session has begun on a link are still to be sent. -/
def begunOn (session : Session) (handle : UInt32) : Nat :=
  session.outbox.countP (Outgoing.beginsOn handle)

/-- How the link with a handle stands in a session. -/
def standing (session : Session) (handle : UInt32) : Standing where
  begun := session.begunOn handle
  meter := (session.endpoints.get? handle).map Endpoint.meter

end Session

/-! ### Endpoints that stand as before -/

namespace Endpoint

/-- Changes of the account of deliveries do not matter, nor what has arrived from the peer. -/
theorem meter_settle (endpoint : Endpoint) (id : UInt32) :
  (endpoint.settle id).meter = endpoint.meter
  := rfl

/-- Only the peer's credit is used where messages come from it. -/
theorem meter_takeAssembly {endpoint : Endpoint} (receives : endpoint.kind.isSending = false)
    (transfer : Transfer) :
  (endpoint.takeAssembly transfer).2.meter = endpoint.meter
  := by
  obtain ⟨credit, unsettled, assembly, h⟩ := endpoint.takeAssembly_snd transfer
  rw [h, meter, meter, receives]
  rfl

theorem meter_onLink_credit {endpoint : Endpoint} (receives : endpoint.kind.isSending = false)
    (change : LinkCredit → LinkCredit) :
  (endpoint.onLink fun link => { link with credit := change link.credit }).meter = endpoint.meter
  := by
  rw [meter, meter, onLink, receives]
  rfl

theorem meter_giveBack (endpoint : Endpoint) :
  (endpoint.onLink fun link => { link with credit := link.credit.giveBack.2 }).meter
    = endpoint.meter.giveBack
  := by
  rw [meter, meter, onLink, Meter.giveBack]
  dsimp only
  split
  · rfl
  · rfl

theorem meter_giveBack_of_false {endpoint : Endpoint}
    (h : endpoint.link.credit.giveBack.1 = false) :
  endpoint.meter.giveBack = endpoint.meter
  := by
  rw [meter, Meter.giveBack]
  dsimp only
  split
  · rw [LinkCredit.snd_giveBack_of_false h]
  · rfl

/-- The end of a link with the credit that a flow gives it. -/
def credited (endpoint : Endpoint) (flow : Flow) : Endpoint :=
  endpoint.onLink fun link => { link with
    credit := link.credit.onFlow flow.deliveryCount (flow.linkCredit.getD 0) flow.drain }

theorem meter_credited {endpoint : Endpoint} (sending : endpoint.kind.isSending = true)
    (flow : Flow) :
  (endpoint.credited flow).meter = endpoint.meter.credited flow
  := by
  rw [meter, meter, credited, onLink, Meter.credited, sending]
  rfl

theorem isSending_of_isReceiving {kind : EndpointKind} (h : kind.isReceiving = true) :
  kind.isSending = false
  := by
  cases kind with
  | receiving queue => rfl
  | coordinator => rfl
  | _ => contradiction

end Endpoint

/-! ### Sessions in which a link stands as before -/

namespace Session

variable (session : Session) (handle : UInt32)

theorem begunOn_flush :
  session.flush.begunOn handle = session.begunOn handle
  := by
  have hnone : ∀ dispositions : List Disposition,
      dispositions.countP (Outgoing.beginsOn handle ∘ fun disposition =>
        ⟨.disposition disposition, none⟩) = 0 := by
    intro dispositions
    apply List.countP_eq_zero.mpr
    intro disposition _
    simp [Outgoing.beginsOn]
  rw [begunOn, flush, List.countP_append, List.countP_map, hnone, Nat.add_zero, begunOn]

theorem begunOn_emit (performative : Performative) (payload : Option Bytes) :
  (session.emit performative payload).begunOn handle
    = session.begunOn handle + if Outgoing.beginsOn handle ⟨performative, payload⟩ then 1 else 0
  := by
  have hflush := session.begunOn_flush handle
  rw [begunOn] at hflush
  rw [begunOn, emit, List.countP_append, List.countP_singleton, hflush]

theorem standing_emit {performative : Performative} {payload : Option Bytes}
    (h : Outgoing.beginsOn handle ⟨performative, payload⟩ = false) :
  (session.emit performative payload).standing handle = session.standing handle
  := by
  have hbegun := session.begunOn_emit handle performative payload
  rw [h] at hbegun
  rw [standing, hbegun]
  rfl

theorem standing_emitSessionFlow :
  session.emitSessionFlow.standing handle = session.standing handle
  := session.standing_emit handle rfl

theorem standing_emitLinkFlow (store : QueueStore) (key : UInt32) :
  (session.emitLinkFlow store key).standing handle = session.standing handle
  := by
  rw [emitLinkFlow]
  split
  · exact session.standing_emit handle rfl
  · rfl

theorem standing_putEndpoint (key : UInt32) (endpoint : Endpoint) :
  (session.putEndpoint key endpoint).standing handle
    = ⟨session.begunOn handle,
        if handle = key then some endpoint.meter else (session.standing handle).meter⟩
  := by
  rw [standing, putEndpoint]
  dsimp only
  rw [Table.get?_put]
  split
  · rfl
  · rfl

/-- An endpoint is put in place of one that stands as it. -/
theorem standing_putEndpoint_of_same {key : UInt32} {endpoint endpoint' : Endpoint}
    (h : session.endpoints.get? key = some endpoint) (same : endpoint'.meter = endpoint.meter) :
  (session.putEndpoint key endpoint').standing handle = session.standing handle
  := by
  rw [standing_putEndpoint]
  split
  · next hkey => rw [standing, hkey, h, same]; rfl
  · rfl

theorem standing_update (key : UInt32) {change : Endpoint → Endpoint}
    (same : ∀ endpoint, (change endpoint).meter = endpoint.meter) :
  { session with endpoints := session.endpoints.update key change }.standing handle
    = session.standing handle
  := by
  rw [standing, standing]
  dsimp only
  rw [Table.get?_update]
  split
  · next hkey =>
      rw [Option.map_map]
      have hsame : Endpoint.meter ∘ change = Endpoint.meter := funext same
      rw [hsame]
      rfl
  · rfl

theorem standing_settle (key id : UInt32) :
  (session.settle key id).standing handle = session.standing handle
  := session.standing_update handle key fun endpoint => endpoint.meter_settle id

theorem standing_forget (id : UInt32) :
  (session.forget id).standing handle = session.standing handle
  := by
  rw [forget]
  split
  · exact session.standing_settle handle _ id
  · rfl

theorem standing_onSenderDisposition (disposition : Disposition) :
  (session.onSenderDisposition disposition).standing handle = session.standing handle
  := by
  apply related_onSenderDisposition
    (motive := fun session session' => session'.standing handle = session.standing handle)
  · exact fun _ => rfl
  · exact fun before after => after.trans before
  · exact fun session id => session.standing_forget handle id

end Session

/-! ### Operations after which a link stands as before -/

namespace Operation

open Session

variable (handle : UInt32)

theorem standing_carryOutEach (decided : List (UInt32 × OutgoingDelivery × DeliveryState))
    (s : Serving) :
  ((carryOutEach decided).after s).session.standing handle = s.session.standing handle
  := by
  obtain ⟨_, _, hcarried⟩ := session_carryOutEach decided s
  rw [hcarried]
  rfl

/-- Deliveries from the peer do not matter. -/
theorem reckons_standing :
  Serving.Reckons fun s s' =>
    ∀ handle, s'.session.standing handle = s.session.standing handle
  where
  refl _ _ := rfl
  trans h h' handle := (h' handle).trans (h handle)
  settles s key id handle := s.session.standing_settle handle key id
  tells _ _ _ := rfl
  awaits _ _ _ := rfl

/-- Credit is given to the peer on a link that messages come on. -/
theorem standing_replenishCredit {key : UInt32} {s : Serving}
    (receives : ∀ meter, (s.session.standing key).meter = some meter → meter.sending = false) :
  ((replenishCredit key).after s).session.standing handle = s.session.standing handle
  := by
  rw [replenishCredit, after_modify]
  split
  · rfl
  · next endpoint hget =>
      split
      · rfl
      · have hkind : endpoint.kind.isSending = false := by
          apply receives endpoint.meter
          rw [standing, hget]
          rfl
        change (Session.emitLinkFlow _ _ _).standing handle = _
        rw [standing_emitLinkFlow]
        exact s.session.standing_putEndpoint_of_same handle hget
          (Endpoint.meter_onLink_credit hkind (·.grant s.session.limits.linkCredit))

theorem standing_replenishWindow (s : Serving) :
  (replenishWindow s).session.standing handle = s.session.standing handle
  := by
  rw [replenishWindow]
  change (ite _ _ _ : Session).standing handle = _
  split
  · rfl
  · exact Session.standing_emitSessionFlow _ handle

theorem standing_receiveOn {endpoint : Endpoint} {transfer : Transfer} {s : Serving}
    (hget : s.session.endpoints.get? transfer.handle = some endpoint)
    (receives : endpoint.kind.isReceiving = true) (payload : Bytes) :
  ((receiveOn endpoint transfer payload).after s).session.standing handle
    = s.session.standing handle
  := by
  have hsending := Endpoint.isSending_of_isReceiving receives
  have received := related_receiveOn reckons_standing endpoint transfer payload
    (fun endpoint' htake other => by
      rw [← htake]
      exact s.session.standing_putEndpoint_of_same other hget
        (Endpoint.meter_takeAssembly hsending transfer))
    (fun s _ other => s.session.standing_update other _ fun _ => rfl)
    (fun s endpoint' assembly _ => related_complete reckons_standing (fun _ _ _ => rfl)
      (fun _ _ _ _ => rfl) (fun _ _ _ _ _ _ _ _ => rfl) endpoint' assembly s)
  obtain same | ⟨s', same, last⟩ := received
  · exact same handle
  · rw [last, standing_replenishCredit handle, same]
    intro meter hmeter
    rw [same, standing, hget] at hmeter
    obtain rfl := Option.some.inj hmeter
    exact hsending

/-- Transfers from the peer do not matter. -/
theorem standing_onTransfer (transfer : Transfer) (payload : Bytes) (s : Serving) :
  ((onTransfer transfer payload).after s).session.standing handle = s.session.standing handle
  := by
  obtain same | counted | ⟨-, endpoint, hget, -, receives, received⟩ :=
    onTransfer_cases transfer payload s
  · rw [same]
  · rw [counted, standing_replenishWindow]
    rfl
  · rw [received, standing_replenishWindow]
    exact standing_receiveOn handle (s := s.onSession (·.count)) hget receives payload

end Operation

end MessageBroker
