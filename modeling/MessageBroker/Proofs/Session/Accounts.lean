import MessageBroker.Proofs.Session.Answering
import MessageBroker.Proofs.Session.Crediting

/-!
# Accounts of deliveries from the peer

Of the deliveries that the peer sends, a session keeps account on their links, as long as they
arrive or are unsettled, and for itself, as long as the peer is to settle them.  Most of what is
done with a session leaves these accounts alone: sending, and outcomes of deliveries sent.
-/

namespace MessageBroker

open Session

/-- The account that is kept on a link. -/
structure Account where
  /-- The broker has detached the link. -/
  detached : Bool
  /-- The deliveries that are unsettled. -/
  unsettled : Unsettled
  /-- The delivery that is arriving. -/
  assembly : Option Assembly

/-- The account that is kept on the end of a link. -/
def Endpoint.account (endpoint : Endpoint) : Account :=
  ⟨endpoint.link.detachSent, endpoint.link.unsettled, endpoint.assembly⟩

namespace Session

/-- The account that is kept on the link with a handle. -/
def account? (session : Session) (handle : UInt32) : Option Account :=
  (session.endpoints.get? handle).map Endpoint.account

/-- The accounts of deliveries from the peer are left alone. -/
structure Leaves (session session' : Session) : Prop where
  /-- The limits are the same. -/
  limits : session'.limits = session.limits
  /-- The peer may send as many transfers. -/
  window : session'.incomingWindow = session.incomingWindow
  /-- The peer is to settle the same deliveries. -/
  incoming : session'.incomingUnsettled = session.incomingUnsettled
  /-- The account that is kept on each link is the same. -/
  account : ∀ handle, session'.account? handle = session.account? handle

namespace Leaves

variable {session session' session'' : Session}

theorem of_same (limits : session'.limits = session.limits)
    (window : session'.incomingWindow = session.incomingWindow)
    (incoming : session'.incomingUnsettled = session.incomingUnsettled)
    (endpoints : session'.endpoints = session.endpoints) :
  session.Leaves session'
  := by
  refine ⟨limits, window, incoming, fun handle => ?_⟩
  rw [account?, account?, endpoints]

theorem refl (session : Session) :
  session.Leaves session
  := of_same rfl rfl rfl rfl

theorem trans (h : session.Leaves session') (h' : session'.Leaves session'') :
  session.Leaves session''
  := by
  constructor
  · exact h'.limits.trans h.limits
  · exact h'.window.trans h.window
  · exact h'.incoming.trans h.incoming
  · exact fun handle => (h'.account handle).trans (h.account handle)

end Leaves

theorem account?_of_get? {session : Session} {handle : UInt32} {endpoint : Endpoint}
    (h : session.endpoints.get? handle = some endpoint) :
  session.account? handle = some endpoint.account
  := by
  rw [account?, h, Option.map_some]

/-- The accounts after an endpoint was put in place. -/
theorem account?_putEndpoint (session : Session) (key : UInt32) (endpoint : Endpoint)
    (handle : UInt32) :
  (session.putEndpoint key endpoint).account? handle
    = if handle = key then some endpoint.account else session.account? handle
  := by
  rw [account?, putEndpoint]
  dsimp only
  rw [Table.get?_put, apply_ite (Option.map Endpoint.account), Option.map_some]
  rfl

/-- The accounts after a delivery was settled on a link. -/
theorem account?_settle (session : Session) (key id handle : UInt32) :
  (session.settle key id).account? handle
    = if handle = key then (session.account? handle).map fun account =>
        { account with unsettled := (account.unsettled.settle id).2 }
      else session.account? handle
  := by
  rw [account?, settle]
  dsimp only
  rw [Table.get?_update, apply_ite (Option.map Endpoint.account), account?, Option.map_map,
    Option.map_map]
  split
  · next same => rw [same]; rfl
  · rfl

/-- Settling a delivery leaves the delivery that arrives. -/
theorem exists_of_account?_settle {session : Session} {key id handle : UInt32} {account : Account}
    (h : (session.settle key id).account? handle = some account) :
  ∃ before, session.account? handle = some before ∧ before.assembly = account.assembly
  := by
  rw [account?_settle] at h
  split at h
  · obtain ⟨before, hbefore, rfl⟩ := Option.map_eq_some_iff.mp h
    exact ⟨before, hbefore, rfl⟩
  · exact ⟨account, h, rfl⟩

section

variable (session : Session)

theorem leaves_putEndpoint {session : Session} {key : UInt32} {endpoint endpoint' : Endpoint}
    (h : session.endpoints.get? key = some endpoint) (same : endpoint'.account = endpoint.account) :
  session.Leaves (session.putEndpoint key endpoint')
  := by
  refine ⟨rfl, rfl, rfl, fun handle => ?_⟩
  rw [account?_putEndpoint]
  split
  · next heq => rw [heq, account?_of_get? h, same]
  · rfl

theorem leaves_emit (performative : Performative) (payload : Option Bytes) :
  session.Leaves (session.emit performative payload)
  := .of_same rfl rfl rfl rfl

theorem leaves_emitLinkFlow (store : QueueStore) (handle : UInt32) :
  session.Leaves (session.emitLinkFlow store handle)
  := by
  rw [emitLinkFlow]
  split
  · apply leaves_emit
  · apply Leaves.refl

theorem leaves_sendPieces (transfer : Transfer) (pieces : List Bytes) :
  session.Leaves (session.sendPieces transfer pieces)
  := by
  apply related_sendPieces .refl .trans
  exact fun _ _ _ => .of_same rfl rfl rfl rfl

end

end Session

/-! ### Deliveries to the peer -/

namespace Serving

variable (s : Serving) (key : UInt32)

theorem leaves_send {s : Serving} {key : UInt32} {endpoint : Endpoint} {pick : Endpoint.Pick}
    (hget : s.session.endpoints.get? key = some endpoint) :
  s.session.Leaves (s.send key endpoint pick).session
  := by
  have hput : s.session.Leaves (s.session.putEndpoint key
      { endpoint with
        kind := pick.kind, link := { endpoint.link with credit := endpoint.link.credit.spend } }) :=
    leaves_putEndpoint hget rfl
  apply hput.trans
  apply Leaves.trans _ (leaves_sendPieces _ _ _)
  exact .of_same rfl rfl rfl rfl

theorem leaves_giveBackCredit :
  s.session.Leaves (s.giveBackCredit key).session
  := by
  revert s
  apply related_giveBackCredit (motive := fun s s' => s.session.Leaves s'.session)
  · exact fun s => .refl s.session
  · exact .trans
  · exact fun _ _ _ there => leaves_putEndpoint there rfl
  · exact fun s store => leaves_emitLinkFlow s.session store key

theorem leaves_pump :
  s.session.Leaves (s.pump key).session
  := by
  revert s
  apply related_pump (motive := fun s s' => s.session.Leaves s'.session)
  · exact fun s => .refl s.session
  · exact .trans
  · intro s s' hnext
    obtain ⟨endpoint, pick, hget, -, -, -, rfl⟩ := sendNext?_eq_some hnext
    exact leaves_send hget
  · exact fun s => s.leaves_giveBackCredit key

theorem leaves_pumpAll :
  s.session.Leaves s.pumpAll.session
  := by
  revert s
  apply related_pumpAll (motive := fun s s' => s.session.Leaves s'.session)
  · exact fun s => .refl s.session
  · exact .trans
  · exact leaves_pump

theorem leaves_recover :
  s.session.Leaves s.recover.2.session
  := by
  have hforget : s.session.Leaves { s.session with outgoingUnsettled := [] } :=
    .of_same rfl rfl rfl rfl
  rw [recover]
  exact hforget.trans (leaves_pumpAll ⟨{ s.session with outgoingUnsettled := [] }, _⟩)

end Serving

namespace Operation

/-! ### Outcomes of deliveries sent -/

theorem leaves_carryOutEach (decided : List (UInt32 × OutgoingDelivery × DeliveryState))
    (s : Serving) :
  s.session.Leaves ((carryOutEach decided).after s).session
  := by
  obtain ⟨_, _, hcarried⟩ := session_carryOutEach decided s
  rw [hcarried]
  exact .of_same rfl rfl rfl rfl

theorem leaves_onReceiverDisposition (disposition : Disposition) (s : Serving) :
  s.session.Leaves ((onReceiverDisposition disposition).after s).session
  := by
  apply related_onReceiverDisposition (motive := fun s s' => s.session.Leaves s'.session)
  · exact fun s => .refl s.session
  · exact .trans
  · exact leaves_carryOutEach _ s
  · exact fun s => leaves_emit s.session _ _
  · exact Serving.leaves_pumpAll

/-! ### Flows -/

theorem leaves_onFlow (flow : Flow) (s : Serving) :
  s.session.Leaves ((onFlow flow).after s).session
  := by
  revert s
  apply related_onFlow (motive := fun s s' => s.session.Leaves s'.session)
  · exact fun s => .refl s.session
  · exact .trans
  · exact fun _ => .of_same rfl rfl rfl rfl
  · exact fun _ _ _ _ there => leaves_putEndpoint there rfl
  · exact fun s => leaves_emit s.session _ _
  · exact fun s handle => leaves_emitLinkFlow s.session s.store handle
  · exact Serving.leaves_pump
  · exact Serving.leaves_pumpAll

/-! ### Credit -/

theorem leaves_replenishCredit (handle : UInt32) (s : Serving) :
  s.session.Leaves ((replenishCredit handle).after s).session
  := by
  rw [replenishCredit, after_modify]
  split
  · apply Leaves.refl
  · next endpoint hget =>
      split
      · apply Leaves.refl
      · have hput : s.session.Leaves (s.session.putEndpoint handle (endpoint.onLink fun link =>
            { link with credit := link.credit.grant s.session.limits.linkCredit })) :=
          leaves_putEndpoint hget rfl
        exact hput.trans (leaves_emitLinkFlow _ _ _)

end Operation

end MessageBroker
