import MessageBroker.Proofs.Operation
import MessageBroker.Session.Handling

/-!
# What goes on along an operation

What waits is sent, dispositions and flows of the peer are carried out, and deliveries of the peer are
taken in, in steps.  What goes on from one state to the next along all of the steps goes on along the
whole, whether there is a fault or not.  So when outcomes are carried out, only the deliveries that are
unsettled and the transactions of a session are changed.
-/

namespace MessageBroker

/-! ### Transfers and settlements -/

namespace Session

section Related

variable {motive : Session → Session → Prop} (refl : ∀ session, motive session session)
  (trans : ∀ {session session' session''}, motive session session' → motive session' session'' →
    motive session session'')

include refl trans

/-- What goes on when single transfers are sent goes on when the pieces of a delivery are. -/
theorem related_sendPieces
    (sends : ∀ session transfer payload, motive session (session.sendTransfer transfer payload))
    (session : Session) (transfer : Transfer) (pieces : List Bytes) :
  motive session (session.sendPieces transfer pieces)
  := by
  induction pieces generalizing session transfer with
  | nil => exact refl session
  | cons piece pieces ih =>
      cases pieces with
      | nil => exact sends session _ piece
      | cons next others => exact trans (sends session _ piece) (ih _ _)

/-- What goes on when single deliveries are forgotten goes on when the peer has settled some. -/
theorem related_onSenderDisposition
    (forgets : ∀ session id, motive session (session.forget id)) (session : Session)
    (disposition : Disposition) :
  motive session (session.onSenderDisposition disposition)
  := by
  rw [onSenderDisposition]
  split
  · exact List.foldlRecOn _ forget (refl session) fun _ before id _ => trans before (forgets _ id)
  · exact refl session

end Related

end Session

/-! ### Deliveries to the peer -/

namespace Serving

/-- What a link does that sends a message: it is attached and has credit, its delivery count goes
on by one, and one delivery is begun, on this link alone. -/
theorem sendNext?_eq_some {s s' : Serving} {key : UInt32} (h : s.sendNext? key = some s') :
  ∃ endpoint pick, s.session.endpoints.get? key = some endpoint
    ∧ endpoint.pick? s.store = some pick
    ∧ endpoint.link.isAttached = true ∧ endpoint.link.credit.maySend = true
    ∧ s' = s.send key endpoint pick
  := by
  rw [sendNext?] at h
  split at h
  · contradiction
  · split at h
    · contradiction
    · next endpoint hget =>
        split at h
        · next hmay =>
            obtain ⟨pick, hpick, rfl⟩ := Option.map_eq_some_iff.mp h
            rw [Bool.and_eq_true] at hmay
            exact ⟨endpoint, pick, hget, hpick, hmay.1, hmay.2, rfl⟩
        · contradiction

section Related

variable {motive : Serving → Serving → Prop} (refl : ∀ s, motive s s)
  (trans : ∀ {s s' s''}, motive s s' → motive s' s'' → motive s s'') {key : UInt32}

include refl trans

/-- What goes on when single deliveries of a link are sent and when the credit that is left is given
back goes on when what waits on the link is sent. -/
theorem related_pump (sends : ∀ {s s' : Serving}, s.sendNext? key = some s' → motive s s')
    (gives : ∀ s, motive s (s.giveBackCredit key)) (s : Serving) :
  motive s (s.pump key)
  := by
  have sent (count : Nat) : motive s (sendAtMost count key s) := by
    induction count generalizing s with
    | zero => exact refl s
    | succ count ih =>
        rw [sendAtMost]
        split
        · next s' hnext => exact trans (sends hnext) (ih s')
        · exact refl s
  exact trans (sent _) (gives _)

theorem related_pumpAll (pumps : ∀ s key, motive s (s.pump key)) (s : Serving) :
  motive s s.pumpAll
  := List.foldlRecOn _ pump (refl s) fun _ before key _ => trans before (pumps _ key)

/-- What goes on when the credit of a link is changed and when the peer is told about it goes on when
the credit is given back. -/
theorem related_giveBackCredit
    (credits : ∀ s endpoint credit, s.session.endpoints.get? key = some endpoint →
      motive s (s.onSession (·.putEndpoint key (endpoint.onLink ({ · with credit })))))
    (tells : ∀ s store, motive s (s.onSession (·.emitLinkFlow store key))) (s : Serving) :
  motive s (s.giveBackCredit key)
  := by
  rw [giveBackCredit]
  split
  · exact refl s
  · next endpoint there =>
      split
      · exact refl s
      · next credit _ => exact trans (credits s endpoint credit there) (tells _ _)

end Related

/-- What goes on from one state to the next where deliveries from the peer are accounted for. -/
structure Reckons (motive : Serving → Serving → Prop) : Prop where
  /-- It goes on where nothing is done. -/
  refl : ∀ s, motive s s
  /-- It goes on along a step and the next. -/
  trans : ∀ {s s' s''}, motive s s' → motive s' s'' → motive s s''
  /-- It goes on where a delivery is settled. -/
  settles : ∀ s handle id, motive s (s.onSession (·.settle handle id))
  /-- It goes on where the peer is told what became of a delivery. -/
  tells : ∀ s settlement, motive s (s.onSession (·.tell settlement))
  /-- It goes on where the deliveries change that the peer is to settle. -/
  awaits : ∀ s incomingUnsettled, motive s (s.onSession ({ · with incomingUnsettled }))

end Serving

/-! ### Outcomes and flows -/

namespace Operation

/-- By an outcome a message is acknowledged, given back, or taken in a transaction. -/
theorem carryOut_cases (delivery : OutgoingDelivery) (outcome : DeliveryState) :
  carryOut delivery outcome
      = onStore (fun store => (store.acknowledge delivery.queue delivery.entry).2)
    ∨ (∃ counted, carryOut delivery outcome = giveBack delivery counted)
    ∨ ∃ transaction, carryOut delivery outcome = take delivery transaction
  := by
  induction outcome with
  | accepted => exact .inl rfl
  | transactional transaction => exact .inr (.inr ⟨transaction, rfl⟩)
  | provisional transaction outcome ih =>
      cases outcome with
      | accepted => exact .inr (.inr ⟨transaction, rfl⟩)
      | _ => exact ih
  | _ => exact .inr (.inl ⟨_, rfl⟩)

section Related

variable {motive : Serving → Serving → Prop} (refl : ∀ s, motive s s)
  (trans : ∀ {s s' s''}, motive s s' → motive s' s'' → motive s s'')

include refl trans

/-- What goes on when single deliveries are forgotten and their outcomes are carried out goes on when
the outcomes of several are. -/
theorem related_carryOutEach
    (erases : ∀ s id, motive s (s.onSession fun session =>
      { session with outgoingUnsettled := session.outgoingUnsettled.erase id }))
    (carries : ∀ delivery outcome s, motive s ((carryOut delivery outcome).after s))
    (decided : List (UInt32 × OutgoingDelivery × DeliveryState)) (s : Serving) :
  motive s ((carryOutEach decided).after s)
  := by
  induction decided generalizing s with
  | nil => exact refl s
  | cons row others ih =>
      obtain ⟨id, delivery, outcome⟩ := row
      rw [carryOutEach, after_onSession_bind]
      have first := trans (erases s id) (carries delivery outcome _)
      apply after_bind (motive := motive s) first
      intro _ _
      exact trans first (ih _)

/-- What goes on when the outcomes are carried out goes on when the peer tells the outcomes, if it goes
on when the disposition is confirmed and when what waits is sent. -/
theorem related_onReceiverDisposition {disposition : Disposition} {s : Serving}
    (carries : motive s ((carryOutEach (s.session.decided disposition)).after s))
    (confirms : ∀ s, motive s
      (s.onSession (·.emit (.disposition disposition.confirmation) none)))
    (pumps : ∀ s, motive s s.pumpAll) :
  motive s ((onReceiverDisposition disposition).after s)
  := by
  rw [onReceiverDisposition]
  split
  · exact refl s
  · rw [after_get_bind]
    dsimp only
    apply after_bind (motive := motive s) carries
    intro _ _
    apply trans carries
    split
    · rw [after_onSession_bind, after_modify]
      exact trans (confirms _) (pumps _)
    · exact pumps _

/-- What goes on when windows are told, credit is given, the peer is told about it and what waits is
sent goes on when the peer has sent a flow. -/
theorem related_onFlow {flow : Flow}
    (windows : ∀ s, motive s (s.onSession fun session =>
      { session with
        remoteOutgoingWindow := flow.outgoingWindow
        remoteIncomingWindow := windowAfter flow session.nextOutgoingId }))
    (credits : ∀ s handle endpoint credit, s.session.endpoints.get? handle = some endpoint →
      motive s (s.onSession (·.putEndpoint handle (endpoint.onLink ({ · with credit })))))
    (tells : ∀ s, motive s (s.onSession (·.emitSessionFlow)))
    (echoes : ∀ s handle, motive s (s.onSession (·.emitLinkFlow s.store handle)))
    (pumps : ∀ s handle, motive s (s.pump handle)) (pumpsAll : ∀ s, motive s s.pumpAll)
    (s : Serving) :
  motive s ((onFlow flow).after s)
  := by
  rw [onFlow, after_onSession_bind]
  apply trans (windows s)
  generalize s.onSession _ = s
  split
  · dsimp only
    split
    · exact trans (tells s) (pumpsAll _)
    · exact pumpsAll s
  · next handle _ =>
      rw [after_get_bind]
      split
      · exact refl s
      · next endpoint there =>
          dsimp only
          have answers (s : Serving) : motive s ((if flow.echo then
                modify fun s => s.onSession fun session => session.emitLinkFlow s.store handle
              else pure () : Operation Unit).after s) := by
            split
            · exact echoes s handle
            · exact refl s
          split
          · rw [after_onSession_bind, after_modify_bind]
            exact trans (trans (credits s handle endpoint _ there) (pumps _ handle)) (answers _)
          · exact answers s

end Related

/-- An outcome is carried out on the queues and the transactions. -/
theorem session_carryOut (delivery : OutgoingDelivery) (outcome : DeliveryState) (s : Serving) :
  ∃ transactions, ((carryOut delivery outcome).after s).session = { s.session with transactions }
  := by
  rcases carryOut_cases delivery outcome with h | ⟨counted, h⟩ | ⟨transaction, h⟩
  · rw [h]
    exact ⟨_, rfl⟩
  · rw [h]
    exact ⟨_, rfl⟩
  · rw [h, take, after_get_bind]
    dsimp only
    split
    · exact ⟨_, rfl⟩
    · exact ⟨_, rfl⟩

/-- Of the session only the unsettled deliveries and the transactions are changed when outcomes are
carried out. -/
theorem session_carryOutEach (decided : List (UInt32 × OutgoingDelivery × DeliveryState))
    (s : Serving) :
  ∃ outgoingUnsettled transactions, ((carryOutEach decided).after s).session
    = { s.session with outgoingUnsettled, transactions }
  := by
  apply related_carryOutEach (motive := fun s s' => ∃ outgoingUnsettled transactions,
    s'.session = { s.session with outgoingUnsettled, transactions })
  · exact fun s => ⟨_, _, rfl⟩
  · rintro s s' s'' ⟨_, _, first⟩ ⟨_, _, second⟩
    rw [second, first]
    exact ⟨_, _, rfl⟩
  · exact fun s id => ⟨_, _, rfl⟩
  · intro delivery outcome s
    obtain ⟨transactions, h⟩ := session_carryOut delivery outcome s
    exact ⟨_, transactions, h⟩

/-! ### Deliveries from the peer -/

section Reckons

variable {motive : Serving → Serving → Prop} (reckons : Serving.Reckons motive)

include reckons

theorem related_refuse (endpoint : Endpoint) (assembly : Assembly) (report : ErrorReport)
    (s : Serving) :
  motive s ((refuse endpoint assembly report).after s)
  := by
  rw [refuse]
  split
  · exact reckons.refl s
  · exact reckons.trans (reckons.settles s _ _) (reckons.tells _ _)

theorem related_answer (handle : UInt32) (assembly : Assembly) (outcome : DeliveryState)
    (s : Serving) :
  motive s ((answer handle assembly outcome).after s)
  := by
  rw [answer, after_onSession, Serving.onSession]
  split
  · exact reckons.settles s _ _
  · split
    · exact reckons.trans (reckons.settles s _ _) (reckons.tells _ _)
    · exact reckons.trans (reckons.awaits s _) (reckons.tells _ _)

theorem related_limitSize (endpoint : Endpoint) (assembly : Assembly) (s : Serving) :
  motive s ((limitSize endpoint assembly).after s)
  := by
  rw [limitSize]
  split
  · have refused := related_refuse reckons endpoint assembly
      (.of .messageSizeExceeded
        (s!"delivery of at least {assembly.size} bytes exceeds the link limit of " ++
          s!"{endpoint.link.maxMessageSize}")) s
    apply after_bind (motive := motive s) refused
    intro _ _
    exact refused
  · exact reckons.refl s

/-- What goes on when transactions and queues are changed, too, goes on when a complete delivery is
brought to what stands behind its link. -/
theorem related_complete
    (records : ∀ s transactions, motive s (s.onSession ({ · with transactions })))
    (enqueues : ∀ s queue message, motive s (s.onStore fun store => (store.enqueue queue message).2))
    (discharges : ∀ (s : Serving) id fail outcome transactions store,
      s.session.transactions.discharge s.store id fail = .ok (outcome, transactions, store) →
      motive s ⟨{ s.session with transactions }, store⟩)
    (endpoint : Endpoint) (assembly : Assembly) (s : Serving) :
  motive s ((complete endpoint assembly).after s)
  := by
  have delivers (queue : QueueId) : motive s ((deliver endpoint queue assembly).after s) := by
    rw [deliver, after_get_bind]
    dsimp only
    split
    · exact reckons.refl s
    · split
      · exact related_refuse reckons endpoint assembly _ s
      · split
        · split
          · exact related_refuse reckons endpoint assembly _ s
          · rw [after_onSession_bind]
            exact reckons.trans (records s _) (related_answer reckons _ assembly _ _)
        · rw [after_onStore_bind]
          exact reckons.trans (enqueues s _ _) (related_answer reckons _ assembly _ _)
  have coordinates (control : TransactionControl) :
      motive s ((coordinate endpoint control).after s) := by
    rw [coordinate, after_get_bind]
    cases control with
    | declare globalId => exact records s _
    | discharge id fail =>
        dsimp only
        split
        · next hdischarge => exact discharges s id fail _ _ _ hdischarge
        · split
          · exact reckons.refl s
          · exact reckons.refl s
  rw [complete]
  split
  · exact delivers _
  · rw [carryOutControl]
    split
    · exact reckons.refl s
    · next control _ =>
        apply after_bind (motive := motive s) (coordinates control)
        intro _ _
        rw [after_onSession]
        exact reckons.trans (coordinates control)
          (reckons.trans (reckons.settles _ _ _) (reckons.tells _ _))
  · exact reckons.refl s

end Reckons

end Operation

end MessageBroker
