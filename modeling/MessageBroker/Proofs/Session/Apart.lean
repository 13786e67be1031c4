import MessageBroker.Proofs.Session.Completion
import MessageBroker.Proofs.Transaction.Prepending

/-!
# Transactions apart from the rest of a session

Most of what a session does takes no notice of its transactions: it is all the same whether they
are changed before or after.  Where the transactions are looked at, it is all the same whether
work is put in front of that of a transaction before or after, unless the transaction ends.
-/

namespace MessageBroker

/-- A session with its transactions changed. -/
def Session.onLedger (session : Session) (change : Ledger → Ledger) : Session :=
  { session with transactions := change session.transactions }

/-- A session at work with its transactions changed. -/
def Serving.onLedger (change : Ledger → Ledger) (s : Serving) : Serving :=
  ⟨s.session.onLedger change, s.store⟩

section Views

variable (change : Ledger → Ledger)

@[simp]
theorem Session.limits_onLedger (session : Session) :
  (session.onLedger change).limits = session.limits
  := rfl

@[simp]
theorem Session.endpoints_onLedger (session : Session) :
  (session.onLedger change).endpoints = session.endpoints
  := rfl

@[simp]
theorem Session.incomingUnsettled_onLedger (session : Session) :
  (session.onLedger change).incomingUnsettled = session.incomingUnsettled
  := rfl

@[simp]
theorem Session.incomingWindow_onLedger (session : Session) :
  (session.onLedger change).incomingWindow = session.incomingWindow
  := rfl

@[simp]
theorem Session.remoteIncomingWindow_onLedger (session : Session) :
  (session.onLedger change).remoteIncomingWindow = session.remoteIncomingWindow
  := rfl

@[simp]
theorem Session.transactions_onLedger (session : Session) :
  (session.onLedger change).transactions = change session.transactions
  := rfl

@[simp]
theorem Serving.session_onLedger (s : Serving) :
  (s.onLedger change).session = s.session.onLedger change
  := rfl

@[simp]
theorem Serving.store_onLedger (s : Serving) :
  (s.onLedger change).store = s.store
  := rfl

end Views

section Apart

variable (change : Ledger → Ledger)

namespace Session

variable (session : Session)

/-! ### Output -/

theorem emitLinkFlow_onLedger (store : QueueStore) (handle : UInt32) :
  (session.onLedger change).emitLinkFlow store handle
    = (session.emitLinkFlow store handle).onLedger change
  := by
  rw [emitLinkFlow, emitLinkFlow, endpoints_onLedger]
  split <;> rfl

theorem forget_onLedger (id : UInt32) :
  (session.onLedger change).forget id = (session.forget id).onLedger change
  := by
  rw [forget, forget, incomingUnsettled_onLedger]
  split <;> rfl

theorem onSenderDisposition_onLedger (disposition : Disposition) :
  (session.onLedger change).onSenderDisposition disposition
    = (session.onSenderDisposition disposition).onLedger change
  := by
  rw [onSenderDisposition, onSenderDisposition, incomingUnsettled_onLedger]
  split
  · generalize session.incomingUnsettled.keys.filter (covers disposition) = ids
    induction ids generalizing session with
    | nil => rfl
    | cons id ids ih =>
        rw [List.foldl_cons, List.foldl_cons, forget_onLedger, ih]
  · rfl

theorem sendPieces_onLedger (transfer : Transfer) (pieces : List Bytes) :
  (session.onLedger change).sendPieces transfer pieces
    = (session.sendPieces transfer pieces).onLedger change
  := by
  induction pieces generalizing session transfer with
  | nil => rfl
  | cons piece pieces ih =>
      cases pieces with
      | nil => rfl
      | cons next others => exact ih (session.sendTransfer _ piece) _

theorem sendDelivery_onLedger (handle id : UInt32) (settled : Bool) (payload : Bytes) :
  (session.onLedger change).sendDelivery handle id settled payload
    = (session.sendDelivery handle id settled payload).onLedger change
  := sendPieces_onLedger change session _ _

end Session

open Session

namespace Serving

variable (s : Serving)

theorem onSession_onLedger {f : Session → Session}
    (h : f (s.session.onLedger change) = (f s.session).onLedger change) :
  (s.onLedger change).onSession f = (s.onSession f).onLedger change
  := by
  change Serving.mk (f (s.session.onLedger change)) s.store = _
  rw [h]
  rfl

/-! ### Pumping -/

theorem send_onLedger (handle : UInt32) (endpoint : Endpoint) (pick : Endpoint.Pick) :
  (s.onLedger change).send handle endpoint pick = (s.send handle endpoint pick).onLedger change
  := by
  change Serving.mk _ _ = Serving.mk ((Session.sendDelivery _ handle _ _ _).onLedger change) _
  rw [← sendDelivery_onLedger]
  rfl

theorem sendNext?_onLedger (handle : UInt32) :
  (s.onLedger change).sendNext? handle = (s.sendNext? handle).map (onLedger change)
  := by
  rw [sendNext?, sendNext?, session_onLedger, endpoints_onLedger, remoteIncomingWindow_onLedger]
  split
  · rfl
  · split
    · rfl
    · next endpoint _ =>
        split
        · rw [Option.map_map]
          congr 1
          funext pick
          exact send_onLedger change s handle endpoint pick
        · rfl

theorem sendAtMost_onLedger (count : Nat) (handle : UInt32) :
  sendAtMost count handle (s.onLedger change) = (sendAtMost count handle s).onLedger change
  := by
  induction count generalizing s with
  | zero => rfl
  | succ count ih =>
      rw [sendAtMost, sendAtMost, sendNext?_onLedger]
      cases s.sendNext? handle with
      | none => rfl
      | some s' => exact ih s'

theorem giveBackCredit_onLedger (handle : UInt32) :
  (s.onLedger change).giveBackCredit handle = (s.giveBackCredit handle).onLedger change
  := by
  rw [giveBackCredit, giveBackCredit, session_onLedger, endpoints_onLedger]
  split
  · rfl
  · split
    · rfl
    · exact s.onSession_onLedger change (emitLinkFlow_onLedger change (s.session.putEndpoint _ _) _ _)

theorem pump_onLedger (handle : UInt32) :
  (s.onLedger change).pump handle = (s.pump handle).onLedger change
  := by
  rw [pump, pump]
  have hcredit : (s.onLedger change).creditOf handle = s.creditOf handle := rfl
  rw [hcredit, sendAtMost_onLedger, giveBackCredit_onLedger]

theorem pumpAll_onLedger :
  (s.onLedger change).pumpAll = s.pumpAll.onLedger change
  := by
  rw [pumpAll, pumpAll, session_onLedger, endpoints_onLedger]
  generalize Table.keys _ = handles
  induction handles generalizing s with
  | nil => rfl
  | cons handle handles ih => rw [List.foldl_cons, List.foldl_cons, pump_onLedger, ih]

theorem recover_onLedger :
  (s.onLedger change).recover.2 = s.recover.2.onLedger change
  := pumpAll_onLedger change
    ⟨{ s.session with outgoingUnsettled := [] },
      (releaseAll true s.session.outgoingUnsettled.rows s.store).2⟩

end Serving

namespace Operation

open Serving

variable {change}

theorem commutes_onSession {f : Session → Session} {s : Serving}
    (h : f (s.session.onLedger change) = (f s.session).onLedger change) :
  (onSession f).Commutes (onLedger change) s
  := congrArg (EStateM.Result.ok ()) (s.onSession_onLedger change h)

theorem commutes_modify {f : Serving → Serving} {s : Serving}
    (h : f (s.onLedger change) = (f s).onLedger change) :
  (modify f : Operation Unit).Commutes (onLedger change) s
  := congrArg (EStateM.Result.ok ()) h

/-! ### Transfers from the peer -/

theorem commutes_refuse (endpoint : Endpoint) (assembly : Assembly) (report : ErrorReport)
    (s : Serving) :
  (refuse endpoint assembly report).Commutes (onLedger change) s
  := by
  rw [refuse]
  split
  · rfl
  · exact commutes_onSession rfl

theorem commutes_answer (handle : UInt32) (assembly : Assembly) (outcome : DeliveryState)
    (s : Serving) :
  (answer handle assembly outcome).Commutes (onLedger change) s
  := by
  apply commutes_onSession
  split
  · rfl
  · split <;> rfl

theorem commutes_limitSize (endpoint : Endpoint) (assembly : Assembly) (s : Serving) :
  (limitSize endpoint assembly).Commutes (onLedger change) s
  := by
  rw [limitSize]
  split
  · apply commutes_bind (commutes_refuse endpoint assembly _ s)
    intro _ _
    rfl
  · rfl

theorem commutes_replenishCredit (handle : UInt32) (s : Serving) :
  (replenishCredit handle).Commutes (onLedger change) s
  := by
  apply commutes_modify
  rw [session_onLedger, endpoints_onLedger]
  split
  · rfl
  · split
    · rfl
    · apply onSession_onLedger
      exact emitLinkFlow_onLedger change (s.session.putEndpoint handle _) s.store handle

theorem replenishWindow_onLedger (s : Serving) :
  replenishWindow (s.onLedger change) = (replenishWindow s).onLedger change
  := by
  apply onSession_onLedger
  rw [incomingWindow_onLedger, limits_onLedger]
  split <;> rfl

/-- Receiving a transfer commutes with a change of the transactions if bringing the delivery that
it completes to its end does. -/
theorem commutes_receiveOn {endpoint : Endpoint} {transfer : Transfer} {payload : Bytes}
    {s : Serving}
    (h : ∀ endpoint' assembly, endpoint.completed? transfer payload = some (endpoint', assembly) →
      (complete endpoint' assembly).Commutes (onLedger change)
        (s.onSession (·.putEndpoint transfer.handle endpoint'))) :
  (receiveOn endpoint transfer payload).Commutes (onLedger change) s
  := by
  cases hcompleted : endpoint.completed? transfer payload with
  | some completed =>
      obtain ⟨endpoint', assembly⟩ := completed
      rw [Commutes, receiveOn_of_completed hcompleted, receiveOn_of_completed hcompleted]
      apply commutes_bind (h endpoint' assembly hcompleted)
      intro _ _
      exact commutes_replenishCredit _ _
  | none =>
      rcases htake : endpoint.takeAssembly transfer with ⟨result, endpoint'⟩
      cases result with
      | error fault =>
          rw [Commutes, receiveOn_of_error htake, receiveOn_of_error htake]
          rfl
      | ok taken =>
          cases haborted : transfer.aborted with
          | true =>
              rw [Commutes, receiveOn_of_aborted htake haborted,
                receiveOn_of_aborted htake haborted]
              rfl
          | false =>
              rw [Commutes, receiveOn_of_taken htake haborted, receiveOn_of_taken htake haborted]
              change Commutes (onLedger change) (limitSize endpoint' _ >>= _)
                (s.onSession (·.putEndpoint transfer.handle endpoint'))
              apply commutes_bind (commutes_limitSize endpoint' _ _)
              intro assembly hok
              split
              · exact commutes_modify rfl
              · next hmore =>
                  split
                  · exact commutes_replenishCredit _ _
                  · next hdiscarding =>
                      exact absurd ⟨haborted, hmore, hdiscarding, hok⟩
                        (not_completes_of_none hcompleted htake)

/-- A transfer commutes with a change of the transactions if bringing the delivery that it
completes to its end does. -/
theorem commutes_onTransfer {transfer : Transfer} {payload : Bytes} {s : Serving}
    (h : ∀ endpoint assembly,
      s.session.completed? (.transfer transfer) payload = some (endpoint, assembly) →
      (complete endpoint assembly).Commutes (onLedger change)
        (s.onSession fun session => session.count.putEndpoint transfer.handle endpoint)) :
  (onTransfer transfer payload).Commutes (onLedger change) s
  := by
  by_cases hwindow : s.session.incomingWindow = 0
  · rw [Commutes, onTransfer, onTransfer, session_onLedger, incomingWindow_onLedger,
      if_pos hwindow, if_pos hwindow]
    rfl
  · have hreceive : (receive transfer payload).Commutes (onLedger change)
        (s.onSession (·.count)) := by
      cases hget : s.session.endpoints.get? transfer.handle with
      | none =>
          rw [Commutes, receive_of_none (by exact hget), receive_of_none (by exact hget)]
          rfl
      | some endpoint =>
          rw [Commutes, receive_of_some (by exact hget), receive_of_some (by exact hget)]
          split
          · rfl
          · split
            · next hdetached hreceives =>
                apply commutes_receiveOn
                intro endpoint' assembly hcompleted
                apply h
                rw [Session.completed?, if_neg hwindow, hget]
                dsimp only
                rw [if_neg (by simp [hdetached, hreceives]), hcompleted]
            · rfl
    have hcounted : receive transfer payload ((s.onLedger change).onSession (·.count))
        = mapState (onLedger change) (receive transfer payload (s.onSession (·.count))) := hreceive
    rw [Commutes, onTransfer_of_counted hwindow, onTransfer_of_counted (by exact hwindow), hcounted]
    cases receive transfer payload (s.onSession (·.count)) with
    | ok _ s' => exact congrArg (EStateM.Result.ok ()) (replenishWindow_onLedger s')
    | error fault s' => exact congrArg (EStateM.Result.error fault) (replenishWindow_onLedger s')

/-! ### Attaching and detaching -/

theorem commutes_detachWith (handle : UInt32) (report : ErrorReport) (s : Serving) :
  (detachWith handle report).Commutes (onLedger change) s
  := by
  apply commutes_get_bind rfl
  split
  · rfl
  · split
    · rfl
    · dsimp only
      apply commutes_onSession
      split
      all_goals
        split <;> rfl

theorem commutes_onDetach (detach : Detach) (s : Serving) :
  (onDetach detach).Commutes (onLedger change) s
  := by
  apply commutes_get_bind rfl
  split
  · rfl
  · apply commutes_bind (commutes_onSession rfl)
    intro _ _
    split
    · exact commutes_onSession rfl
    · rfl

theorem commutes_refuseAttach (link : Link) (report : ErrorReport) (s : Serving) :
  (refuseAttach link report).Commutes (onLedger change) s
  := by
  rw [refuseAttach]
  obtain ⟨reply, link⟩ := Link.sendAttach _
  apply commutes_bind (commutes_onSession rfl)
  intro _ _
  exact commutes_detachWith _ report _

theorem commutes_acceptAttach (link : Link) (kind : EndpointKind) (s : Serving) :
  (acceptAttach link kind).Commutes (onLedger change) s
  := by
  rw [acceptAttach]
  obtain ⟨reply, link⟩ := Link.sendAttach _
  apply commutes_bind (commutes_onSession rfl)
  intro _ _
  generalize (onSession _).after s = s
  split
  · apply commutes_modify
    apply onSession_onLedger
    exact emitLinkFlow_onLedger change (s.session.putEndpoint link.handle _) s.store link.handle
  · exact commutes_onSession rfl

theorem commutes_onAttach (attach : Attach) (s : Serving) :
  (onAttach attach).Commutes (onLedger change) s
  := by
  apply commutes_get_bind rfl
  dsimp only
  split
  · rfl
  · split
    · exact commutes_acceptAttach _ _ s
    · exact commutes_refuseAttach _ _ s

/-! ### Flows -/

theorem commutes_onFlow (flow : Flow) (s : Serving) :
  (onFlow flow).Commutes (onLedger change) s
  := by
  rw [onFlow]
  apply commutes_bind (commutes_onSession rfl)
  intro _ _
  generalize (onSession _).after s = s
  split
  · dsimp only
    split
    · apply commutes_bind (commutes_onSession rfl)
      intro _ _
      exact commutes_modify (pumpAll_onLedger change _)
    · exact commutes_modify (pumpAll_onLedger change s)
  · next handle _ =>
      apply commutes_get_bind rfl
      split
      · rfl
      · next endpoint _ =>
          dsimp only
          have hecho (s : Serving) :
              (if flow.echo then
                modify fun s => s.onSession fun session => session.emitLinkFlow s.store handle
              else pure () : Operation Unit).Commutes (onLedger change) s := by
            split
            · apply commutes_modify
              exact onSession_onLedger change s (emitLinkFlow_onLedger change s.session _ _)
            · rfl
          split
          · apply commutes_bind (commutes_onSession rfl)
            intro _ _
            apply commutes_bind (commutes_modify (pump_onLedger change _ handle))
            intro _ _
            exact hecho _
          · exact hecho s

end Operation

end Apart

end MessageBroker
