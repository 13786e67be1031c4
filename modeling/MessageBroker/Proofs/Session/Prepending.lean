import MessageBroker.Proofs.Session.Apart

/-!
# Sessions and work recorded earlier

Whatever is done with a session, it is all the same whether work is put in front of that of a
transaction before or after, as long as the transaction does not end and none of its name is
declared.
-/

namespace MessageBroker

open Serving Session

/-- A control neither ends a transaction nor declares one of its name. -/
def TransactionControl.Spares (id : Bytes) (ledger : Ledger) : TransactionControl → Prop
  | .declare _ => ledger.declare.1 ≠ id
  | .discharge other _ => other ≠ id

/-- A session with work put in front of that of a transaction. -/
def Session.prepend (id : Bytes) (work : List Work) (session : Session) : Session :=
  session.onLedger (Ledger.prepend id work)

/-- A session at work with work put in front of that of a transaction. -/
abbrev Serving.prepend (id : Bytes) (work : List Work) (s : Serving) : Serving :=
  s.onLedger (Ledger.prepend id work)

namespace Operation

variable {id : Bytes} {work : List Work}

/-! ### Outcomes -/

theorem commutes_take (delivery : OutgoingDelivery) (transaction : Bytes) (s : Serving) :
  (take delivery transaction).Commutes (Serving.prepend id work) s
  := by
  rw [Commutes, take, run_get_bind, run_get_bind]
  dsimp only [session_onLedger, transactions_onLedger]
  rw [Ledger.record_prepend]
  cases s.session.transactions.record transaction (.dequeue delivery.queue delivery.entry) with
  | ok ledger => rfl
  | error report => rfl

theorem commutes_carryOut (delivery : OutgoingDelivery) (outcome : DeliveryState) (s : Serving) :
  (carryOut delivery outcome).Commutes (Serving.prepend id work) s
  := by
  rcases carryOut_cases delivery outcome with h | ⟨counted, h⟩ | ⟨transaction, h⟩
  · rw [h]
    rfl
  · rw [h]
    rfl
  · rw [h]
    exact commutes_take delivery transaction s

theorem commutes_carryOutEach (decided : List (UInt32 × OutgoingDelivery × DeliveryState))
    (s : Serving) :
  (carryOutEach decided).Commutes (Serving.prepend id work) s
  := by
  induction decided generalizing s with
  | nil => rfl
  | cons row others ih =>
      obtain ⟨number, delivery, outcome⟩ := row
      apply commutes_bind (commutes_onSession rfl)
      intro _ _
      apply commutes_bind (commutes_carryOut delivery outcome _)
      intro _ _
      exact ih _

theorem commutes_onReceiverDisposition (disposition : Disposition) (s : Serving) :
  (onReceiverDisposition disposition).Commutes (Serving.prepend id work) s
  := by
  rw [onReceiverDisposition]
  split
  · rfl
  · apply commutes_get_bind rfl
    dsimp only
    apply commutes_bind (commutes_carryOutEach _ s)
    intro _ _
    split
    · apply commutes_bind (commutes_onSession rfl)
      intro _ _
      exact commutes_modify (pumpAll_onLedger _ _)
    · exact commutes_modify (pumpAll_onLedger _ _)

theorem commutes_onDisposition (disposition : Disposition) (s : Serving) :
  (onDisposition disposition).Commutes (Serving.prepend id work) s
  := by
  rw [onDisposition]
  split
  · exact commutes_onReceiverDisposition disposition s
  · exact commutes_onSession (onSenderDisposition_onLedger _ s.session disposition)

/-! ### Complete deliveries -/

theorem commutes_deliver (endpoint : Endpoint) (queue : QueueId) (assembly : Assembly)
    (s : Serving) :
  (deliver endpoint queue assembly).Commutes (Serving.prepend id work) s
  := by
  rw [Commutes, deliver, run_get_bind, run_get_bind]
  dsimp only [session_onLedger, transactions_onLedger, limits_onLedger]
  cases MessageSections.parse assembly.payload with
  | error error => rfl
  | ok sections =>
      dsimp only
      by_cases hdurable : (sections.durable && !s.session.limits.persistence) = true
      · refine (congrFun (if_pos hdurable) _).trans ?_
        rw [if_pos hdurable]
        exact commutes_refuse endpoint assembly _ s
      · refine (congrFun (if_neg hdurable) _).trans ?_
        rw [if_neg hdurable]
        cases assembly.state.bind DeliveryState.transaction? with
        | some transaction =>
            dsimp only
            rw [Ledger.record_prepend]
            cases s.session.transactions.record transaction (.enqueue queue assembly.payload) with
            | ok ledger =>
                exact commutes_answer _ assembly _ (s.onSession ({ · with transactions := ledger }))
            | error report => exact commutes_refuse endpoint assembly report s
        | none =>
            exact commutes_answer _ assembly _
              (s.onStore fun store => (store.enqueue queue assembly.payload).2)

/-- A control that spares a transaction takes no notice of its work. -/
theorem commutes_coordinate (endpoint : Endpoint) {control : TransactionControl} {s : Serving}
    (spares : control.Spares id s.session.transactions) :
  (coordinate endpoint control).Commutes (Serving.prepend id work) s
  := by
  rw [Commutes, coordinate, run_get_bind, run_get_bind]
  cases control with
  | declare globalId =>
      dsimp only [session_onLedger, transactions_onLedger]
      rw [Ledger.declare_prepend spares]
      rfl
  | discharge other fail =>
      dsimp only [session_onLedger, transactions_onLedger, store_onLedger]
      rw [Ledger.discharge_prepend spares]
      cases s.session.transactions.discharge s.store other fail with
      | ok done => rfl
      | error report =>
          dsimp only [Except.map]
          split <;> rfl

theorem commutes_carryOutControl (endpoint : Endpoint) (assembly : Assembly) {s : Serving}
    (spares : ∀ control, controlOf assembly.payload = .ok control →
      control.Spares id s.session.transactions) :
  (carryOutControl endpoint assembly).Commutes (Serving.prepend id work) s
  := by
  rw [carryOutControl]
  split
  · rfl
  · next control hcontrol =>
      apply commutes_bind (commutes_coordinate endpoint (spares control hcontrol))
      intro _ _
      exact commutes_onSession rfl

theorem commutes_complete (endpoint : Endpoint) (assembly : Assembly) {s : Serving}
    (spares : ∀ control, endpoint.kind = .coordinator →
      controlOf assembly.payload = .ok control → control.Spares id s.session.transactions) :
  (complete endpoint assembly).Commutes (Serving.prepend id work) s
  := by
  rw [complete]
  split
  · exact commutes_deliver endpoint _ assembly s
  · next hkind => exact commutes_carryOutControl endpoint assembly fun control => spares control hkind
  · rfl

/-! ### All performatives -/

/-- Whatever the peer sends takes no notice of the work of a transaction that it spares. -/
theorem commutes_dispatch (p : Performative) (payload : Bytes) {s : Serving}
    (spares : ∀ control, s.session.control? p payload = some control →
      control.Spares id s.session.transactions) :
  (dispatch p payload).Commutes (Serving.prepend id work) s
  := by
  cases p with
  | attach attach => exact commutes_onAttach attach s
  | flow flow => exact commutes_onFlow flow s
  | transfer transfer =>
      apply commutes_onTransfer
      intro endpoint assembly hcompleted
      apply commutes_complete
      intro control hkind hcontrol
      apply spares
      rw [control?, hcompleted]
      dsimp only
      rw [if_pos hkind, hcontrol]
      rfl
  | disposition disposition => exact commutes_onDisposition disposition s
  | detach detach => exact commutes_onDetach detach s
  | _ => rfl

theorem commutes_handle (p : Performative) (payload : Bytes) {s : Serving}
    (spares : ∀ control, s.session.control? p payload = some control →
      control.Spares id s.session.transactions) :
  (handle p payload).Commutes (Serving.prepend id work) s
  := by
  have hdispatch : dispatch p payload (s.prepend id work)
      = mapState (Serving.prepend id work) (dispatch p payload s) :=
    commutes_dispatch p payload spares
  rw [Commutes, handle, handle, hdispatch]
  cases dispatch p payload s with
  | ok _ s' => rfl
  | error fault s' =>
      cases fault with
      | link handle report => exact commutes_detachWith handle report s'
      | _ => rfl

end Operation

end MessageBroker
