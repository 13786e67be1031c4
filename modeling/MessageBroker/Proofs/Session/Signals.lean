import MessageBroker.Proofs.Queue.Signals
import MessageBroker.Proofs.Session.Receiving

/-!
# Signals of sessions

Whatever is done with a session, no message becomes available in the queues without a signal.  When
it only sends what waits, nothing becomes available at all.
-/

namespace MessageBroker

open Session

namespace Serving

/-! ### Sending -/

theorem dwindles_send (s : Serving) (handle : UInt32) {endpoint : Endpoint} {pick : Endpoint.Pick}
    (h : endpoint.pick? s.store = some pick) :
  s.store.Dwindles (s.send handle endpoint pick).store
  := by
  rw [send]
  dsimp only
  rcases Endpoint.pick?_eq_some h with ⟨hcopied, hstore⟩ | ⟨-, hacquire⟩
  · rw [hcopied, hstore, Bool.not_true, Bool.and_false]
    apply QueueStore.Dwindles.refl
  · have acquired := s.store.dwindles_acquire pick.queue
    rw [hacquire] at acquired
    split
    · apply acquired.trans
      apply QueueStore.dwindles_acknowledge
    · exact acquired

theorem dwindles_sendNext? {s s' : Serving} {handle : UInt32} (h : s.sendNext? handle = some s') :
  s.store.Dwindles s'.store
  := by
  obtain ⟨endpoint, pick, -, hpick, -, -, rfl⟩ := sendNext?_eq_some h
  exact s.dwindles_send handle hpick

theorem dwindles_giveBackCredit (s : Serving) (handle : UInt32) :
  s.store.Dwindles (s.giveBackCredit handle).store
  := by
  rw [(s.quiet_giveBackCredit handle).store]
  apply QueueStore.Dwindles.refl

theorem dwindles_pump (s : Serving) (handle : UInt32) :
  s.store.Dwindles (s.pump handle).store
  := by
  revert s
  apply related_pump (motive := fun s s' => s.store.Dwindles s'.store)
  · exact fun s => .refl s.store
  · exact .trans
  · exact dwindles_sendNext?
  · exact fun s => s.dwindles_giveBackCredit handle

theorem dwindles_pumpAll (s : Serving) :
  s.store.Dwindles s.pumpAll.store
  := by
  revert s
  apply related_pumpAll (motive := fun s s' => s.store.Dwindles s'.store)
  · exact fun s => .refl s.store
  · exact .trans
  · exact dwindles_pump

/-! ### Everything else -/

/-- In a store whose queues are all listed, a message became available only if there was a
signal. -/
structure Signals (s s' : Serving) : Prop where
  /-- The queues changed with signals. -/
  store : s.store.Listed → s.store.Signals s'.store

variable {s s' s'' : Serving}

theorem Signals.of_store (h : s'.store = s.store) :
  s.Signals s'
  := by
  constructor
  intro listed
  rw [h]
  apply QueueStore.Signals.refl listed

theorem Signals.refl (s : Serving) :
  s.Signals s
  := .of_store rfl

theorem Signals.of_quiet (quiet : s.Quiet s') :
  s.Signals s'
  := .of_store quiet.store

theorem Signals.of_dwindles (h : s.store.Dwindles s'.store) :
  s.Signals s'
  := ⟨h.signals⟩

theorem Signals.trans (h : s.Signals s') (h' : s'.Signals s'') :
  s.Signals s''
  := by
  constructor
  intro listed
  have first := h.store listed
  apply first.trans (h'.store first.listed)

theorem signals_pumpAll (s : Serving) :
  s.Signals s.pumpAll
  := .of_dwindles s.dwindles_pumpAll

theorem signals_releaseAll (counted : Bool) (deliveries : List OutgoingDelivery)
    {store : QueueStore} (listed : store.Listed) :
  store.Signals (releaseAll counted deliveries store).2
  := by
  induction deliveries generalizing store with
  | nil => apply QueueStore.Signals.refl listed
  | cons delivery deliveries ih =>
      have first := QueueStore.signals_release listed delivery.queue delivery.entry counted
      apply first.trans (ih first.listed)

/-- The end of a transaction signals what becomes available by it. -/
theorem signals_settle (fail : Bool) (work : List Work) {store : QueueStore}
    (listed : store.Listed) :
  store.Signals (Ledger.settle fail work store)
  := by
  induction work generalizing store with
  | nil => apply QueueStore.Signals.refl listed
  | cons first work ih =>
      have one : store.Signals ((if fail then Ledger.revert else Ledger.perform) store first) := by
        cases fail with
        | true =>
            cases first with
            | enqueue => apply QueueStore.Signals.refl listed
            | dequeue queue entry => apply QueueStore.signals_release listed
        | false =>
            cases first with
            | enqueue queue payload => apply QueueStore.signals_enqueue listed
            | dequeue queue entry =>
                apply (store.dwindles_acknowledge queue entry).signals listed
      apply one.trans (ih one.listed)

theorem signals_rollbackAll (ledger : Ledger) {store : QueueStore} (listed : store.Listed) :
  store.Signals (ledger.rollbackAll store).2
  := by
  rw [Ledger.rollbackAll]
  dsimp only
  induction ledger.opened generalizing store with
  | nil => apply QueueStore.Signals.refl listed
  | cons transaction opened ih =>
      have first := signals_settle true transaction.work listed
      apply first.trans (ih first.listed)

theorem signals_finish (s : Serving) :
  s.Signals s.finish
  := by
  constructor
  intro listed
  have released := signals_releaseAll false s.session.outgoingUnsettled.rows listed
  apply released.trans
  apply signals_rollbackAll s.session.transactions released.listed

end Serving

namespace Operation

open Serving

/-! ### Dispositions -/

theorem signals_giveBack (delivery : OutgoingDelivery) (counted : Bool) (s : Serving) :
  s.Signals ((giveBack delivery counted).after s)
  := by
  constructor
  intro listed
  apply QueueStore.signals_release listed

theorem signals_take (delivery : OutgoingDelivery) (transaction : Bytes) (s : Serving) :
  s.Signals ((take delivery transaction).after s)
  := by
  rw [take, after_get_bind]
  dsimp only
  split
  · exact .of_store rfl
  · apply signals_giveBack delivery false

theorem signals_carryOut (delivery : OutgoingDelivery) (outcome : DeliveryState) (s : Serving) :
  s.Signals ((carryOut delivery outcome).after s)
  := by
  rcases carryOut_cases delivery outcome with h | ⟨counted, h⟩ | ⟨transaction, h⟩
  · rw [h]
    exact .of_dwindles (s.store.dwindles_acknowledge _ _)
  · rw [h]
    exact signals_giveBack delivery counted s
  · rw [h]
    exact signals_take delivery transaction s

theorem signals_carryOutEach (decided : List (UInt32 × OutgoingDelivery × DeliveryState))
    (s : Serving) :
  s.Signals ((carryOutEach decided).after s)
  := by
  apply related_carryOutEach .refl .trans
  · exact fun s id => .of_store rfl
  · exact signals_carryOut

theorem signals_onDisposition (disposition : Disposition) (s : Serving) :
  s.Signals ((onDisposition disposition).after s)
  := by
  rw [onDisposition]
  split
  · apply related_onReceiverDisposition .refl .trans
    · exact signals_carryOutEach _ s
    · exact fun s => .of_store rfl
    · exact signals_pumpAll
  · exact .of_store rfl

/-! ### Transfers -/

/-- To account for deliveries from the peer leaves the queues as they are. -/
theorem reckons_signals :
  Serving.Reckons Serving.Signals
  where
  refl := .refl
  trans := .trans
  settles _ _ _ := .of_store rfl
  tells _ _ := .of_store rfl
  awaits _ _ := .of_store rfl

/-- The end of a transaction changes the queues by the work that was recorded. -/
theorem signals_discharge {s : Serving} {id : Bytes} {fail : Bool} {summary : DischargeSummary}
    {transactions : Ledger} {store : QueueStore}
    (h : s.session.transactions.discharge s.store id fail = .ok (summary, transactions, store)) :
  s.Signals ⟨{ s.session with transactions }, store⟩
  := by
  rw [Ledger.discharge] at h
  split at h
  · next found =>
      cases h
      exact ⟨fun listed => signals_settle fail _ listed⟩
  · contradiction

theorem signals_complete (endpoint : Endpoint) (assembly : Assembly) (s : Serving) :
  s.Signals ((complete endpoint assembly).after s)
  := by
  refine related_complete reckons_signals ?_ ?_ ?_ endpoint assembly s
  · exact fun _ _ => .of_store rfl
  · exact fun s queue message => ⟨fun listed => QueueStore.signals_enqueue listed queue message⟩
  · exact fun _ _ _ _ _ _ => signals_discharge

theorem signals_onTransfer (transfer : Transfer) (payload : Bytes) (s : Serving) :
  s.Signals ((onTransfer transfer payload).after s)
  := by
  cases h : s.session.completed? (.transfer transfer) payload with
  | none => apply Signals.of_quiet (quiet_onTransfer h)
  | some completed =>
      obtain ⟨endpoint, assembly⟩ := completed
      have counted : s.Signals (s.onSession fun session =>
          session.count.putEndpoint transfer.handle endpoint) := .of_store rfl
      apply (counted.trans (signals_complete endpoint assembly _)).trans
      apply Signals.of_quiet (quiet_of_completed h)

/-! ### All performatives -/

theorem signals_onFlow (flow : Flow) (s : Serving) :
  s.Signals ((onFlow flow).after s)
  := by
  apply related_onFlow .refl .trans
  · exact fun _ => .of_store rfl
  · exact fun _ _ _ _ _ => .of_store rfl
  · exact fun _ => .of_store rfl
  · exact fun _ _ => .of_store rfl
  · exact fun s handle => .of_dwindles (s.dwindles_pump handle)
  · exact signals_pumpAll

theorem signals_handle (p : Performative) (payload : Bytes) (s : Serving) :
  s.Signals ((handle p payload).after s)
  := by
  have dispatched : s.Signals ((dispatch p payload).after s) := by
    cases p with
    | attach attach => apply Signals.of_quiet (quiet_onAttach attach s)
    | flow flow => apply signals_onFlow
    | transfer transfer => apply signals_onTransfer
    | disposition disposition => apply signals_onDisposition
    | detach detach => apply Signals.of_quiet (quiet_onDetach detach s)
    | _ => apply Signals.refl
  apply dispatched.trans
  apply Signals.of_quiet (quiet_handle p payload s)

end Operation

end MessageBroker
