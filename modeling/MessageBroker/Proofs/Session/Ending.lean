import MessageBroker.Proofs.Queue.Deeds
import MessageBroker.Proofs.Session.Apart
import MessageBroker.Proofs.Session.Handling

/-!
# Ends of transactions and of sessions

A transaction ends when the peer has it discharged, or with its session.  What is done to the
queues then is a run of deeds: the work of the transaction in success, and otherwise the messages
that it was to take out given back as failed.  At the end of a session its unsettled deliveries
are given back first.
-/

namespace MessageBroker

/-! ### Deeds of transactions -/

/-- What becomes of work at the end of its transaction. -/
def Work.deed? (fail : Bool) : Work → Option Deed
  | .enqueue queue payload => if fail then none else some (.arrive queue payload)
  | .dequeue queue entry =>
    some (if fail then .giveBack (queue, entry) true else .take (queue, entry))

/-- What is done to the queues at the end of a transaction. -/
def Transaction.deeds (fail : Bool) (transaction : Transaction) : List Deed :=
  transaction.work.filterMap (Work.deed? fail)

/-- The work of a transaction is done or undone by its deeds. -/
theorem Ledger.settle_eq_performAll (fail : Bool) (work : List Work) (store : QueueStore) :
  Ledger.settle fail work store = Deed.performAll (work.filterMap (Work.deed? fail)) store
  := by
  induction work generalizing store with
  | nil => rfl
  | cons first work ih =>
      cases first with
      | enqueue queue payload => cases fail <;> exact ih _
      | dequeue queue entry => cases fail <;> exact ih _

/-- The deeds of a transaction are done to the messages that it holds. -/
theorem Transaction.filterMap_deeds (fail : Bool) (transaction : Transaction) :
  (transaction.deeds fail).filterMap Deed.place? = transaction.work.filterMap Work.place?
  := by
  rw [Transaction.deeds, List.filterMap_filterMap]
  apply List.filterMap_congr
  intro work _
  cases work with
  | enqueue queue payload => cases fail <;> rfl
  | dequeue queue entry => cases fail <;> rfl

/-! ### What transactions leave -/

/-- The message that is to be put into a queue, and that queue. -/
def Work.message? : Work → Option (QueueId × Bytes)
  | .enqueue queue payload => some (queue, payload)
  | .dequeue _ _ => none

namespace Transaction

/-- The messages that are to be put into queues, in the order they were recorded. -/
def messages (transaction : Transaction) : List (QueueId × Bytes) :=
  transaction.work.filterMap Work.message?

/-- The places of the messages that are to be taken out, in the order they were recorded. -/
def taken (transaction : Transaction) : List Place :=
  transaction.work.filterMap Work.place?

/-- The queue with a number after a transaction succeeded: the messages that were taken are gone,
and those that were recorded come at the end. -/
def committed (transaction : Transaction) (id : QueueId) (queue : Queue) : Queue :=
  Queue.arrive transaction.messages id
    { queue with
      slots := queue.slots.filter fun slot => (id, slot.entry.id) ∉ transaction.taken }

/-- The queue with a number after a transaction failed: the messages that were taken are given
back as failed, to their slots or where they go on to, and those that were recorded are dropped. -/
def rolledBack (transaction : Transaction) (store : QueueStore) (id : QueueId) (queue : Queue) :
    Queue :=
  Queue.arrive (transaction.taken.filterMap (store.onward? · true)) id
    { queue with
      slots := queue.slots.filterMap fun slot =>
        if (id, slot.entry.id) ∈ transaction.taken then
          Queue.slotAfter queue.policy slot.entry true
        else some slot }

/-- What the deeds of a transaction leave of a slot. -/
theorem leftOf_deeds (transaction : Transaction) (fail : Bool) (id : QueueId)
    (policy : RedeliveryPolicy) (slot : Slot) :
  Queue.leftOf (transaction.deeds fail) id policy slot
    = if (id, slot.entry.id) ∈ transaction.taken then
        if fail then Queue.slotAfter policy slot.entry true else none
      else some slot
  := by
  obtain ⟨name, work⟩ := transaction
  rw [deeds, taken]
  dsimp only
  induction work with
  | nil => rfl
  | cons first work ih =>
      cases first with
      | enqueue queue payload =>
          rw [List.filterMap_cons_none (f := Work.place?) rfl, ← ih]
          cases fail <;> rfl
      | dequeue queue entry =>
          rw [List.filterMap_cons_some (f := Work.place?) (b := (queue, entry)) rfl]
          by_cases h : (queue, entry) = (id, slot.entry.id)
          · rw [if_pos (by rw [h]; exact List.mem_cons_self)]
            cases fail <;> simp [Queue.leftOf, Work.deed?, Deed.place?, Deed.left, h]
          · have hmem : (id, slot.entry.id) ∈ (queue, entry) :: work.filterMap Work.place?
                ↔ (id, slot.entry.id) ∈ work.filterMap Work.place? := by
              simp [Ne.symm h]
            simp only [hmem]
            rw [← ih]
            cases fail <;> simp [Queue.leftOf, Work.deed?, Deed.place?, h]

theorem settled_committed (transaction : Transaction) (store : QueueStore) (id : QueueId)
    (queue : Queue) :
  queue.settled (transaction.deeds false) store id = transaction.committed id queue
  := by
  have harrivals : (transaction.deeds false).filterMap (·.arrival? store)
      = transaction.messages := by
    rw [deeds, List.filterMap_filterMap]
    apply List.filterMap_congr
    intro work _
    cases work <;> rfl
  rw [Queue.settled, committed, harrivals, Queue.leave, ← List.filterMap_eq_filter]
  congr 2
  apply List.filterMap_congr
  intro slot _
  rw [leftOf_deeds]
  by_cases h : (id, slot.entry.id) ∈ transaction.taken
  · simp [Option.guard, h]
  · simp [Option.guard, h]

theorem settled_rolledBack (transaction : Transaction) (store : QueueStore) (id : QueueId)
    (queue : Queue) :
  queue.settled (transaction.deeds true) store id = transaction.rolledBack store id queue
  := by
  have harrivals : (transaction.deeds true).filterMap (·.arrival? store)
      = transaction.taken.filterMap (store.onward? · true) := by
    rw [deeds, taken, List.filterMap_filterMap, List.filterMap_filterMap]
    apply List.filterMap_congr
    intro work _
    cases work <;> rfl
  rw [Queue.settled, rolledBack, harrivals, Queue.leave]
  congr 2
  apply List.filterMap_congr
  intro slot _
  rw [leftOf_deeds]
  rfl

end Transaction

/-- When every transaction fails, their deeds are done one after another. -/
theorem Ledger.rollbackAll_eq_performAll (ledger : Ledger) (store : QueueStore) :
  (ledger.rollbackAll store).2
    = Deed.performAll (ledger.opened.flatMap (Transaction.deeds true)) store
  := by
  rw [Ledger.rollbackAll]
  generalize ledger.opened = opened
  induction opened generalizing store with
  | nil => rfl
  | cons transaction opened ih =>
      dsimp only at ih ⊢
      rw [List.foldl_cons, ih, settle_eq_performAll, List.flatMap_cons, Deed.performAll,
        Deed.performAll, Deed.performAll, ← List.foldl_append]
      rfl

/-! ### Ends of sessions -/

namespace Session

/-- What is done to the queues at the end of a session. -/
def deedsAtEnd (session : Session) : List Deed :=
  session.outgoingUnsettled.rows.map (fun delivery => .giveBack delivery.place false)
    ++ session.transactions.opened.flatMap (Transaction.deeds true)

/-- The deeds at the end of a session are done to the messages that it holds. -/
theorem filterMap_deedsAtEnd (session : Session) :
  (↑(session.deedsAtEnd.filterMap Deed.place?) : Multiset Place) = session.places
  := by
  rw [deedsAtEnd, List.filterMap_append, ← Multiset.coe_add, places]
  congr 1
  · rw [List.filterMap_map, unsettledPlaces]
    exact congrArg _ (congrFun (List.filterMap_eq_map (f := OutgoingDelivery.place)) _)
  · rw [Ledger.places]
    induction session.transactions.opened with
    | nil => rfl
    | cons transaction opened ih =>
        rw [List.flatMap_cons, List.filterMap_append, ← Multiset.coe_add, ih,
          Transaction.filterMap_deeds]
        rfl

end Session

namespace Serving

theorem releaseAll_eq_performAll (counted : Bool) (deliveries : List OutgoingDelivery)
    (store : QueueStore) :
  (releaseAll counted deliveries store).2
    = Deed.performAll (deliveries.map fun delivery => .giveBack delivery.place counted) store
  := by
  induction deliveries generalizing store with
  | nil => rfl
  | cons delivery deliveries ih => exact ih _

/-- The end of a session does the deeds of its deliveries and then those of its transactions. -/
theorem store_finish (s : Serving) :
  s.finish.store = Deed.performAll s.session.deedsAtEnd s.store
  := by
  change (s.session.transactions.rollbackAll (releaseAll false _ s.store).2).2 = _
  rw [Ledger.rollbackAll_eq_performAll, releaseAll_eq_performAll, Session.deedsAtEnd,
    Deed.performAll, Deed.performAll, Deed.performAll, List.foldl_append]

end Serving

/-! ### Controls -/

open Session

/-- A control is that of a complete delivery to the coordinator. -/
theorem Session.control?_eq_some {session : Session} {p : Performative} {payload : Bytes}
    {control : TransactionControl} (h : session.control? p payload = some control) :
  ∃ transfer endpoint assembly, p = .transfer transfer
    ∧ session.completed? (.transfer transfer) payload = some (endpoint, assembly)
    ∧ endpoint.kind = .coordinator ∧ Operation.controlOf assembly.payload = .ok control
  := by
  rw [control?] at h
  split at h
  · next endpoint assembly hcompleted =>
      split at h
      · next hkind =>
          cases p with
          | transfer transfer =>
              refine ⟨transfer, endpoint, assembly, rfl, hcompleted, hkind, ?_⟩
              cases hcontrol : Operation.controlOf assembly.payload with
              | ok found =>
                  rw [hcontrol] at h
                  rw [Option.some.inj h]
              | error error =>
                  rw [hcontrol] at h
                  contradiction
          | _ => contradiction
      · contradiction
  · contradiction

namespace Operation

/-- A control is carried out, and all else is quiet. -/
theorem quiet_of_control {s : Serving} {transfer : Transfer} {payload : Bytes}
    {endpoint : Endpoint} {assembly : Assembly} {control : TransactionControl}
    (completed : s.session.completed? (.transfer transfer) payload = some (endpoint, assembly))
    (kind : endpoint.kind = .coordinator) (h : controlOf assembly.payload = .ok control) :
  ((coordinate endpoint control).after
      (s.onSession fun session => session.count.putEndpoint transfer.handle endpoint)).Quiet
    ((handle (.transfer transfer) payload).after s)
  := by
  have hcomplete (s' : Serving) :
      ((coordinate endpoint control).after s').Quiet ((complete endpoint assembly).after s') := by
    rw [complete, kind]
    dsimp only
    rw [carryOutControl, h]
    dsimp only
    apply after_bind (.refl _)
    intro state _
    rw [after_onSession]
    exact .onSession (Quiet.trans (quiet_settle _ _ _) (quiet_tell _ _))
  apply Serving.Quiet.trans (hcomplete _)
  exact (quiet_of_completed completed).trans (quiet_handle (.transfer transfer) payload s)

variable {s : Serving} {p : Performative} {payload : Bytes}

/-- A transaction is declared. -/
theorem handle_of_declare {globalId : Option Value}
    (h : s.session.control? p payload = some (.declare globalId)) :
  ((handle p payload).after s).session.transactions = s.session.transactions.declare.2
    ∧ ((handle p payload).after s).store = s.store
  := by
  obtain ⟨transfer, endpoint, assembly, rfl, hcompleted, hkind, hcontrol⟩ :=
    control?_eq_some h
  have hquiet := quiet_of_control hcompleted hkind hcontrol
  exact ⟨hquiet.session.transactions, hquiet.store⟩

/-- An open transaction is discharged. -/
theorem handle_of_discharge {id : Bytes} {fail : Bool}
    (h : s.session.control? p payload = some (.discharge id fail)) {transaction : Transaction}
    (found : s.session.transactions.find? id = some transaction) :
  ((handle p payload).after s).session.transactions = s.session.transactions.remove id
    ∧ ((handle p payload).after s).store = Deed.performAll (transaction.deeds fail) s.store
  := by
  obtain ⟨transfer, endpoint, assembly, rfl, hcompleted, hkind, hcontrol⟩ :=
    control?_eq_some h
  have hquiet := quiet_of_control hcompleted hkind hcontrol
  have hdischarge : s.session.transactions.discharge s.store id fail
      = .ok (Ledger.summary fail transaction.work, s.session.transactions.remove id,
          Ledger.settle fail transaction.work s.store) := by
    rw [Ledger.discharge, found]
  have hcoordinate : (coordinate endpoint (.discharge id fail)).after
      (s.onSession fun session => session.count.putEndpoint transfer.handle endpoint)
      = ⟨{ s.session.count.putEndpoint transfer.handle endpoint with
            transactions := s.session.transactions.remove id },
          Ledger.settle fail transaction.work s.store⟩ := by
    rw [coordinate, after_get_bind]
    dsimp only [Serving.onSession, count, putEndpoint]
    rw [hdischarge]
    rfl
  rw [hcoordinate] at hquiet
  refine ⟨hquiet.session.transactions, ?_⟩
  rw [hquiet.store, Transaction.deeds, ← Ledger.settle_eq_performAll]

end Operation

/-! ### What stays open -/

namespace Ledger

variable {ledger : Ledger} {id : Bytes}

theorem contains_declare (h : ledger.contains id = true) :
  ledger.declare.2.contains id = true
  := by
  obtain ⟨transaction, hfind⟩ := Option.isSome_iff_exists.mp h
  apply Option.isSome_iff_ne_none.mpr
  intro hnone
  have hne := find?_eq_none_iff.mp hnone
  have hid := id_of_find? hfind
  by_cases hname : ledger.declare.1 = id
  · exact hne ⟨ledger.declare.1, []⟩ (List.mem_append_right _ List.mem_cons_self) hname
  · apply hne transaction _ hid
    apply List.mem_append_left
    apply List.mem_filter.mpr
    refine ⟨mem_of_find? hfind, ?_⟩
    rw [hid]
    exact decide_eq_true (Ne.symm hname)

theorem contains_remove {other : Bytes} (h : other ≠ id) :
  (ledger.remove other).contains id = ledger.contains id
  := by
  rw [contains, contains, find?_remove, if_neg (Ne.symm h)]

end Ledger

namespace Operation

/-- What commutes with every change of the transactions does not change them. -/
theorem transactions_of_commutes {α : Type} {op : Operation α} {s : Serving}
    (h : ∀ change, op.Commutes (Serving.onLedger change) s) :
  (op.after s).session.transactions = s.session.transactions
  := by
  have hafter := (h fun _ => s.session.transactions).after
  change op.after s = _ at hafter
  rw [hafter]
  rfl

theorem transactions_pumpAll (s : Serving) :
  s.pumpAll.session.transactions = s.session.transactions
  := by
  have hcommutes (change : Ledger → Ledger) :
      (modify Serving.pumpAll : Operation Unit).Commutes (Serving.onLedger change) s :=
    commutes_modify (Serving.pumpAll_onLedger change s)
  exact transactions_of_commutes hcommutes

/-! ### What the transactions go through -/

section Ledger

variable {P : Ledger → Prop}

/-- What lasts when a message to be taken out is recorded lasts when outcomes are carried out. -/
theorem ledger_carryOutEach
    (taken : ∀ ledger id queue entry, P ledger →
      P (ledger.onWork id (· ++ [.dequeue queue entry])))
    {decided : List (UInt32 × OutgoingDelivery × DeliveryState)} {s : Serving}
    (h : P s.session.transactions) :
  P ((carryOutEach decided).after s).session.transactions
  := by
  have htake (delivery : OutgoingDelivery) (transaction : Bytes) (s : Serving)
      (h : P s.session.transactions) :
      P ((take delivery transaction).after s).session.transactions := by
    rw [take, after_get_bind]
    cases hrecord : s.session.transactions.record transaction
        (.dequeue delivery.queue delivery.entry) with
    | ok ledger =>
        simp only [hrecord]
        change P ledger
        rw [(Ledger.record_eq_ok hrecord).2]
        exact taken _ _ _ _ h
    | error report =>
        simp only [hrecord]
        exact h
  revert h
  apply related_carryOutEach
    (motive := fun s s' => P s.session.transactions → P s'.session.transactions)
  · exact fun _ => id
  · exact fun before after h => after (before h)
  · exact fun _ _ => id
  · intro delivery outcome s
    rcases carryOut_cases delivery outcome with h | ⟨counted, h⟩ | ⟨transaction, h⟩
    · rw [h]
      exact id
    · rw [h]
      exact id
    · rw [h]
      exact htake delivery transaction s

theorem ledger_onDisposition
    (taken : ∀ ledger id queue entry, P ledger →
      P (ledger.onWork id (· ++ [.dequeue queue entry])))
    {disposition : Disposition} {s : Serving} (h : P s.session.transactions) :
  P ((onDisposition disposition).after s).session.transactions
  := by
  rw [onDisposition]
  split
  · revert h
    apply related_onReceiverDisposition
      (motive := fun s s' => P s.session.transactions → P s'.session.transactions)
    · exact fun _ => id
    · exact fun before after h => after (before h)
    · exact ledger_carryOutEach taken
    · exact fun _ => id
    · intro s h
      rw [transactions_pumpAll]
      exact h
  · rw [after_onSession]
    have hquiet := s.session.quiet_onSenderDisposition disposition
    change P (s.session.onSenderDisposition disposition).transactions
    rw [hquiet.transactions]
    exact h

/-- What lasts when a delivery is recorded lasts when it is put into its queue. -/
theorem ledger_deliver {endpoint : Endpoint} {queue : QueueId} {assembly : Assembly}
    (put : ∀ ledger id, P ledger → P (ledger.onWork id (· ++ [.enqueue queue assembly.payload])))
    {s : Serving} (h : P s.session.transactions) :
  P ((deliver endpoint queue assembly).after s).session.transactions
  := by
  have hrefuse (report : ErrorReport) :
      P ((refuse endpoint assembly report).after s).session.transactions := by
    rw [(quiet_refuse endpoint assembly report s).session.transactions]
    exact h
  rw [deliver, after_get_bind]
  dsimp only
  split
  · exact h
  · split
    · exact hrefuse _
    · split
      · split
        · exact hrefuse _
        · next ledger hrecord =>
            rw [after_onSession_bind, (quiet_answer _ assembly _ _).session.transactions]
            change P ledger
            rw [(Ledger.record_eq_ok hrecord).2]
            exact put _ _ h
      · rw [after_onStore_bind, (quiet_answer _ assembly _ _).session.transactions]
        exact h

theorem ledger_coordinate {endpoint : Endpoint} {control : TransactionControl}
    (declared : ∀ ledger, P ledger → P ledger.declare.2)
    (discharged : ∀ ledger id fail, control = .discharge id fail → P ledger →
      P (ledger.remove id))
    {s : Serving} (h : P s.session.transactions) :
  P ((coordinate endpoint control).after s).session.transactions
  := by
  rw [coordinate, after_get_bind]
  cases control with
  | declare globalId => exact declared _ h
  | discharge id fail =>
      dsimp only
      rw [Ledger.discharge]
      cases s.session.transactions.find? id with
      | some transaction => exact discharged _ id fail rfl h
      | none =>
          dsimp only
          split
          · exact h
          · exact h

/-- What the transactions of a session go through on a performative of the peer: messages to be
taken out are recorded, or a delivery to a queue is, or a transaction is declared or comes to its
end. -/
theorem ledger_handle {p : Performative} {payload : Bytes} {s : Serving}
    (taken : ∀ ledger id queue entry, P ledger →
      P (ledger.onWork id (· ++ [.dequeue queue entry])))
    (put : ∀ endpoint assembly queue, s.session.completed? p payload = some (endpoint, assembly) →
      endpoint.kind = .receiving queue → ∀ ledger id, P ledger →
        P (ledger.onWork id (· ++ [.enqueue queue assembly.payload])))
    (declared : ∀ ledger, P ledger → P ledger.declare.2)
    (discharged : ∀ ledger id fail, s.session.control? p payload = some (.discharge id fail) →
      P ledger → P (ledger.remove id))
    (h : P s.session.transactions) :
  P ((handle p payload).after s).session.transactions
  := by
  rw [(quiet_handle p payload s).session.transactions]
  cases p with
  | attach attach =>
      rw [dispatch, (quiet_onAttach attach s).session.transactions]
      exact h
  | flow flow =>
      rw [dispatch, transactions_of_commutes fun _ => commutes_onFlow flow s]
      exact h
  | transfer transfer =>
      rw [dispatch]
      cases hcompleted : s.session.completed? (.transfer transfer) payload with
      | none =>
          rw [(quiet_onTransfer hcompleted).session.transactions]
          exact h
      | some completed =>
          obtain ⟨endpoint, assembly⟩ := completed
          rw [(quiet_of_completed hcompleted).session.transactions, complete]
          split
          · next queue hkind => exact ledger_deliver (put _ _ _ hcompleted hkind) h
          · next hkind =>
              rw [carryOutControl]
              split
              · exact h
              · next control hcontrol =>
                  have hcoordinate : P ((coordinate endpoint control).after (s.onSession
                      fun session => session.count.putEndpoint transfer.handle endpoint)
                      ).session.transactions := by
                    refine ledger_coordinate (s := s.onSession fun session =>
                      session.count.putEndpoint transfer.handle endpoint) declared ?_ h
                    rintro ledger id fail rfl
                    apply discharged ledger id fail
                    rw [control?, hcompleted]
                    dsimp only
                    rw [if_pos hkind, hcontrol]
                    rfl
                  apply after_bind (motive := fun s => P s.session.transactions) hcoordinate
                  intro _ _
                  exact hcoordinate
          · exact h
  | disposition disposition => exact ledger_onDisposition taken h
  | detach detach =>
      rw [dispatch, (quiet_onDetach detach s).session.transactions]
      exact h
  | _ => exact h

end Ledger

/-- A transaction comes to its end only if it is discharged. -/
theorem contains_handle {p : Performative} {payload : Bytes} {s : Serving} {id : Bytes}
    (h : s.session.transactions.contains id = true)
    (lasts : ∀ fail, s.session.control? p payload ≠ some (.discharge id fail)) :
  ((handle p payload).after s).session.transactions.contains id = true
  := by
  apply ledger_handle (P := fun ledger => ledger.contains id = true) _ _ _ _ h
  · intro ledger other queue entry h
    rw [Ledger.contains_onWork]
    exact h
  · intro endpoint assembly queue _ _ ledger other h
    rw [Ledger.contains_onWork]
    exact h
  · exact fun ledger h => Ledger.contains_declare h
  · intro ledger other fail hcontrol h
    rw [Ledger.contains_remove]
    · exact h
    · rintro rfl
      exact lasts fail hcontrol

end Operation

end MessageBroker
