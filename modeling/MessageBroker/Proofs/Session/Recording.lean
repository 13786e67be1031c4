import MessageBroker.Proofs.Session.Answering

/-!
# What is recorded in transactions

A complete delivery to a queue that is part of an open transaction is recorded there, and so is
the message of a delivery that the peer takes in one; no queue changes for that.  What names a
transaction that is not open is reported to the peer, and changes no queue either.
-/

namespace MessageBroker

open Session

/-! ### Deliveries to queues -/

/-- A message that is durable is taken only by a broker that keeps it. -/
def MessageSections.Acceptable (limits : SessionLimits) (sections : MessageSections) : Prop :=
  (sections.durable && !limits.persistence) = false

namespace Operation

section Deliver

variable {endpoint : Endpoint} {queue : QueueId} {assembly : Assembly} {s : Serving}
  {sections : MessageSections}

/-- A message that is not part of a transaction is put into its queue. -/
theorem deliver_of_none (parsed : MessageSections.parse assembly.payload = .ok sections)
    (acceptable : sections.Acceptable s.session.limits)
    (plain : assembly.state.bind DeliveryState.transaction? = none) :
  deliver endpoint queue assembly s
    = answer endpoint.link.handle assembly .accepted
        (s.onStore fun store => (store.enqueue queue assembly.payload).2)
  := by
  rw [MessageSections.Acceptable] at acceptable
  rw [deliver, run_get_bind, parsed]
  dsimp only
  rw [if_neg (by simp [acceptable]), plain]
  rfl

/-- A message that is part of a transaction is recorded there, or refused. -/
theorem deliver_of_some (parsed : MessageSections.parse assembly.payload = .ok sections)
    (acceptable : sections.Acceptable s.session.limits) {transaction : Bytes}
    (part : assembly.state.bind DeliveryState.transaction? = some transaction) :
  deliver endpoint queue assembly s
    = match s.session.transactions.record transaction (.enqueue queue assembly.payload) with
      | .error report => refuse endpoint assembly report s
      | .ok ledger =>
        answer endpoint.link.handle assembly (.provisional transaction .accepted)
          (s.onSession ({ · with transactions := ledger }))
  := by
  rw [MessageSections.Acceptable] at acceptable
  rw [deliver, run_get_bind, parsed]
  dsimp only
  rw [if_neg (by simp [acceptable]), part]
  dsimp only
  cases s.session.transactions.record transaction (.enqueue queue assembly.payload) with
  | error report => rfl
  | ok ledger => rfl

end Deliver

variable {s : Serving} {transfer : Transfer} {payload : Bytes} {endpoint : Endpoint}
  {queue : QueueId} {assembly : Assembly} {sections : MessageSections} {id : Bytes}

/-- A message that is part of an open transaction is recorded, and no queue changes. -/
theorem handle_of_recorded
    (completed : s.session.completed? (.transfer transfer) payload = some (endpoint, assembly))
    (kind : endpoint.kind = .receiving queue)
    (parsed : MessageSections.parse assembly.payload = .ok sections)
    (acceptable : sections.Acceptable s.session.limits)
    (part : assembly.state.bind DeliveryState.transaction? = some id)
    (opened : s.session.transactions.contains id = true) :
  ((handle (.transfer transfer) payload).after s).session.transactions
      = s.session.transactions.onWork id (· ++ [.enqueue queue assembly.payload])
    ∧ ((handle (.transfer transfer) payload).after s).store = s.store
  := by
  have hquiet := (quiet_of_completed completed).trans (quiet_handle (.transfer transfer) payload s)
  have hrecord : s.session.transactions.record id (.enqueue queue assembly.payload)
      = .ok (s.session.transactions.onWork id (· ++ [.enqueue queue assembly.payload])) := by
    rw [Ledger.record, if_pos opened]
    rfl
  generalize s.session.transactions.onWork id (· ++ [.enqueue queue assembly.payload]) = ledger
    at hrecord ⊢
  obtain ⟨counted, hcounted⟩ : ∃ counted, counted = s.onSession fun session =>
      session.count.putEndpoint transfer.handle endpoint := ⟨_, rfl⟩
  have hledger : counted.session.transactions = s.session.transactions := by rw [hcounted]; rfl
  have hlimits : counted.session.limits = s.session.limits := by rw [hcounted]; rfl
  have hcomplete : (complete endpoint assembly).after counted
      = (answer endpoint.link.handle assembly (.provisional id .accepted)).after
          (counted.onSession ({ · with transactions := ledger })) := by
    rw [complete, kind]
    dsimp only
    rw [after, deliver_of_some parsed (by rw [hlimits]; exact acceptable) part, hledger, hrecord]
    rfl
  rw [← hcounted, hcomplete] at hquiet
  have hanswer := (quiet_answer endpoint.link.handle assembly (.provisional id .accepted) _).trans
    hquiet
  refine ⟨hanswer.session.transactions, ?_⟩
  rw [hanswer.store, hcounted]
  rfl

/-- A message that names a transaction that is not open changes no queue. -/
theorem handle_of_unknown {known : QueueId → Prop} (attached : s.session.Attached known)
    (completed : s.session.completed? (.transfer transfer) payload = some (endpoint, assembly))
    (kind : endpoint.kind = .receiving queue)
    (part : assembly.state.bind DeliveryState.transaction? = some id)
    (unknown : s.session.transactions.find? id = none) :
  ((handle (.transfer transfer) payload).after s).store = s.store
    ∧ ∀ sections, MessageSections.parse assembly.payload = .ok sections →
        sections.Acceptable s.session.limits →
        s.session.Reports transfer.handle assembly.id (Ledger.unknown id)
          ((handle (.transfer transfer) payload).after s).session
  := by
  have hrecord : s.session.transactions.record id (.enqueue queue assembly.payload)
      = .error (Ledger.unknown id) := by
    rw [Ledger.record, if_neg (by simp [Ledger.contains, unknown])]
  obtain ⟨counted, hcounted⟩ : ∃ counted, counted = s.onSession fun session =>
      session.count.putEndpoint transfer.handle endpoint := ⟨_, rfl⟩
  have hledger : counted.session.transactions = s.session.transactions := by rw [hcounted]; rfl
  have hlimits : counted.session.limits = s.session.limits := by rw [hcounted]; rfl
  have hcomplete : complete endpoint assembly = deliver endpoint queue assembly := by
    rw [complete, kind]
  constructor
  · have hquiet :=
      (quiet_of_completed completed).trans (quiet_handle (.transfer transfer) payload s)
    have hdeliver : ((deliver endpoint queue assembly).after counted).store = counted.store := by
      rw [deliver, after_get_bind]
      dsimp only
      rw [hledger]
      split
      · rfl
      · split
        · exact (quiet_refuse endpoint assembly _ counted).store
        · rw [part]
          dsimp only
          rw [hrecord]
          exact (quiet_refuse endpoint assembly _ counted).store
    have hstore := hquiet.store
    rw [← hcounted, hcomplete, hdeliver, hcounted] at hstore
    exact hstore
  · intro sections parsed acceptable
    have hrefuse : complete endpoint assembly counted
        = refuse endpoint assembly (Ledger.unknown id) counted := by
      rw [hcomplete, deliver_of_some parsed (by rw [hlimits]; exact acceptable) part, hledger,
        hrecord]
    apply (reports_of_completed attached completed hcounted _).2
    rw [hrefuse]
    exact refuse_eq endpoint assembly _ counted

/-- A control that names a transaction that is not open changes no queue. -/
theorem handle_of_unknown_control {known : QueueId → Prop} (attached : s.session.Attached known)
    {fail : Bool}
    (h : s.session.control? (.transfer transfer) payload = some (.discharge id fail))
    (unknown : s.session.transactions.find? id = none) :
  ((handle (.transfer transfer) payload).after s).store = s.store
    ∧ ∃ delivery, s.session.Reports transfer.handle delivery (Ledger.unknown id)
        ((handle (.transfer transfer) payload).after s).session
  := by
  obtain ⟨other, endpoint, assembly, htransfer, completed, kind, hcontrol⟩ := control?_eq_some h
  obtain rfl := Performative.transfer.inj htransfer
  obtain ⟨counted, hcounted⟩ : ∃ counted, counted = s.onSession fun session =>
      session.count.putEndpoint transfer.handle endpoint := ⟨_, rfl⟩
  have hledger : counted.session.transactions = s.session.transactions := by rw [hcounted]; rfl
  have hdischarge : counted.session.transactions.discharge counted.store id fail
      = .error (Ledger.unknown id) := by
    rw [Ledger.discharge, hledger, unknown]
  have hcomplete : complete endpoint assembly counted
        = .error (.link endpoint.link.handle (Ledger.unknown id)) counted
      ∨ complete endpoint assembly counted
        = .ok () (counted.onSession fun session =>
            (session.settle endpoint.link.handle assembly.id).tell
              ⟨assembly.id, true, .rejected (some (Ledger.unknown id))⟩) := by
    rw [complete, kind]
    dsimp only
    rw [carryOutControl, hcontrol]
    dsimp only
    rw [run_bind, coordinate, run_get_bind]
    dsimp only
    rw [hdischarge]
    dsimp only
    cases endpoint.link.supportsRejected with
    | true => exact .inr rfl
    | false => exact .inl rfl
  have hreports := reports_of_completed attached completed hcounted hcomplete
  exact ⟨hreports.1, assembly.id, hreports.2⟩

end Operation

/-! ### Messages taken in transactions -/

/-- The transaction in which a state has the message of a delivery taken. -/
def DeliveryState.takenIn? : DeliveryState → Option Bytes
  | .transactional transaction => some transaction
  | .provisional transaction .accepted => some transaction
  | .provisional _ outcome => outcome.takenIn?
  | _ => none

/-- A state that has a message taken is an outcome. -/
theorem DeliveryState.isTerminal_of_takenIn? {state : DeliveryState} {id : Bytes}
    (h : state.takenIn? = some id) :
  state.isTerminal = true
  := by
  cases state with
  | received number offset => contradiction
  | _ => rfl

/-- The work of taking the message of a delivery. -/
def OutgoingDelivery.taking (delivery : OutgoingDelivery) : Work :=
  .dequeue delivery.queue delivery.entry

namespace Operation

variable {id : Bytes}

theorem carryOut_of_takenIn? (delivery : OutgoingDelivery) {state : DeliveryState}
    (h : state.takenIn? = some id) :
  carryOut delivery state = take delivery id
  := by
  induction state with
  | transactional transaction =>
      obtain rfl := Option.some.inj h
      rfl
  | provisional transaction outcome ih =>
      cases outcome with
      | accepted =>
          obtain rfl := Option.some.inj h
          rfl
      | _ => exact ih h
  | _ => contradiction

/-- The messages of deliveries that are taken in an open transaction are recorded there, and no
queue changes. -/
theorem carryOutEach_of_takenIn? {decided : List (UInt32 × OutgoingDelivery × DeliveryState)}
    (h : ∀ row ∈ decided, row.2.2.takenIn? = some id) {s : Serving}
    (opened : s.session.transactions.contains id = true) :
  ∃ s', carryOutEach decided s = .ok () s' ∧ s'.store = s.store
    ∧ s'.session.transactions
      = s.session.transactions.onWork id (· ++ decided.map (·.2.1.taking))
  := by
  induction decided generalizing s with
  | nil =>
      refine ⟨s, rfl, rfl, ?_⟩
      simp only [List.map_nil, List.append_nil]
      rw [Ledger.onWork_id]
  | cons row others ih =>
      obtain ⟨number, delivery, outcome⟩ := row
      have hrecord : s.session.transactions.record id delivery.taking
          = .ok (s.session.transactions.onWork id (· ++ [delivery.taking])) := by
        rw [Ledger.record, if_pos opened]
        rfl
      have hopened := (Ledger.contains_onWork id (· ++ [delivery.taking]) s.session.transactions id
        ).trans opened
      obtain ⟨s', hothers, hstore, hledger⟩ :=
        ih (fun row hrow => h row (List.mem_cons_of_mem _ hrow))
          (s := ⟨{ s.session with
            outgoingUnsettled := s.session.outgoingUnsettled.erase number
            transactions := s.session.transactions.onWork id (· ++ [delivery.taking]) }, s.store⟩)
          hopened
      refine ⟨s', ?_, hstore, ?_⟩
      · rw [carryOutEach, run_onSession_bind,
          carryOut_of_takenIn? delivery (h _ List.mem_cons_self), take]
        rw [run_bind, run_get_bind]
        dsimp only [Serving.onSession]
        rw [OutgoingDelivery.taking] at hrecord
        rw [hrecord]
        exact hothers
      · rw [hledger]
        dsimp only
        rw [Ledger.onWork_onWork]
        simp only [List.append_assoc, List.map_cons, List.singleton_append]

/-- The peer has the messages of deliveries taken in an open transaction: all of them are recorded
there. -/
theorem handle_of_taken {disposition : Disposition} {state : DeliveryState} {s : Serving}
    (payload : Bytes) (role : disposition.role = .receiver)
    (nonempty : ¬ disposition.lastId < disposition.first)
    (hstate : disposition.state = some state) (taken : state.takenIn? = some id)
    (opened : s.session.transactions.contains id = true) :
  ((handle (.disposition disposition) payload).after s).session.transactions
    = s.session.transactions.onWork id
        (· ++ (s.session.outgoingUnsettled.filter fun row => covers disposition row.1).map
          (·.2.taking))
  := by
  have hdecided : s.session.decided disposition
      = (s.session.outgoingUnsettled.filter fun row => covers disposition row.1).map
          fun row => (row.1, row.2, state) := by
    rw [decided, ← List.filterMap_eq_map]
    apply List.filterMap_congr
    rintro ⟨number, delivery⟩ _
    change (s.session.outcome? disposition delivery).map _ = _
    rw [outcome?, hstate]
    dsimp only
    rw [if_pos (DeliveryState.isTerminal_of_takenIn? taken)]
    rfl
  have htaken : ∀ row ∈ s.session.decided disposition, row.2.2.takenIn? = some id := by
    rw [hdecided]
    intro row hrow
    obtain ⟨before, -, rfl⟩ := List.mem_map.mp hrow
    exact taken
  obtain ⟨s', hrun, -, hledger⟩ := carryOutEach_of_takenIn? htaken opened
  rw [(quiet_handle _ payload s).session.transactions, dispatch, onDisposition, role]
  dsimp only
  rw [onReceiverDisposition, if_neg nonempty, after_get_bind]
  dsimp only
  rw [after, run_bind_of_ok hrun, ← after]
  have hrest : ((if (!(s.session.decided disposition).isEmpty && !disposition.settled) = true then
      onSession (·.emit (.disposition disposition.confirmation) none) >>= fun _ =>
        modify Serving.pumpAll
      else modify Serving.pumpAll : Operation Unit).after s').session.transactions
      = s'.session.transactions := by
    split
    · rw [after_onSession_bind, after_modify, transactions_pumpAll]
      rfl
    · rw [after_modify, transactions_pumpAll]
  refine Eq.trans hrest ?_
  rw [hledger, hdecided, List.map_map]
  rfl

end Operation

/-! ### Queues of recorded messages -/

/-- The messages recorded in the open transactions are to be put into known queues. -/
def Ledger.Addressed (known : QueueId → Prop) (ledger : Ledger) : Prop :=
  ∀ transaction ∈ ledger.opened, ∀ message ∈ transaction.messages, known message.1

namespace Ledger.Addressed

variable {known : QueueId → Prop} {ledger : Ledger}

theorem mono {known' : QueueId → Prop} (addressed : ledger.Addressed known)
    (h : ∀ queue, known queue → known' queue) :
  ledger.Addressed known'
  := fun transaction hmem message hmessage => h _ (addressed transaction hmem message hmessage)

theorem onWork (addressed : ledger.Addressed known) (id : Bytes) {work : Work}
    (h : ∀ message, work.message? = some message → known message.1) :
  (ledger.onWork id (· ++ [work])).Addressed known
  := by
  intro transaction hmem message hmessage
  obtain ⟨before, hbefore, rfl⟩ := List.mem_map.mp hmem
  split at hmessage
  · rw [Transaction.messages, List.filterMap_append] at hmessage
    rcases List.mem_append.mp hmessage with hold | hnew
    · exact addressed before hbefore message hold
    · obtain ⟨found, hfound, heq⟩ := List.mem_filterMap.mp hnew
      rw [List.mem_singleton.mp hfound] at heq
      exact h message heq
  · exact addressed before hbefore message hmessage

theorem remove (addressed : ledger.Addressed known) (id : Bytes) :
  (ledger.remove id).Addressed known
  := fun transaction hmem => addressed transaction (List.mem_of_mem_filter hmem)

theorem declare (addressed : ledger.Addressed known) :
  ledger.declare.2.Addressed known
  := by
  intro transaction hmem message hmessage
  rw [opened_declare_snd] at hmem
  rcases List.mem_append.mp hmem with hold | hnew
  · exact addressed.remove _ transaction hold message hmessage
  · rw [List.mem_singleton.mp hnew] at hmessage
    contradiction

end Ledger.Addressed

/-- The queue of a complete delivery is that of its link. -/
theorem Session.known_of_completed {known : QueueId → Prop} {session : Session}
    (attached : session.Attached known) {p : Performative} {payload : Bytes}
    {endpoint : Endpoint} {assembly : Assembly} {queue : QueueId}
    (completed : session.completed? p payload = some (endpoint, assembly))
    (kind : endpoint.kind = .receiving queue) :
  known queue
  := by
  cases p with
  | transfer transfer => exact (attached.under_of_completed completed).1.known queue kind
  | _ => contradiction

/-- The messages that are recorded are to be put into known queues, whatever is done with a
session. -/
theorem Session.Act.addressed_run (act : Session.Act) {s : Serving} {known : QueueId → Prop}
    (attached : s.session.Attached known) (addressed : s.session.transactions.Addressed known) :
  (act.run s).2.session.transactions.Addressed known
  := by
  cases act with
  | handle p payload =>
      apply Operation.ledger_handle (P := Ledger.Addressed known) _ _ _ _ addressed
      · exact fun ledger id queue entry h => h.onWork id fun _ hmessage => by contradiction
      · intro endpoint assembly queue completed kind ledger id h
        apply h.onWork id
        rintro message hmessage
        obtain rfl := Option.some.inj hmessage
        exact known_of_completed attached completed kind
      · exact fun ledger h => h.declare
      · exact fun ledger id _ _ h => h.remove id
  | pumpAll =>
      change s.pumpAll.session.transactions.Addressed known
      rw [Operation.transactions_pumpAll]
      exact addressed
  | recover =>
      change (Serving.pumpAll _).session.transactions.Addressed known
      rw [Operation.transactions_pumpAll]
      exact addressed
  | finish =>
      intro transaction hmem
      contradiction
  | takeOutput => exact addressed

end MessageBroker
