import MessageBroker.Proofs.Session.Answering
import MessageBroker.Proofs.Session.Gathering

/-!
# What becomes of deliveries

What a transfer leaves of its session: the delivery that it completes is settled, given to the peer
to settle, or lost by a fault of its link, and one that it does not complete is aborted, refused,
put back or dropped.  No such fault is about the state of the link.
-/

namespace MessageBroker

open Session

namespace Operation

/-! ### Complete deliveries -/

/-- What a complete delivery comes to: a fault of its link, which is not about the state of the
link; or it is settled; or the peer is to settle it. -/
inductive Completes (endpoint : Endpoint) (assembly : Assembly) (s : Serving) :
    EStateM.Result Fault Serving Unit → Prop where
  /-- The link is at fault. -/
  | fault {report : ErrorReport} (apart : report.condition ≠ Condition.illegalState.symbol) :
    Completes endpoint assembly s (.error (.link endpoint.link.handle report) s)
  /-- The delivery is settled, as the peer has done. -/
  | settled (transactions : Ledger) (store : QueueStore) (settled : assembly.settled = true) :
    Completes endpoint assembly s
      (.ok () ⟨{ s.session with transactions }.settle endpoint.link.handle assembly.id, store⟩)
  /-- The delivery is settled, and the peer is told so. -/
  | told (transactions : Ledger) (store : QueueStore) (state : DeliveryState) :
    Completes endpoint assembly s
      (.ok () ⟨({ s.session with transactions }.settle endpoint.link.handle assembly.id).tell
        ⟨assembly.id, true, state⟩, store⟩)
  /-- The peer is told an outcome, and is to settle the delivery. -/
  | awaited (transactions : Ledger) (store : QueueStore) (state : DeliveryState)
      (unsettled : assembly.settled = false) (mode : assembly.settleMode = .second) :
    Completes endpoint assembly s
      (.ok () ⟨Session.tell { s.session with
          transactions
          incomingUnsettled :=
            s.session.incomingUnsettled.put assembly.id endpoint.link.handle }
        ⟨assembly.id, false, state⟩, store⟩)

theorem condition_of_apart {condition : Condition} {description : String}
    (apart : condition.symbol ≠ Condition.illegalState.symbol) :
  (ErrorReport.of condition description).condition ≠ Condition.illegalState.symbol
  := apart

section Complete

variable (endpoint : Endpoint) (assembly : Assembly) (s : Serving)

theorem completes_answer (transactions : Ledger) (store : QueueStore) (outcome : DeliveryState) :
  Completes endpoint assembly s (answer endpoint.link.handle assembly outcome
    ⟨{ s.session with transactions }, store⟩)
  := by
  rw [answer, run_onSession, Serving.onSession]
  dsimp only
  cases hsettled : assembly.settled with
  | true =>
      rw [if_pos rfl]
      exact .settled transactions store hsettled
  | false =>
      rw [if_neg Bool.false_ne_true]
      cases hmode : assembly.settleMode with
      | first => exact .told transactions store outcome
      | second => exact .awaited transactions store outcome hsettled hmode

theorem completes_refuse {report : ErrorReport}
    (apart : report.condition ≠ Condition.illegalState.symbol) :
  Completes endpoint assembly s (refuse endpoint assembly report s)
  := by
  rcases refuse_eq endpoint assembly report s with h | h
  · rw [h]
    exact .fault apart
  · rw [h]
    exact .told s.session.transactions s.store _

theorem completes_deliver (queue : QueueId) :
  Completes endpoint assembly s (deliver endpoint queue assembly s)
  := by
  cases hparse : MessageSections.parse assembly.payload with
  | error error =>
      rw [deliver, run_get_bind, hparse]
      exact .fault (condition_of_apart (by decide))
  | ok sections =>
      cases hdurable : sections.durable && !s.session.limits.persistence with
      | true =>
          rw [deliver, run_get_bind, hparse]
          dsimp only
          rw [if_pos hdurable]
          exact completes_refuse endpoint assembly s (condition_of_apart (by decide))
      | false =>
          cases hpart : assembly.state.bind DeliveryState.transaction? with
          | none =>
              rw [deliver_of_none hparse hdurable hpart]
              exact completes_answer endpoint assembly s s.session.transactions _ _
          | some transaction =>
              rw [deliver_of_some hparse hdurable hpart]
              cases hrecord : s.session.transactions.record transaction
                  (.enqueue queue assembly.payload) with
              | ok ledger => exact completes_answer endpoint assembly s ledger s.store _
              | error report =>
                  apply completes_refuse
                  rw [Ledger.record] at hrecord
                  split at hrecord
                  · contradiction
                  · cases hrecord
                    exact condition_of_apart (by decide)

theorem completes_carryOutControl :
  Completes endpoint assembly s (carryOutControl endpoint assembly s)
  := by
  rw [carryOutControl]
  cases controlOf assembly.payload with
  | error error => exact .fault (condition_of_apart (by decide))
  | ok control =>
      cases control with
      | declare globalId => exact .told s.session.transactions.declare.2 s.store _
      | discharge id fail =>
          dsimp only
          rw [run_bind, coordinate, run_get_bind]
          dsimp only
          cases hdischarge : s.session.transactions.discharge s.store id fail with
          | ok discharged =>
              obtain ⟨summary, transactions, store⟩ := discharged
              exact .told transactions store .accepted
          | error report =>
              have apart : report.condition ≠ Condition.illegalState.symbol := by
                rw [Ledger.discharge] at hdischarge
                split at hdischarge
                · contradiction
                · cases hdischarge
                  exact condition_of_apart (by decide)
              cases endpoint.link.supportsRejected with
              | true => exact .told s.session.transactions s.store _
              | false => exact .fault apart

/-- What a complete delivery of a link that messages come on comes to. -/
theorem completes_complete (receives : endpoint.kind.isReceiving = true) :
  Completes endpoint assembly s (complete endpoint assembly s)
  := by
  rw [complete]
  cases hkind : endpoint.kind with
  | receiving queue => exact completes_deliver endpoint assembly s queue
  | coordinator => exact completes_carryOutControl endpoint assembly s
  | _ =>
      rw [hkind] at receives
      contradiction

end Complete

/-! ### Transfers that complete no delivery -/

/-- What comes of a transfer that completes no delivery, which is taken off its link: the delivery
is aborted, refused, put back to wait for more, or dropped at its end. -/
inductive Receives (endpoint : Endpoint) (transfer : Transfer) (assembly : Assembly)
    (s : Serving) : EStateM.Result Fault Serving Unit → Prop where
  /-- The delivery is aborted. -/
  | aborted : Receives endpoint transfer assembly s
      (.ok () (s.onSession (·.settle transfer.handle assembly.id)))
  /-- The link is at fault. -/
  | fault {report : ErrorReport} (apart : report.condition ≠ Condition.illegalState.symbol) :
    Receives endpoint transfer assembly s (.error (.link endpoint.link.handle report) s)
  /-- The delivery goes on. -/
  | more : Receives endpoint transfer assembly s
      (.ok () (putAssembly transfer.handle assembly s))
  /-- The delivery is refused, and goes on to be dropped. -/
  | refused {state : DeliveryState} : Receives endpoint transfer assembly s
      (.ok () (putAssembly transfer.handle assembly.discard (s.onSession fun session =>
        (session.settle endpoint.link.handle assembly.id).tell ⟨assembly.id, true, state⟩)))
  /-- The delivery is refused at its end. -/
  | refusedLast {state : DeliveryState} : Receives endpoint transfer assembly s
      (.ok () ((replenishCredit transfer.handle).after (s.onSession fun session =>
        (session.settle endpoint.link.handle assembly.id).tell ⟨assembly.id, true, state⟩)))
  /-- The delivery was refused, and is at its end. -/
  | dropped (discarding : assembly.discarding = true) : Receives endpoint transfer assembly s
      (.ok () ((replenishCredit transfer.handle).after s))

/-- A delivery that is larger than its link accepts is refused. -/
theorem limitSize_of_exceeds {endpoint : Endpoint} {assembly : Assembly}
    (exceeds : (!assembly.discarding && endpoint.link.exceedsMaxMessageSize assembly.size) = true)
    (s : Serving) :
  ∃ report, report.condition ≠ Condition.illegalState.symbol
    ∧ (limitSize endpoint assembly s = .error (.link endpoint.link.handle report) s
      ∨ limitSize endpoint assembly s
        = .ok assembly.discard (s.onSession fun session =>
            (session.settle endpoint.link.handle assembly.id).tell
              ⟨assembly.id, true, .rejected (some report)⟩))
  := by
  rw [limitSize, exceeds, if_pos rfl]
  generalize hreport : ErrorReport.of .messageSizeExceeded _ = report
  refine ⟨report, ?_, ?_⟩
  · rw [← hreport]
    exact condition_of_apart (by decide)
  · rcases refuse_eq endpoint assembly report s with h | h
    · exact .inl (run_bind_of_error h _)
    · exact .inr (run_bind_of_ok h _)

theorem receives_receiveOn {endpoint endpoint' : Endpoint} {transfer : Transfer}
    {taken : Assembly} {payload : Bytes}
    (incomplete : endpoint.completed? transfer payload = none)
    (htake : endpoint.takeAssembly transfer = (.ok taken, endpoint')) (s : Serving) :
  Receives endpoint' transfer (taken.push payload)
    (s.onSession (·.putEndpoint transfer.handle endpoint')) (receiveOn endpoint transfer payload s)
  := by
  cases haborted : transfer.aborted with
  | true =>
      rw [receiveOn_of_aborted htake haborted, ← (Assembly.push_other taken payload).1]
      exact .aborted
  | false =>
      rw [receiveOn_of_taken htake haborted]
      generalize s.onSession (·.putEndpoint transfer.handle endpoint') = s
      cases hexceeds : !(taken.push payload).discarding
          && endpoint'.link.exceedsMaxMessageSize (taken.push payload).size with
      | true =>
          obtain ⟨report, apart, h | h⟩ := limitSize_of_exceeds hexceeds s
          · rw [run_bind_of_error h]
            exact .fault apart
          · rw [run_bind_of_ok h]
            cases transfer.more with
            | true => exact .refused
            | false => exact .refusedLast
      | false =>
          have hlimit := limitSize_of_within hexceeds s
          rw [run_bind_of_ok hlimit]
          cases hmore : transfer.more with
          | true => exact .more
          | false =>
              cases hdiscarding : (taken.push payload).discarding with
              | true => exact .dropped hdiscarding
              | false =>
                  exact absurd ⟨haborted, by simp [hmore], by simp [hdiscarding], hlimit⟩
                    (not_completes_of_none incomplete htake)

end Operation

end MessageBroker
