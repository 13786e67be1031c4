import MessageBroker.Proofs.Session.Completion
import MessageBroker.Proofs.Session.Outcome

/-!
# Custody of messages received

A complete delivery is put into its queue, or recorded, or declares a transaction, or ends one, at
whose end the messages that it holds are acknowledged or given back.  Everything else about a
transfer is quiet.
-/

namespace MessageBroker

open Session Serving

namespace Operation

/-! ### Complete deliveries -/

/-- Work that takes no message out is recorded without the session holding more. -/
theorem carries_record {s : Serving} {ledger : Ledger} {transaction : Bytes} {queue : QueueId}
    {payload : Bytes}
    (h : s.session.transactions.record transaction (.enqueue queue payload) = .ok ledger) :
  s.Carries 0 (s.onSession ({ · with transactions := ledger }))
  := by
  refine ⟨0, .of_same rfl (Ledger.lastId_record h) ?_ ?_ ?_ ?_⟩
  · exact fun sound => ⟨sound.sorted, sound.distinct.record h⟩
  · exact fun m sends => ⟨sends.nextDeliveryId, sends.given⟩
  · exact fun n numbered => ⟨numbered.record h, Ledger.retires_record n h⟩
  · intro sound
    have hplaces : ledger.places = s.session.transactions.places := by
      rw [sound.distinct.places_record h]
      exact zero_add _
    rw [custody, custody, Session.places, Session.places]
    change Custody.Moves _ ⟨unsettledPlaces s.session.outgoingUnsettled + ledger.places, _⟩
    rw [hplaces]
    rfl

theorem carries_deliver (endpoint : Endpoint) (queue : QueueId) (assembly : Assembly)
    (s : Serving) :
  s.Carries 0 ((deliver endpoint queue assembly).after s)
  := by
  rw [deliver, after_get_bind]
  dsimp only
  split
  · exact .refl s
  · split
    · exact .of_quiet (quiet_refuse endpoint assembly _ s)
    · split
      · next transaction _ =>
          split
          · exact .of_quiet (quiet_refuse endpoint assembly _ s)
          · next ledger hrecord =>
              rw [after_onSession_bind]
              exact (carries_record hrecord).comp (.of_quiet (quiet_answer _ assembly _ _))
      · rw [after_onStore_bind]
        exact (Carries.of_enqueue s.session s.store queue assembly.payload).comp
          (.of_quiet (quiet_answer _ assembly _ _))

/-- Declaring a transaction changes nothing else, unless it takes the name of one that is open. -/
theorem carries_declare (s : Serving) :
  s.Carries 1 (s.onSession ({ · with transactions := s.session.transactions.declare.2 }))
  := by
  refine ⟨0, rfl, rfl, ?_, ?_, ?_, ?_⟩
  · exact fun sound => ⟨sound.sorted, sound.distinct.declare⟩
  · exact fun _ m sends _ => ⟨sends.nextDeliveryId, sends.given⟩
  · exact fun _ n numbered hdeclared =>
      ⟨numbered.declare hdeclared, numbered.retires_declare hdeclared⟩
  · intro sound
    obtain ⟨lost, hplaces, hlost⟩ := sound.distinct.places_declare
    refine ⟨lost, ?_, fun m n _ numbered _ hdeclared => ?_⟩
    · have hheld : s.session.places = unsettledPlaces s.session.outgoingUnsettled
          + s.session.transactions.declare.2.places + lost := by
        rw [Session.places, hplaces, add_assoc]
      rw [custody, hheld]
      rfl
    · exact hlost (numbered.find?_declare_fst hdeclared)

/-- At the end of a transaction the session does away with the messages that it holds. -/
theorem carries_discharge {s : Serving} {id : Bytes} {transaction : Transaction}
    (h : s.session.transactions.find? id = some transaction) (fail : Bool) :
  s.Carries 0
    ⟨{ s.session with transactions := s.session.transactions.remove id },
      Ledger.settle fail transaction.work s.store⟩
  := by
  refine ⟨0, .of_same rfl rfl ?_ ?_ ?_ ?_⟩
  · exact fun sound => ⟨sound.sorted, sound.distinct.remove id⟩
  · exact fun m sends => ⟨sends.nextDeliveryId, sends.given⟩
  · exact fun n numbered => ⟨numbered.remove id, Ledger.retires_remove n _ id⟩
  · intro sound
    have hplaces : s.session.places = transaction.places
        + (unsettledPlaces s.session.outgoingUnsettled
          + (s.session.transactions.remove id).places) := by
      rw [Session.places, sound.distinct.places_eq h, add_left_comm]
    rw [custody, hplaces]
    exact Ledger.moves_settle fail transaction.work _ s.store

theorem steps_coordinate (endpoint : Endpoint) (control : TransactionControl) (s : Serving) :
  s.Steps ((coordinate endpoint control).after s)
  := by
  rw [coordinate, after_get_bind]
  cases control with
  | declare globalId => exact ⟨1, Nat.le_refl 1, carries_declare s⟩
  | discharge id fail =>
      apply Steps.of_carries
      dsimp only
      rw [Ledger.discharge]
      cases hfind : s.session.transactions.find? id with
      | some transaction => exact carries_discharge hfind fail
      | none =>
          dsimp only
          split
          · exact .refl s
          · exact .refl s

theorem steps_carryOutControl (endpoint : Endpoint) (assembly : Assembly) (s : Serving) :
  s.Steps ((carryOutControl endpoint assembly).after s)
  := by
  rw [carryOutControl]
  split
  · exact .of_carries (.refl s)
  · next control _ =>
      have hfirst := steps_coordinate endpoint control s
      apply after_bind hfirst
      intro state _
      apply hfirst.before
      apply Carries.of_quiet
      rw [after_onSession]
      apply Serving.Quiet.onSession
      exact (quiet_settle _ _ _).trans (quiet_tell _ _)

theorem steps_complete (endpoint : Endpoint) (assembly : Assembly) (s : Serving) :
  s.Steps ((complete endpoint assembly).after s)
  := by
  rw [complete]
  split
  · exact .of_carries (carries_deliver endpoint _ assembly s)
  · exact steps_carryOutControl endpoint assembly s
  · exact .of_carries (.refl s)

/-! ### Transfers -/

theorem steps_onTransfer (transfer : Transfer) (payload : Bytes) (s : Serving) :
  s.Steps ((onTransfer transfer payload).after s)
  := by
  cases h : s.session.completed? (.transfer transfer) payload with
  | none => exact .of_carries (.of_quiet (quiet_onTransfer h))
  | some completed =>
      obtain ⟨endpoint, assembly⟩ := completed
      have hcounted : s.Carries 0 (s.onSession fun session =>
          session.count.putEndpoint transfer.handle endpoint) :=
        .of_quiet (.onSession ⟨rfl, rfl, rfl, rfl⟩)
      apply (Steps.after hcounted (steps_complete endpoint assembly _)).before
      exact .of_quiet (quiet_of_completed h)

end Operation

end MessageBroker
