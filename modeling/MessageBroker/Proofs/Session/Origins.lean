import MessageBroker.Proofs.Session.Sources

/-!
# Where deliveries come from

A delivery that is unsettled after something was done with a session was so before, or was sent on
a link that was there, on which messages go to the peer.
-/

namespace MessageBroker

open Session

variable {session session' session'' : Session}

/-- What one session has that comes from another: the unsettled deliveries were unsettled before, or
were sent on links that were there. -/
structure Session.Adds (session session' : Session) : Prop where
  /-- No link is new on which messages go to the peer. -/
  inherits : ∀ handle, session.Inherits handle session'
  /-- The unsettled deliveries that are new were sent on such links. -/
  sent : ∀ id delivery, session'.outgoingUnsettled.get? id = some delivery →
    session.outgoingUnsettled.get? id = some delivery
      ∨ ∃ source, session.Serves delivery.handle source

namespace Session.Adds

theorem of_unsettled (inherits : ∀ handle, session.Inherits handle session')
    (h : session'.outgoingUnsettled = session.outgoingUnsettled) :
  session.Adds session'
  := by
  refine ⟨inherits, fun id delivery hget => ?_⟩
  rw [h] at hget
  exact .inl hget

theorem refl (session : Session) :
  session.Adds session
  := .of_unsettled (fun _ => .of_endpoints rfl) rfl

theorem trans (h : session.Adds session') (h' : session'.Adds session'') :
  session.Adds session''
  := by
  refine ⟨fun handle => (h.inherits handle).trans (h'.inherits handle), fun id delivery hget => ?_⟩
  rcases h'.sent id delivery hget with before | ⟨source, endpoint', hget', sending, -⟩
  · exact h.sent id delivery before
  · obtain ⟨endpoint, hget, same⟩ := h.inherits delivery.handle endpoint' hget'
    exact .inr ⟨_, endpoint, hget, same.trans sending, rfl⟩

end Session.Adds

namespace Serving

variable (s : Serving) (key : UInt32)

theorem adds_sendNext? {s s' : Serving} {key : UInt32} (h : s.sendNext? key = some s') :
  s.session.Adds s'.session
  := by
  have speaks := @speaks_sendNext? .pumpAll s s' key h
  refine ⟨fun handle => speaks.inherits id, fun id delivery hget => ?_⟩
  obtain ⟨endpoint, pick, there, hpick, -, -, rfl⟩ := sendNext?_eq_some h
  rw [send, (begins_sendDelivery _ _ _ _ _).outgoingUnsettled] at hget
  dsimp only at hget
  split at hget
  · exact .inl hget
  · rw [Table.get?_put] at hget
    split at hget
    · obtain rfl := Option.some.inj hget
      exact .inr ⟨_, endpoint, there, (Endpoint.pick?_isSending hpick).1, rfl⟩
    · exact .inl hget

theorem adds_giveBackCredit :
  s.session.Adds (s.giveBackCredit key).session
  := by
  have speaks := @speaks_giveBackCredit .pumpAll s key
  exact .of_unsettled (fun handle => speaks.inherits id)
    (s.quiet_giveBackCredit key).session.outgoingUnsettled

theorem adds_pump :
  s.session.Adds (s.pump key).session
  := by
  revert s
  apply related_pump (motive := fun s s' => s.session.Adds s'.session)
  · exact fun s => .refl s.session
  · exact .trans
  · exact adds_sendNext?
  · exact fun s => s.adds_giveBackCredit key

theorem adds_pumpAll :
  s.session.Adds s.pumpAll.session
  := by
  revert s
  apply related_pumpAll (motive := fun s s' => s.session.Adds s'.session)
  · exact fun s => .refl s.session
  · exact .trans
  · exact adds_pump

theorem adds_recover :
  s.session.Adds s.recover.2.session
  := by
  have forgets : s.session.Adds { s.session with outgoingUnsettled := [] } := by
    refine ⟨fun _ => .of_endpoints rfl, fun id delivery hget => ?_⟩
    contradiction
  rw [recover]
  exact forgets.trans (adds_pumpAll ⟨{ s.session with outgoingUnsettled := [] }, _⟩)

end Serving

namespace Operation

variable {s : Serving}

theorem adds_carryOutEach (decided : List (UInt32 × OutgoingDelivery × DeliveryState))
    (s : Serving) :
  s.session.Adds ((carryOutEach decided).after s).session
  := by
  refine ⟨fun _ => .of_endpoints (endpoints_carryOutEach decided s), fun id delivery hget => .inl ?_⟩
  induction decided generalizing s with
  | nil => exact hget
  | cons row others ih =>
      obtain ⟨number, given, outcome⟩ := row
      rw [carryOutEach, after_onSession_bind] at hget
      have disposes := disposes_carryOut given outcome (s.onSession fun session =>
        { session with outgoingUnsettled := session.outgoingUnsettled.erase number })
      have erased (h : ((carryOut given outcome).after (s.onSession fun session =>
            { session with outgoingUnsettled := session.outgoingUnsettled.erase number }
          )).session.outgoingUnsettled.get? id = some delivery) :
          s.session.outgoingUnsettled.get? id = some delivery := by
        rw [disposes.outgoingUnsettled] at h
        change (s.session.outgoingUnsettled.erase number).get? id = _ at h
        rw [Table.get?_erase] at h
        split at h
        · contradiction
        · exact h
      revert hget
      apply after_bind (motive := fun s' => s'.session.outgoingUnsettled.get? id = some delivery →
        s.session.outgoingUnsettled.get? id = some delivery) erased
      intro _ _ hget
      exact erased (ih _ hget)

theorem adds_onReceiverDisposition (disposition : Disposition) (s : Serving) :
  s.session.Adds ((onReceiverDisposition disposition).after s).session
  := by
  apply related_onReceiverDisposition (motive := fun s s' => s.session.Adds s'.session)
  · exact fun s => .refl s.session
  · exact .trans
  · exact adds_carryOutEach _ s
  · exact fun s => .of_unsettled (fun _ => .of_endpoints rfl) rfl
  · exact Serving.adds_pumpAll

theorem adds_onDisposition (disposition : Disposition) (s : Serving) :
  s.session.Adds ((onDisposition disposition).after s).session
  := by
  rw [onDisposition]
  split
  · exact adds_onReceiverDisposition disposition s
  · exact .of_unsettled (fun _ => (s.session.alike_onSenderDisposition disposition).inherits)
      (s.session.quiet_onSenderDisposition disposition).outgoingUnsettled

theorem adds_onFlow (flow : Flow) (s : Serving) :
  s.session.Adds ((onFlow flow).after s).session
  := by
  revert s
  apply related_onFlow (motive := fun s s' => s.session.Adds s'.session)
  · exact fun s => .refl s.session
  · exact .trans
  · exact fun _ => .of_unsettled (fun _ => .of_endpoints rfl) rfl
  · exact fun _ _ _ _ there => .of_unsettled (fun _ => .put there rfl) rfl
  · exact fun _ => .of_unsettled (fun _ => .of_endpoints rfl) rfl
  · exact fun s _ => .of_unsettled (fun _ => .of_endpoints (endpoints_emitLinkFlow _ _ _))
      (s.session.quiet_emitLinkFlow _ _).outgoingUnsettled
  · exact Serving.adds_pump
  · exact Serving.adds_pumpAll

theorem Completes.outgoingUnsettled {endpoint : Endpoint} {assembly : Assembly}
    {result : EStateM.Result Fault Serving Unit} (completes : Completes endpoint assembly s result) :
  (leaving result).session.outgoingUnsettled = s.session.outgoingUnsettled
  := by
  cases completes <;> rfl

/-- Deliveries from the peer have nothing to do with those to the peer. -/
theorem outgoingUnsettled_onTransfer (transfer : Transfer) (payload : Bytes) (s : Serving) :
  ((onTransfer transfer payload).after s).session.outgoingUnsettled = s.session.outgoingUnsettled
  := by
  cases hcompleted : s.session.completed? (.transfer transfer) payload with
  | none => exact (quiet_onTransfer hcompleted).session.outgoingUnsettled
  | some completed =>
      obtain ⟨endpoint, assembly⟩ := completed
      rw [(quiet_of_completed hcompleted).session.outgoingUnsettled, after]
      cases hreceives : endpoint.kind.isReceiving with
      | true => exact (completes_complete endpoint assembly _ hreceives).outgoingUnsettled
      | false =>
          have nothing : complete endpoint assembly = pure () := by
            rw [complete]
            split
            · next hkind => simp [hkind, EndpointKind.isReceiving] at hreceives
            · next hkind => simp [hkind, EndpointKind.isReceiving] at hreceives
            · rfl
          rw [nothing]
          rfl

/-- Detaching a link that is at fault leaves its deliveries unsettled. -/
theorem outgoingUnsettled_handle (p : Performative) (payload : Bytes) (s : Serving) :
  ((Operation.handle p payload).after s).session.outgoingUnsettled
    = ((dispatch p payload).after s).session.outgoingUnsettled
  := (quiet_handle p payload s).session.outgoingUnsettled

end Operation

/-- A delivery that is unsettled after something was done with a session was so before, or was sent
on a link that was there, and that did not come to its end. -/
theorem Session.Act.sent_run (act : Session.Act) (s : Serving) {id : UInt32}
    {delivery : OutgoingDelivery}
    (hget : (act.run s).2.session.outgoingUnsettled.get? id = some delivery) :
  s.session.outgoingUnsettled.get? id = some delivery
    ∨ (∃ source, s.session.Serves delivery.handle source) ∧ ¬ act.Parts delivery.handle
  := by
  have adds {s' : Serving} (adds : s.session.Adds s'.session)
      (hget : s'.session.outgoingUnsettled.get? id = some delivery)
      (lasts : ¬ act.Parts delivery.handle) :
      s.session.outgoingUnsettled.get? id = some delivery
        ∨ (∃ source, s.session.Serves delivery.handle source) ∧ ¬ act.Parts delivery.handle :=
    (adds.sent id delivery hget).imp_right fun serves => ⟨serves, lasts⟩
  cases act with
  | handle p payload =>
      have dispatched := hget
      change ((Operation.handle p payload).after s).session.outgoingUnsettled.get? id = _
        at dispatched
      rw [Operation.outgoingUnsettled_handle] at dispatched
      cases p with
      | flow flow =>
          exact adds (Operation.adds_onFlow flow s) dispatched fun parts => parts.concerns
      | disposition disposition =>
          exact adds (Operation.adds_onDisposition disposition s) dispatched
            fun parts => parts.concerns
      | attach attach =>
          rw [← (Operation.quiet_onAttach attach s).session.outgoingUnsettled]
          exact .inl dispatched
      | detach detach =>
          rw [← (Operation.quiet_onDetach detach s).session.outgoingUnsettled]
          exact .inl dispatched
      | transfer transfer =>
          rw [← Operation.outgoingUnsettled_onTransfer transfer payload s]
          exact .inl dispatched
      | _ => exact .inl dispatched
  | pumpAll => exact adds s.adds_pumpAll hget fun parts => parts.concerns
  | recover => exact adds s.adds_recover hget fun parts => parts.concerns
  | finish => contradiction
  | takeOutput => exact .inl hget

end MessageBroker
