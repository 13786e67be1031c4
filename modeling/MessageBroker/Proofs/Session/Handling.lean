import MessageBroker.Proofs.Session.Receiving

/-!
# Custody along the life of a session

Whatever the peer sends, and when the session sends what waits, takes all deliveries back or ends,
the queues are changed only by moves on behalf of what the session holds.  At its end it holds
nothing.
-/

namespace MessageBroker

open Session Serving

namespace Operation

/-! ### Flows -/

theorem carries_onFlow (flow : Flow) (s : Serving) :
  s.Carries 0 ((onFlow flow).after s)
  := by
  apply related_onFlow .refl .comp
  · exact fun _ => .of_quiet (.onSession ⟨rfl, rfl, rfl, rfl⟩)
  · exact fun s handle endpoint _ _ => .of_quiet (.onSession (quiet_putEndpoint s.session handle _))
  · exact fun s => .of_quiet (.onSession (quiet_emitSessionFlow s.session))
  · exact fun s handle => .of_quiet (.onSession (quiet_emitLinkFlow s.session s.store handle))
  · exact carries_pump
  · exact carries_pumpAll

/-! ### All performatives -/

theorem steps_dispatch (p : Performative) (payload : Bytes) (s : Serving) :
  s.Steps ((dispatch p payload).after s)
  := by
  cases p with
  | attach attach => exact .of_carries (.of_quiet (quiet_onAttach attach s))
  | flow flow => exact .of_carries (carries_onFlow flow s)
  | transfer transfer => exact steps_onTransfer transfer payload s
  | disposition disposition => exact .of_carries (carries_onDisposition disposition s)
  | detach detach => exact .of_carries (.of_quiet (quiet_onDetach detach s))
  | _ => exact .of_carries (.refl s)

/-- Whatever the peer sends, the queues are changed only on behalf of what the session holds. -/
theorem steps_handle (p : Performative) (payload : Bytes) (s : Serving) :
  s.Steps ((handle p payload).after s)
  := (steps_dispatch p payload s).before (.of_quiet (quiet_handle p payload s))

end Operation

namespace Serving

/-! ### Recovery and end -/

/-- The messages of unsettled deliveries are given back one after another. -/
theorem moves_releaseAll (counted : Bool) (deliveries : List OutgoingDelivery)
    (others : Multiset Place) (store : QueueStore) :
  Custody.Moves ⟨↑(deliveries.map OutgoingDelivery.place) + others, store⟩
    ⟨others, (releaseAll counted deliveries store).2⟩
  := by
  induction deliveries generalizing store with
  | nil =>
      rw [List.map_nil, Multiset.coe_nil, zero_add]
      exact .refl
  | cons delivery deliveries ih =>
      rw [List.map_cons, ← Multiset.cons_coe, Multiset.cons_add]
      exact .head (.release _ _ delivery.place counted) (ih _)

/-- A session that takes all its deliveries back holds what its transactions do. -/
theorem carries_recover (s : Serving) :
  s.Carries 0 s.recover.2
  := by
  apply Carries.comp _ (carries_pumpAll _)
  refine ⟨0, .of_same rfl rfl ?_ ?_ ?_ ?_⟩
  · exact fun sound => ⟨.nil, sound.distinct⟩
  · exact fun m sends => ⟨sends.nextDeliveryId, by simp [Table.keys]⟩
  · exact fun n numbered => ⟨numbered, .refl _ _⟩
  · intro _
    have hplaces : unsettledPlaces [] + s.session.transactions.places
        = s.session.transactions.places := zero_add _
    change Custody.Moves _ ⟨unsettledPlaces [] + s.session.transactions.places, _⟩
    rw [hplaces]
    exact moves_releaseAll true s.session.outgoingUnsettled.rows _ s.store

/-- A session that has ended holds nothing. -/
theorem places_finish (s : Serving) :
  s.finish.session.places = 0
  := rfl

theorem carries_finish (s : Serving) :
  s.Carries 0 s.finish
  := by
  refine ⟨0, .of_same rfl rfl ?_ ?_ ?_ ?_⟩
  · exact fun _ => ⟨.nil, .empty⟩
  · exact fun m sends => ⟨sends.nextDeliveryId, by simp [finish, Table.keys]⟩
  · exact fun n numbered => ⟨numbered.rollbackAll s.store, fun _ _ _ => rfl⟩
  · intro _
    have release := moves_releaseAll false s.session.outgoingUnsettled.rows
      s.session.transactions.places s.store
    have rollback := Ledger.moves_rollbackAll s.session.transactions 0
      (releaseAll false s.session.outgoingUnsettled.rows s.store).2
    rw [add_zero] at rollback
    rw [custody, custody, places_finish]
    exact release.trans rollback

end Serving

end MessageBroker
