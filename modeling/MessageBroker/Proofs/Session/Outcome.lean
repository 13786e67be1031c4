import MessageBroker.Proofs.Session.Sending

/-!
# Custody of messages whose outcome is told

A delivery that the peer gives an outcome is forgotten, and its message is acknowledged, given
back or recorded in a transaction.  If that transaction is not open the message is given back, and
the deliveries after it stay as they are.
-/

namespace MessageBroker

open Session Serving Ledger

/-- One state comes from another by doing away with one message of the session, which may go to
one of its transactions. -/
structure Disposes (place : Place) (s s' : Serving) : Prop where
  /-- The unsettled deliveries are the same. -/
  outgoingUnsettled : s'.session.outgoingUnsettled = s.session.outgoingUnsettled
  /-- The next delivery has the same number. -/
  nextDeliveryId : s'.session.nextDeliveryId = s.session.nextDeliveryId
  /-- No delivery was begun. -/
  begun : s'.session.begun = s.session.begun
  /-- No transaction was declared. -/
  lastId : s'.session.transactions.lastId = s.session.transactions.lastId
  /-- No name of a transaction is given out. -/
  numbered : ∀ n, s.session.transactions.Numbered n →
    s'.session.transactions.Numbered n ∧ s.session.transactions.Retires n s'.session.transactions
  /-- What is done to the queues is done on behalf of the session. -/
  moves : s.session.transactions.Distinct → s'.session.transactions.Distinct
    ∧ Custody.Moves ⟨place ::ₘ s.session.places, s.store⟩ s'.custody

namespace Operation

theorem disposes_acknowledge (place : Place) (s : Serving) :
  Disposes place s (s.onStore fun store => (store.acknowledge place.1 place.2).2)
  := ⟨rfl, rfl, rfl, rfl, fun _ numbered => ⟨numbered, .refl _ _⟩,
    fun distinct => ⟨distinct, .single (.acknowledge _ _ place)⟩⟩

theorem disposes_giveBack (delivery : OutgoingDelivery) (counted : Bool) (s : Serving) :
  Disposes delivery.place s ((giveBack delivery counted).after s)
  := ⟨rfl, rfl, rfl, rfl, fun _ numbered => ⟨numbered, .refl _ _⟩,
    fun distinct => ⟨distinct, .single (.release _ _ delivery.place counted)⟩⟩

/-- A message taken in a transaction is held by it, or was given back. -/
theorem disposes_take (delivery : OutgoingDelivery) (transaction : Bytes) (s : Serving) :
  Disposes delivery.place s ((take delivery transaction).after s)
  := by
  rw [take, after_get_bind]
  cases hrecord : s.session.transactions.record transaction
      (.dequeue delivery.queue delivery.entry) with
  | ok ledger =>
      simp only [hrecord]
      refine ⟨rfl, rfl, rfl, lastId_record hrecord, ?_, ?_⟩
      · exact fun n numbered => ⟨numbered.record hrecord, retires_record n hrecord⟩
      · intro distinct
        refine ⟨distinct.record hrecord, ?_⟩
        have hplaces : delivery.place ::ₘ s.session.places
            = unsettledPlaces s.session.outgoingUnsettled + ledger.places := by
          rw [distinct.places_record hrecord, Session.places, ← Multiset.singleton_add,
            add_left_comm]
          rfl
        rw [hplaces]
        rfl
  | error report =>
      simp only [hrecord]
      exact disposes_giveBack delivery false s

theorem disposes_carryOut (delivery : OutgoingDelivery) (outcome : DeliveryState) (s : Serving) :
  Disposes delivery.place s ((carryOut delivery outcome).after s)
  := by
  rcases carryOut_cases delivery outcome with h | ⟨counted, h⟩ | ⟨transaction, h⟩
  · rw [h]
    exact disposes_acknowledge delivery.place s
  · rw [h]
    exact disposes_giveBack delivery counted s
  · rw [h]
    exact disposes_take delivery transaction s

/-- A delivery is forgotten, and its message done away with. -/
theorem leads_of_disposes {s s' : Serving} {id : UInt32} {delivery : OutgoingDelivery}
    (found : s.session.outgoingUnsettled.get? id = some delivery)
    (h : Disposes delivery.place
      (s.onSession fun session =>
        { session with outgoingUnsettled := session.outgoingUnsettled.erase id }) s') :
  Leads 0 0 s s'
  := by
  have hbegun : s'.session.begun = s.session.begun := h.begun
  have hlast : s'.session.transactions.lastId = s.session.transactions.lastId := h.lastId
  apply Leads.of_same hbegun hlast
  · intro sound
    refine ⟨?_, (h.moves sound.distinct).1⟩
    rw [h.outgoingUnsettled]
    exact sound.sorted.erase id
  · intro m sends
    constructor
    · rw [h.nextDeliveryId]
      exact sends.nextDeliveryId
    · rw [h.outgoingUnsettled]
      intro other hother
      exact sends.given other ((List.Sublist.map _ List.filter_sublist).subset hother)
  · exact h.numbered
  · intro sound
    have hplaces : s.session.places = delivery.place ::ₘ
        (unsettledPlaces (s.session.outgoingUnsettled.erase id) + s.session.transactions.places) := by
      rw [Session.places, unsettledPlaces_erase sound.sorted found, Multiset.cons_add]
    rw [custody, hplaces]
    exact (h.moves sound.distinct).2

/-- No delivery is begun, and no transaction declared, by carrying out outcomes. -/
theorem counts_carryOutEach (decided : List (UInt32 × OutgoingDelivery × DeliveryState))
    (s : Serving) :
  ((carryOutEach decided).after s).session.begun = s.session.begun
    ∧ ((carryOutEach decided).after s).session.transactions.lastId
        = s.session.transactions.lastId
  := by
  apply related_carryOutEach (motive := fun s s' => s'.session.begun = s.session.begun
    ∧ s'.session.transactions.lastId = s.session.transactions.lastId)
  · exact fun _ => ⟨rfl, rfl⟩
  · exact fun before after => ⟨after.1.trans before.1, after.2.trans before.2⟩
  · exact fun _ _ => ⟨rfl, rfl⟩
  · intro delivery outcome s
    have disposes := disposes_carryOut delivery outcome s
    exact ⟨disposes.begun, disposes.lastId⟩

/-- All the deliveries that are given outcomes are done away with, up to the first fault. -/
theorem leads_carryOutEach {decided : List (UInt32 × OutgoingDelivery × DeliveryState)}
    (distinct : (decided.map (·.1)).Nodup) {s : Serving}
    (found : ∀ row ∈ decided, s.session.outgoingUnsettled.get? row.1 = some row.2.1) :
  Leads 0 0 s ((carryOutEach decided).after s)
  := by
  induction decided generalizing s with
  | nil => exact .refl s
  | cons row others ih =>
      obtain ⟨id, delivery, outcome⟩ := row
      obtain ⟨hid, hothers⟩ := List.nodup_cons.mp distinct
      rw [carryOutEach, after_onSession_bind]
      have disposes := disposes_carryOut delivery outcome (s.onSession fun session =>
        { session with outgoingUnsettled := session.outgoingUnsettled.erase id })
      have hfirst := leads_of_disposes (found _ List.mem_cons_self) disposes
      apply after_bind hfirst
      intro _ _
      have hrest : ∀ {state : Serving}, (∀ row ∈ others,
          state.session.outgoingUnsettled.get? row.1 = some row.2.1) →
          Leads 0 0 state ((carryOutEach others).after state) := ih hothers
      apply hfirst.trans (hrest _)
      intro other hother
      have hne : other.1 ≠ id := by
        intro heq
        have hmem := List.mem_map_of_mem (f := (·.1)) hother
        exact hid (heq ▸ hmem)
      rw [disposes.outgoingUnsettled]
      change (s.session.outgoingUnsettled.erase id).get? other.1 = _
      rw [Table.get?_erase, if_neg hne]
      exact found other (List.mem_cons_of_mem _ hother)

end Operation

/-! ### Dispositions -/

namespace Session.Sound

variable {session : Session}

/-- The deliveries that a disposition gives an outcome are unsettled deliveries. -/
theorem found_decided (sound : session.Sound) {disposition : Disposition}
    {row : UInt32 × OutgoingDelivery × DeliveryState}
    (h : row ∈ session.decided disposition) :
  session.outgoingUnsettled.get? row.1 = some row.2.1
  := by
  obtain ⟨unsettled, hmem, houtcome⟩ := List.mem_filterMap.mp h
  obtain ⟨outcome, -, rfl⟩ := Option.map_eq_some_iff.mp houtcome
  exact Table.get?_of_mem sound.sorted.nodup (List.mem_of_mem_filter hmem)

/-- No delivery is given an outcome twice. -/
theorem distinct_decided (sound : session.Sound) (disposition : Disposition) :
  ((session.decided disposition).map (·.1)).Nodup
  := by
  have hkeys : (Table.keys
      (session.outgoingUnsettled.filter fun row => covers disposition row.1)).Nodup :=
    sound.sorted.nodup.sublist (List.filter_sublist.map _)
  apply List.pairwise_map.mpr
  apply List.pairwise_filterMap.mpr
  apply List.Pairwise.imp _ (List.pairwise_map.mp hkeys)
  intro a b hne row hrow row' hrow'
  obtain ⟨outcome, -, rfl⟩ := Option.map_eq_some_iff.mp hrow
  obtain ⟨outcome', -, rfl⟩ := Option.map_eq_some_iff.mp hrow'
  exact hne

end Session.Sound

namespace Operation

theorem carries_onReceiverDisposition (disposition : Disposition) (s : Serving) :
  s.Carries 0 ((onReceiverDisposition disposition).after s)
  := by
  apply related_onReceiverDisposition .refl .comp
  · obtain ⟨hbegun, hlast⟩ := counts_carryOutEach (s.session.decided disposition) s
    rw [← UInt32.add_zero s.session.transactions.lastId] at hlast
    refine ⟨0, .of_sound hbegun hlast ?_⟩
    intro sound
    exact leads_carryOutEach (sound.distinct_decided disposition)
      fun row hrow => sound.found_decided hrow
  · exact fun s => .of_quiet (.onSession (quiet_emit _ rfl))
  · exact carries_pumpAll

theorem carries_onDisposition (disposition : Disposition) (s : Serving) :
  s.Carries 0 ((onDisposition disposition).after s)
  := by
  rw [onDisposition]
  split
  · exact carries_onReceiverDisposition disposition s
  · exact .of_quiet (.onSession (s.session.quiet_onSenderDisposition disposition))

end Operation

end MessageBroker
