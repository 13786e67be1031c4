import MessageBroker.Proofs.Session.Dispatching
import MessageBroker.Proofs.Session.Ending

/-!
# Deliveries that are taken back

A session that takes its deliveries back gives the message of each back once, with a failed attempt
counted, in the order of their numbers, and nothing else is done to the queues.  The messages that
have further attempts wait at their old places then, so that they are sent anew in their old order.
-/

namespace MessageBroker

open Session

namespace Serving

variable {store : QueueStore} {deliveries : List OutgoingDelivery} {others : Multiset Place}
  {counted : Bool}

/-! ### Deliveries given back -/

/-- The deeds by which messages of deliveries are given back. -/
def givingBack (counted : Bool) (deliveries : List OutgoingDelivery) : List Deed :=
  deliveries.map fun delivery => .giveBack delivery.place counted

theorem filterMap_givingBack (counted : Bool) (deliveries : List OutgoingDelivery) :
  (givingBack counted deliveries).filterMap Deed.place? = deliveries.map OutgoingDelivery.place
  := by
  rw [givingBack, List.filterMap_map]
  exact congrFun (List.filterMap_eq_map (f := OutgoingDelivery.place)) deliveries

/-- Giving messages back leaves of those what it leaves of each, and the others as they are. -/
theorem leftOf_givingBack (id : QueueId) (policy : RedeliveryPolicy) (slot : Slot) :
  Queue.leftOf (givingBack counted deliveries) id policy slot
    = if (id, slot.entry.id) ∈ deliveries.map OutgoingDelivery.place then
        Queue.slotAfter policy slot.entry counted
      else some slot
  := by
  induction deliveries with
  | nil => rfl
  | cons delivery deliveries ih =>
      rw [Queue.leftOf, givingBack, List.map_cons, List.find?_cons]
      by_cases here : delivery.place = (id, slot.entry.id)
      · rw [if_pos (by rw [← here]; exact List.mem_cons_self)]
        simp [Deed.place?, here, Deed.left]
      · have elsewhere : (Deed.giveBack delivery.place counted).place? ≠ some (id, slot.entry.id) :=
          fun same => here (Option.some.inj same)
        rw [decide_eq_false elsewhere]
        change Queue.leftOf (givingBack counted deliveries) id policy slot = _
        have others : (id, slot.entry.id) ∈ (delivery :: deliveries).map OutgoingDelivery.place
            ↔ (id, slot.entry.id) ∈ deliveries.map OutgoingDelivery.place := by
          rw [List.map_cons, List.mem_cons, or_iff_right (Ne.symm here)]
        rw [ih]
        simp only [others]

/-- Every delivery is given back once, and comes to what it would come to if it were given back
alone. -/
theorem outcomes_releaseAll
    (custody : store.InCustody (↑(deliveries.map OutgoingDelivery.place) + others)) :
  (releaseAll counted deliveries store).1.map some
    = deliveries.map fun delivery => (store.release delivery.queue delivery.entry counted).1
  := by
  induction deliveries generalizing store with
  | nil => rfl
  | cons delivery deliveries ih =>
      rw [List.map_cons, ← Multiset.cons_coe, ← Multiset.singleton_add, add_assoc] at custody
      have move := (Deed.giveBack delivery.place counted).move_perform
        (↑(deliveries.map OutgoingDelivery.place) + others) store
      have after := move.inCustody custody
      have held := custody.isHeld_of_mem
        (Multiset.mem_add.mpr (.inl (Multiset.mem_singleton_self delivery.place)))
      obtain ⟨entry, hslot⟩ := QueueStore.isHeld_iff.mp held
      obtain ⟨outcome, houtcome⟩ := Option.isSome_iff_exists.mp
        (QueueStore.release_of_held custody.sound hslot counted).1
      have later := ih after
      have same : deliveries.map (fun other =>
            (((Deed.giveBack delivery.place counted).perform store).release other.queue other.entry
              counted).1)
          = deliveries.map fun other => (store.release other.queue other.entry counted).1 := by
        apply List.map_congr_left
        intro other hmem
        have waits : other.place ∈ ↑(deliveries.map OutgoingDelivery.place) + others :=
          Multiset.mem_add.mpr (.inl (Multiset.mem_coe.mpr (List.mem_map_of_mem hmem)))
        exact Deed.fst_release_perform (by simpa [Deed.place?] using custody) waits counted
      change (store.release delivery.queue delivery.entry counted).1 = some outcome at houtcome
      rw [same] at later
      rw [releaseAll, List.map_cons, ← later, houtcome]
      simp only [houtcome, Option.toList_some, List.singleton_append, List.map_cons]
      rfl

/-- Of the messages that are given back is left what it leaves of each, and of the others that were
there everything. -/
theorem slot?_releaseAll
    (custody : store.InCustody (↑(deliveries.map OutgoingDelivery.place) + others)) {place : Place}
    {queue : Queue} (found : store.get? place.1 = some queue) (old : place.2 < queue.nextId) :
  (releaseAll counted deliveries store).2.slot? place
    = if place ∈ deliveries.map OutgoingDelivery.place then
        (queue.slot? place.2).bind fun slot => Queue.slotAfter queue.policy slot.entry counted
      else queue.slot? place.2
  := by
  rw [← filterMap_givingBack counted] at custody
  rw [releaseAll_eq_performAll, ← givingBack, Deed.slot?_performAll custody found old]
  cases hslot : queue.slot? place.2 with
  | none => simp
  | some slot =>
      have number := Queue.id_of_slot? hslot
      rw [Option.bind_some, Option.bind_some, leftOf_givingBack, number]

/-! ### A session that takes its deliveries back -/

/-- A session that has taken its deliveries back, before what waits is sent. -/
def takenBack (s : Serving) : Serving :=
  ⟨{ s.session with outgoingUnsettled := [] },
    (releaseAll true s.session.outgoingUnsettled.rows s.store).2⟩

/-- What a session does when it takes its deliveries back: what it tells about their messages, and
the deliveries that are begun then. -/
structure Recovers (s s' : Serving) (outcomes : List ReleaseOutcome) (dispatches : List Dispatch) :
    Prop where
  /-- The deliveries are listed in the order of their numbers. -/
  ordered : s.session.outgoingUnsettled.Sorted
  /-- Every message is given back once. -/
  once : (s.session.outgoingUnsettled.rows.map OutgoingDelivery.place).Nodup
  /-- Of every delivery it is told what becomes of its message when that is given back as failed. -/
  outcomes : outcomes.map some = s.session.outgoingUnsettled.rows.map fun delivery =>
    (s.store.release delivery.queue delivery.entry true).1
  /-- One failed attempt is counted: the message takes its place again if it has others, and is
  taken out if not. -/
  counted : ∀ delivery ∈ s.session.outgoingUnsettled.rows, ∃ queue entry,
    s.store.get? delivery.queue = some queue
      ∧ queue.slot? delivery.entry = some ⟨entry, true⟩
      ∧ s.takenBack.store.slot? delivery.place = Queue.slotAfter queue.policy entry true
  /-- Nothing else is done to the queues until deliveries are begun. -/
  queues : ∀ id, s.takenBack.store.get? id = (s.store.get? id).map
    (Queue.settled (givingBack true s.session.outgoingUnsettled.rows) s.store id)
  /-- A message that was taken out before is not there again. -/
  gone : ∀ (place : Place) (queue : Queue), s.store.get? place.1 = some queue →
    place.2 < queue.nextId → queue.slot? place.2 = none → s'.store.slot? place = none
  /-- The messages that open transactions are to take out are held as they were. -/
  pending : ∀ place ∈ s.session.transactions.places,
    s.store.isHeld place = true ∧ s'.store.slot? place = s.store.slot? place
  /-- So is every message that someone else holds. -/
  kept : ∀ place, s.store.isHeld place = true →
    place ∉ s.session.outgoingUnsettled.rows.map OutgoingDelivery.place →
    s'.store.slot? place = s.store.slot? place
  /-- The transactions are the same. -/
  transactions : s'.session.transactions = s.session.transactions
  /-- Deliveries are begun, on whatever links, once every message is given back. -/
  begun : Dispatches dispatches s.takenBack s'
  /-- No other deliveries are unsettled then. -/
  unsettled : ∀ id delivery, s'.session.outgoingUnsettled.get? id = some delivery →
    ∃ dispatch ∈ dispatches, dispatch.id = id ∧ dispatch.settled = false
      ∧ dispatch.delivery = delivery
  /-- From every queue they take the messages that wait longest, in order. -/
  waiting : ∀ queue,
    s.takenBack.store.waiting queue = Dispatch.taken queue dispatches ++ s'.store.waiting queue
  /-- That is the order that the messages have in the queue. -/
  ascending : ∀ queue, (Dispatch.taken queue dispatches).Pairwise (· < ·)

section TakenBack

variable {s : Serving}
  (custody : s.store.InCustody (↑(s.session.outgoingUnsettled.rows.map OutgoingDelivery.place)
    + others))
include custody

theorem inCustody_takenBack :
  s.takenBack.store.InCustody others
  := (moves_releaseAll true s.session.outgoingUnsettled.rows others s.store).inCustody custody

/-- What others hold is left alone. -/
theorem slot?_takenBack {place : Place} (hplace : place ∈ others) :
  s.takenBack.store.slot? place = s.store.slot? place
  := by
  have moves := moves_releaseAll true s.session.outgoingUnsettled.rows 0 s.store
  rw [add_zero] at moves
  exact moves.slot?_of_others custody hplace

/-- The message of every delivery is given back, with a failed attempt counted. -/
theorem counted_takenBack {delivery : OutgoingDelivery}
    (hmem : delivery ∈ s.session.outgoingUnsettled.rows) :
  ∃ queue entry, s.store.get? delivery.queue = some queue
    ∧ queue.slot? delivery.entry = some ⟨entry, true⟩
    ∧ s.takenBack.store.slot? delivery.place = Queue.slotAfter queue.policy entry true
  := by
  have among := List.mem_map_of_mem (f := OutgoingDelivery.place) hmem
  obtain ⟨entry, hslot⟩ := QueueStore.isHeld_iff.mp
    (custody.isHeld_of_mem (Multiset.mem_add.mpr (.inl (Multiset.mem_coe.mpr among))))
  obtain ⟨queue, found, hqueue⟩ := Option.bind_eq_some_iff.mp hslot
  have old : delivery.place.2 < queue.nextId := by
    obtain ⟨there, number⟩ := (custody.sound _ queue found).slot?_eq_some_iff.mp hqueue
    rw [← number]
    exact (custody.sound _ queue found).given _ there
  refine ⟨queue, entry, found, hqueue, ?_⟩
  rw [takenBack, slot?_releaseAll custody found old, if_pos among, hqueue, Option.bind_some]

theorem get?_takenBack (id : QueueId) :
  s.takenBack.store.get? id = (s.store.get? id).map
    (Queue.settled (givingBack true s.session.outgoingUnsettled.rows) s.store id)
  := by
  rw [takenBack, releaseAll_eq_performAll]
  apply Deed.get?_performAll
  rwa [← givingBack, filterMap_givingBack]

/-- A message that was taken out before is not there again. -/
theorem gone_takenBack {place : Place} {queue : Queue} (found : s.store.get? place.1 = some queue)
    (old : place.2 < queue.nextId) (absent : queue.slot? place.2 = none) :
  s.takenBack.store.slot? place = none
  := by
  rw [takenBack, slot?_releaseAll custody found old, absent, Option.bind_none, ite_self]

end TakenBack

/-- Every delivery is taken back, and messages are sent anew in their old order. -/
theorem recovers_recover {s : Serving} (sound : s.session.Sound)
    (custody : s.store.InCustody (s.session.places + others)) :
  ∃ outcomes s' dispatches, s.recover = (outcomes, s') ∧ Recovers s s' outcomes dispatches
  := by
  rw [Session.places, unsettledPlaces, add_assoc] at custody
  obtain ⟨dispatches, begun⟩ := s.takenBack.dispatches_pumpAll
  obtain ⟨_, draws⟩ := s.takenBack.draws_pumpAll
  have waits := (inCustody_takenBack custody).sound
  have drawn := draws.store waits
  have kept : ∀ place ∈ s.session.transactions.places + others,
      s.takenBack.pumpAll.store.slot? place = s.store.slot? place := by
    intro place hplace
    have held := (inCustody_takenBack custody).isHeld_of_mem hplace
    rw [drawn.kept place held, slot?_takenBack custody hplace]
  refine ⟨_, _, dispatches, rfl, ?_⟩
  constructor
  · exact sound.sorted
  · exact Multiset.coe_nodup.mp (Multiset.nodup_of_le (Multiset.le_add_right _ _) custody.nodup)
  · exact outcomes_releaseAll custody
  · intro delivery hmem
    exact counted_takenBack custody hmem
  · exact get?_takenBack custody
  · intro place queue found old absent
    apply Option.eq_none_iff_forall_ne_some.mpr
    intro slot hslot
    obtain ⟨before, hbefore, -⟩ := drawn.same place slot hslot
    rw [gone_takenBack custody found old absent] at hbefore
    contradiction
  · intro place hplace
    have among : place ∈ s.session.transactions.places + others :=
      Multiset.mem_add.mpr (.inl hplace)
    exact ⟨custody.isHeld_of_mem (Multiset.mem_add.mpr (.inr among)), kept place among⟩
  · intro place held apart
    exact kept place ((Multiset.mem_add.mp (custody.mem_iff.mpr held)).resolve_left apart)
  · exact draws.transactions
  · exact begun
  · intro id delivery hget
    apply (begun.unsettled id delivery hget).resolve_left
    rw [takenBack, Table.get?_nil]
    exact (Option.some_ne_none delivery).symm
  · exact begun.waiting waits
  · exact begun.ascending waits

end Serving

end MessageBroker
