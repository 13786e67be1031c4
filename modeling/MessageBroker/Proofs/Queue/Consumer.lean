import MessageBroker.Proofs.Queue.Custody
import MessageBroker.Queue.Consumer

/-!
# Custody of consumers

A consumer holds the messages that it has neither acknowledged nor given back.  All that it does
is a run of moves on behalf of what it holds.
-/

namespace MessageBroker.Consumer

/-- The places of messages of a queue. -/
def placesIn (queue : QueueId) (entries : List Nat) : Multiset Place :=
  entries.map fun entry => (queue, entry)

/-- The places of the messages that a consumer holds. -/
def places (consumer : Consumer) : Multiset Place :=
  placesIn consumer.queue consumer.unacked

/-- What a consumer holds, and the queues. -/
def custody (consumer : Consumer) (store : QueueStore) : Custody :=
  ⟨consumer.places, store⟩

theorem placesIn_cons (queue : QueueId) (entry : Nat) (entries : List Nat) :
  placesIn queue (entry :: entries) = (queue, entry) ::ₘ placesIn queue entries
  := rfl

theorem moves_receive (consumer : Consumer) (store : QueueStore) :
  (consumer.custody store).Moves
    ((consumer.receive store).2.1.custody (consumer.receive store).2.2)
  := by
  rw [receive]
  split
  · next entry store' hacquire =>
      have hplaces : placesIn consumer.queue (consumer.unacked ++ [entry.id])
          = (consumer.queue, entry.id) ::ₘ consumer.places := by
        rw [places, ← placesIn_cons]
        apply Multiset.coe_eq_coe.mpr
        exact (List.perm_append_singleton _ _).map _
      dsimp only
      rw [custody, custody]
      change Custody.Moves _ ⟨placesIn consumer.queue (consumer.unacked ++ [entry.id]), store'⟩
      rw [hplaces]
      exact .single (.acquire consumer.places hacquire)
  · next store' hacquire =>
      rw [QueueStore.acquire_eq_none hacquire]

theorem moves_acknowledge (consumer : Consumer) (store : QueueStore) (entry : Nat) :
  (consumer.custody store).Moves
    ((consumer.acknowledge store entry).2.1.custody (consumer.acknowledge store entry).2.2)
  := by
  rw [acknowledge]
  split
  · next hmem =>
      have hplaces : consumer.places
          = (consumer.queue, entry) ::ₘ placesIn consumer.queue (consumer.unacked.erase entry) := by
        rw [places, ← placesIn_cons]
        apply Multiset.coe_eq_coe.mpr
        exact (List.perm_cons_erase hmem).map _
      rw [custody, hplaces]
      exact .single (.acknowledge _ store (consumer.queue, entry))
  · exact .refl

theorem moves_acknowledgeAll (consumer : Consumer) (store : QueueStore) :
  (consumer.custody store).Moves
    ((consumer.acknowledgeAll store).1.custody (consumer.acknowledgeAll store).2)
  := by
  rw [acknowledgeAll, custody, places]
  generalize consumer.unacked = entries
  induction entries generalizing store with
  | nil => exact .refl
  | cons entry entries ih =>
      rw [placesIn_cons]
      exact .head (.acknowledge _ store (consumer.queue, entry)) (ih _)

/-- Messages are given back one after another. -/
theorem moves_releaseAll (queue : QueueId) (counted : Bool) (entries : List Nat)
    (store : QueueStore) :
  Custody.Moves ⟨placesIn queue entries, store⟩ ⟨0, (releaseAll queue counted entries store).2⟩
  := by
  induction entries generalizing store with
  | nil => exact .refl
  | cons entry entries ih =>
      rw [placesIn_cons]
      exact .head (.release _ store (queue, entry) counted) (ih _)

theorem moves_recover (consumer : Consumer) (store : QueueStore) :
  (consumer.custody store).Moves
    ((consumer.recover store).2.1.custody (consumer.recover store).2.2)
  := moves_releaseAll consumer.queue true consumer.unacked store

/-- A consumer that goes leaves nothing that it held. -/
theorem moves_close (consumer : Consumer) (store : QueueStore) :
  (consumer.custody store).Moves ⟨0, consumer.close store⟩
  := moves_releaseAll consumer.queue false consumer.unacked store

end MessageBroker.Consumer
