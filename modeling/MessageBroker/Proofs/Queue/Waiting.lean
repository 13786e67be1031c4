import MessageBroker.Proofs.Queue.Deeds
import MessageBroker.Proofs.Queue.Redelivery
import MessageBroker.Proofs.Queue.Signals

/-!
# Messages that wait, in order

The messages of a queue that wait are in the order of their numbers, and the first of them is handed
out first.  A message that is given back waits at its old place.  Deeds that are done to different
held messages leave of each what each of them leaves of its own, and all other messages as they are.
-/

namespace MessageBroker

namespace Queue

variable {queue queue' : Queue} {deeds : List Deed} {id : QueueId} {number : Nat}

/-! ### Slots that deeds leave -/

theorem id_of_leftOf {policy : RedeliveryPolicy} {slot left : Slot}
    (h : leftOf deeds id policy slot = some left) :
  left.entry.id = slot.entry.id
  := by
  rw [leftOf] at h
  split at h
  · next deed hfind =>
      cases deed with
      | arrive other payload => rw [← Option.some.inj h]
      | take place => contradiction
      | giveBack place counted => exact (id_of_slotAfter h).1
  · rw [← Option.some.inj h]

theorem Sound.leave (sound : queue.Sound) :
  (queue.leave deeds id).Sound
  := by
  constructor
  · simp only [Queue.leave]
    rw [List.pairwise_map, List.pairwise_filterMap]
    apply List.Pairwise.imp _ (List.pairwise_map.mp sound.ascending)
    intro a b hlt a' ha' b' hb'
    rw [id_of_leftOf ha', id_of_leftOf hb']
    exact hlt
  · intro left hleft
    obtain ⟨slot, hslot, h⟩ := List.mem_filterMap.mp hleft
    rw [id_of_leftOf h]
    exact sound.given slot hslot

/-- Of every slot is left what the deeds leave of it. -/
theorem slot?_leave (sound : queue.Sound) (number : Nat) :
  (queue.leave deeds id).slot? number
    = (queue.slot? number).bind (leftOf deeds id queue.policy)
  := by
  ext left
  rw [sound.leave.slot?_eq_some_iff, Option.bind_eq_some_iff]
  constructor
  · rintro ⟨hmem, rfl⟩
    obtain ⟨slot, hslot, h⟩ := List.mem_filterMap.mp hmem
    exact ⟨slot, by rw [id_of_leftOf h, sound.slot?_of_mem hslot], h⟩
  · rintro ⟨slot, hslot, h⟩
    obtain ⟨hmem, rfl⟩ := sound.slot?_eq_some_iff.mp hslot
    exact ⟨List.mem_filterMap.mpr ⟨slot, hmem, h⟩, id_of_leftOf h⟩

/-- What arrives in a queue changes nothing at the numbers that were given out before. -/
theorem slot?_arrive (sound : queue.Sound) (old : number < queue.nextId)
    (arrivals : List (QueueId × Bytes)) :
  (queue.arrive arrivals id).slot? number = queue.slot? number
  := by
  induction arrivals generalizing queue with
  | nil => rfl
  | cons arrival others ih =>
      rw [arrive_cons]
      split
      · rw [ih (sound.enqueue _) (Nat.lt_succ_of_lt old), slot?_enqueue sound,
          if_neg (Nat.ne_of_lt old)]
      · exact ih sound old

/-! ### Messages that wait in a queue -/

/-- The messages that wait are in the order of their numbers. -/
theorem waiting_pairwise (sound : queue.Sound) :
  queue.waiting.Pairwise (· < ·)
  := sound.ordered.ascending

/-- The first message that waits is handed out, and the others go on waiting. -/
theorem waiting_of_acquire (sound : queue.Sound) {entry : QueueEntry}
    (h : queue.acquire = some (entry, queue')) :
  queue.waiting = entry.id :: queue'.waiting
  := by
  rw [waiting, browse_of_acquire sound h]
  rfl

/-- A message that is held does not wait, so taking it out changes nothing about those that do. -/
theorem waiting_remove_of_held (sound : queue.Sound) {entry : QueueEntry}
    (h : queue.slot? number = some ⟨entry, true⟩) :
  (queue.remove number).waiting = queue.waiting
  := by
  rw [waiting, browse, remove, List.filter_filter, waiting, browse]
  congr 2
  apply List.filter_congr
  intro slot hmem
  by_cases here : slot.entry.id = number
  · have found := sound.slot?_of_mem hmem
    rw [here, h] at found
    simp [← Option.some.inj found]
  · simp [here]

end Queue

/-! ### What becomes of messages that are given back -/

namespace QueueStore

variable {store : QueueStore}

/-- What becomes of a held message that is given back depends on its attempts, the policy of its
queue and the names of the queues. -/
theorem fst_release (sound : store.Sound) {place : Place} {queue : Queue}
    (found : store.get? place.1 = some queue) {entry : QueueEntry}
    (held : queue.slot? place.2 = some ⟨entry, true⟩) (counted : Bool) :
  (store.release place.1 place.2 counted).1
    = match queue.policy.decide (Queue.attemptsAfter entry counted) with
      | .requeue => some .requeued
      | .discard => some .discarded
      | .deadLetter destination =>
        match store.alternate? place.1 destination with
        | some _ => some (.deadLettered destination)
        | none => some .discarded
  := by
  rw [release_eq sound found held]
  cases queue.policy.decide (Queue.attemptsAfter entry counted) with
  | requeue => rfl
  | discard => rfl
  | deadLetter destination =>
      dsimp only
      cases store.alternate? place.1 destination <;> rfl

end QueueStore

namespace Deed

variable {store : QueueStore} {deeds : List Deed} {others : Multiset Place}

/-- What becomes of a message that is given back is the same after a deed that is done to
another. -/
theorem fst_release_perform {deed : Deed}
    (custody : store.InCustody (↑deed.place?.toList + others)) {place : Place}
    (hplace : place ∈ others) (counted : Bool) :
  ((deed.perform store).release place.1 place.2 counted).1
    = (store.release place.1 place.2 counted).1
  := by
  have held : ∀ own, deed.place? = some own → store.isHeld own = true := by
    intro own hown
    apply custody.isHeld_of_mem
    simp [hown]
  obtain ⟨entry, hslot⟩ := QueueStore.isHeld_iff.mp
    (custody.isHeld_of_mem (Multiset.mem_add.mpr (.inr hplace)))
  have same : (deed.perform store).slot? place = store.slot? place :=
    (deed.move_perform 0 store).slot?_of_others (by simpa using custody) hplace
  have sound' : (deed.perform store).Sound := ((deed.move_perform others store).inCustody custody).sound
  obtain ⟨queue, found, hqueue⟩ := Option.bind_eq_some_iff.mp hslot
  rw [hslot] at same
  have found' : (deed.perform store).get? place.1 = some (queue.settled [deed] store place.1) := by
    rw [get?_perform custody.sound held, found, Option.map_some]
  have hqueue' : (queue.settled [deed] store place.1).slot? place.2 = some ⟨entry, true⟩ := by
    rwa [QueueStore.slot?, found', Option.bind_some] at same
  have policy : (queue.settled [deed] store place.1).policy = queue.policy :=
    Queue.policy_arrive _ _ _
  rw [QueueStore.fst_release sound' found' hqueue',
    QueueStore.fst_release custody.sound found hqueue, policy]
  simp only [QueueStore.alternate?_eq, listing_perform custody.sound held]

/-- Of every message of old is left what the deeds leave of it. -/
theorem slot?_performAll (custody : store.InCustody (↑(deeds.filterMap place?) + others))
    {place : Place} {queue : Queue} (found : store.get? place.1 = some queue)
    (old : place.2 < queue.nextId) :
  (performAll deeds store).slot? place
    = (queue.slot? place.2).bind (Queue.leftOf deeds place.1 queue.policy)
  := by
  have sound := custody.sound place.1 queue found
  rw [QueueStore.slot?, get?_performAll custody, found, Option.map_some, Option.bind_some,
    Queue.settled, Queue.slot?_arrive sound.leave (by exact old), Queue.slot?_leave sound]

end Deed

/-! ### Messages that wait in a store -/

namespace QueueStore

variable {store store' : QueueStore} {id : QueueId}

theorem waiting_pairwise (sound : store.Sound) (id : QueueId) :
  (store.waiting id).Pairwise (· < ·)
  := by
  rw [waiting]
  cases found : store.get? id with
  | none => exact List.Pairwise.nil
  | some queue => exact Queue.waiting_pairwise (sound id queue found)

/-- The first message of a queue that waits is handed out; the others go on waiting, and so do those
of the other queues. -/
theorem waiting_of_acquire (sound : store.Sound) {entry : QueueEntry}
    (h : store.acquire id = (some entry, store')) (other : QueueId) :
  store.waiting other = (if id = other then [entry.id] else []) ++ store'.waiting other
  := by
  rw [acquire] at h
  split at h
  · next first queue' hbind =>
      obtain ⟨hfirst, rfl⟩ := Prod.mk.inj h
      obtain rfl := Option.some.inj hfirst
      obtain ⟨queue, found, hacquire⟩ := Option.bind_eq_some_iff.mp hbind
      rw [waiting, waiting, get?_set]
      by_cases same : other = id
      · rw [if_pos same, if_pos same.symm, same, found]
        exact Queue.waiting_of_acquire (sound id queue found) hacquire
      · rw [if_neg same, if_neg (Ne.symm same)]
        rfl
  · cases (Prod.mk.inj h).1

/-- Taking out a held message changes nothing about those that wait. -/
theorem waiting_acknowledge (sound : store.Sound) {place : Place}
    (held : store.isHeld place = true) (other : QueueId) :
  (store.acknowledge place.1 place.2).2.waiting other = store.waiting other
  := by
  obtain ⟨entry, hslot⟩ := isHeld_iff.mp held
  obtain ⟨queue, found, hqueue⟩ := Option.bind_eq_some_iff.mp hslot
  rw [waiting, (acknowledge_of_held sound hslot).2.1, waiting]
  by_cases same : other = place.1
  · rw [same, found, Option.map_some, if_pos rfl]
    exact Queue.waiting_remove_of_held (sound place.1 queue found) hqueue
  · cases store.get? other with
    | none => rfl
    | some before => rw [Option.map_some, if_neg same]

end QueueStore

end MessageBroker
