import MessageBroker.Proofs.Queue.Slots
import MessageBroker.Queue.Store

/-!
# Operations of a store

A store is sound if its queues are.  Every operation is known by the queue it leaves under each
number: the queue it works on is changed by the operation of that queue, a queue that a message
goes on to has it at its end, and every other queue stays as it is.  The names of the queues, and
which of them are listed, never change.
-/

namespace MessageBroker

/-- The place of a message in a store: its queue, and its number there. -/
abbrev Place := QueueId × Nat

namespace QueueStore

/-- Every queue is sound. -/
def Sound (store : QueueStore) : Prop :=
  ∀ id queue, store.get? id = some queue → queue.Sound

/-- The slot at a place. -/
def slot? (store : QueueStore) (place : Place) : Option Slot :=
  (store.get? place.1).bind (·.slot? place.2)

theorem slot?_of_found {store : QueueStore} {place : Place} {queue : Queue} {slot : Slot}
    (found : store.get? place.1 = some queue) (h : queue.slot? place.2 = some slot) :
  store.slot? place = some slot
  := by
  rw [slot?, found, Option.bind_some, h]

theorem found_of_slot? {store : QueueStore} {place : Place} {id : QueueId} {queue : Queue}
    (found : store.get? id = some queue) (here : id = place.1) {slot : Slot}
    (h : store.slot? place = some slot) :
  queue.slot? place.2 = some slot
  := by
  rwa [slot?, ← here, found, Option.bind_some] at h

/-- The names of the queues, and whether they are listed. -/
def listing (store : QueueStore) : List (String × Bool) :=
  store.queues.map fun stored => (stored.queue.name, stored.listed)

theorem Sound.empty :
  QueueStore.empty.Sound
  := by
  intro id queue h
  simp [get?, QueueStore.empty] at h

/-! ### Replacing a queue -/

@[simp]
theorem get?_notify (store : QueueStore) (id other : QueueId) :
  (store.notify id).get? other = store.get? other
  := by
  rw [notify]
  split <;> rfl

@[simp]
theorem listing_notify (store : QueueStore) (id : QueueId) :
  (store.notify id).listing = store.listing
  := by
  rw [notify]
  split <;> rfl

theorem get?_set (store : QueueStore) (id : QueueId) (queue : Queue) (other : QueueId) :
  (store.set id queue).get? other
    = if other = id then (store.get? other).map fun _ => queue else store.get? other
  := by
  rw [get?, get?, set, List.getElem?_modify]
  by_cases h : id = other
  · simp [h, Function.comp_def]
  · simp [h, Ne.symm h]

/-- The queue with a number is replaced by what an operation makes of it. -/
theorem get?_set_map {store : QueueStore} {id : QueueId} {queue : Queue}
    (found : store.get? id = some queue) (change : Queue → Queue) (other : QueueId) :
  (store.set id (change queue)).get? other
    = (store.get? other).map fun queue => if other = id then change queue else queue
  := by
  rw [get?_set]
  by_cases h : other = id
  · simp [h, found]
  · simp [h]

theorem listing_set {store : QueueStore} {id : QueueId} {queue : Queue}
    (found : store.get? id = some queue) (queue' : Queue) (name : queue'.name = queue.name) :
  (store.set id queue').listing = store.listing
  := by
  rw [listing, listing, set]
  apply List.ext_getElem?
  intro n
  rw [List.getElem?_map, List.getElem?_map, List.getElem?_modify]
  by_cases h : id = n
  · subst h
    rw [get?] at found
    cases hstored : store.queues[id]? with
    | none => simp
    | some stored =>
        have hq : stored.queue = queue := by simpa [hstored] using found
        simp [name, hq]
  · simp [h]

/-- A name is looked up in the listing alone. -/
theorem find?_eq (store : QueueStore) (name : String) :
  store.find? name = store.listing.findIdx? fun listed => listed.2 && listed.1 = name
  := by
  rw [find?, listing, List.findIdx?_map]
  rfl

/-- An alternate is looked up in the listing alone. -/
theorem alternate?_eq (store : QueueStore) (id : QueueId) (destination : String) :
  store.alternate? id destination
    = if (store.listing[id]?).any (·.2) then
        store.listing.findIdx? fun listed => listed.2 && listed.1 = destination
      else none
  := by
  rw [alternate?, ← find?_eq, listing, List.getElem?_map]
  cases hstored : store.queues[id]? with
  | none => rfl
  | some stored =>
      obtain ⟨queue, listed⟩ := stored
      cases listed <;> rfl

/-- A queue with a number is in a store. -/
def Has (store : QueueStore) (id : QueueId) : Prop :=
  ∃ queue, store.get? id = some queue

theorem has_iff {store : QueueStore} {id : QueueId} :
  store.Has id ↔ id < store.queues.length
  := by
  rw [Has, get?]
  constructor
  · rintro ⟨queue, h⟩
    obtain ⟨stored, hstored, -⟩ := Option.map_eq_some_iff.mp h
    exact (List.getElem?_eq_some_iff.mp hstored).1
  · intro hlt
    exact ⟨store.queues[id].queue, by rw [List.getElem?_eq_getElem hlt, Option.map_some]⟩

/-- A listed name is that of a queue of the store. -/
theorem get?_of_find? {store : QueueStore} {name : String} {id : QueueId}
    (h : store.find? name = some id) :
  store.Has id
  := by
  obtain ⟨hlt, -⟩ := List.findIdx?_eq_some_iff_getElem.mp h
  exact has_iff.mpr hlt

/-! ### Adding queues -/

@[simp]
theorem listing_add (store : QueueStore) (name : String) (policy : RedeliveryPolicy)
    (listed : Bool) :
  (store.add name policy listed).listing = store.listing ++ [(name, listed)]
  := by
  rw [listing, add, List.map_append]
  rfl

theorem get?_add (store : QueueStore) (name : String) (policy : RedeliveryPolicy) (listed : Bool)
    (id : QueueId) :
  (store.add name policy listed).get? id
    = if id = store.queues.length then some (.empty name policy) else store.get? id
  := by
  rw [get?, get?, add, List.getElem?_append]
  rcases Nat.lt_trichotomy id store.queues.length with hlt | rfl | hgt
  · rw [if_pos hlt, if_neg (Nat.ne_of_lt hlt)]
  · simp
  · rw [if_neg (Nat.lt_asymm hgt), if_neg (Nat.ne_of_gt hgt),
      List.getElem?_eq_none (by simp; omega), List.getElem?_eq_none (by omega)]

/-- A queue that is added brings no message. -/
theorem slot?_add (store : QueueStore) (name : String) (policy : RedeliveryPolicy)
    (listed : Bool) (place : Place) :
  (store.add name policy listed).slot? place = store.slot? place
  := by
  rw [slot?, slot?, get?_add]
  split
  · next h =>
      have hnone : store.get? place.1 = none := by
        rw [get?, h, List.getElem?_eq_none (Nat.le_refl _)]
        rfl
      rw [hnone]
      rfl
  · rfl

theorem Sound.add {store : QueueStore} (sound : store.Sound) (name : String)
    (policy : RedeliveryPolicy) (listed : Bool) :
  (store.add name policy listed).Sound
  := by
  intro id queue h
  rw [get?_add] at h
  split at h
  · rw [← Option.some.inj h]
    exact .empty name policy
  · exact sound id queue h

/-! ### Putting messages into queues -/

theorem get?_enqueue (store : QueueStore) (id : QueueId) (payload : Bytes) (other : QueueId) :
  (store.enqueue id payload).2.get? other
    = (store.get? other).map fun queue => if other = id then queue.enqueue payload else queue
  := by
  rw [enqueue]
  split
  · next queue found => rw [get?_notify, get?_set_map found (·.enqueue payload)]
  · next found =>
      by_cases h : other = id
      · simp [h, found]
      · simp [h]

@[simp]
theorem listing_enqueue (store : QueueStore) (id : QueueId) (payload : Bytes) :
  (store.enqueue id payload).2.listing = store.listing
  := by
  rw [enqueue]
  split
  · next queue found => rw [listing_notify, listing_set found (queue.enqueue payload) rfl]
  · rfl

theorem Sound.enqueue {store : QueueStore} (sound : store.Sound) (id : QueueId)
    (payload : Bytes) :
  (store.enqueue id payload).2.Sound
  := by
  intro other queue h
  rw [get?_enqueue] at h
  obtain ⟨old, hold, rfl⟩ := Option.map_eq_some_iff.mp h
  split
  · exact (sound other old hold).enqueue payload
  · exact sound other old hold

/-- A message that is put into a queue gets the next number, and is available. -/
theorem slot?_enqueue {store : QueueStore} (sound : store.Sound) {id : QueueId} {queue : Queue}
    (found : store.get? id = some queue) (payload : Bytes) (place : Place) :
  (store.enqueue id payload).2.slot? place
    = if place = (id, queue.nextId) then some ⟨⟨queue.nextId, payload, 0⟩, false⟩
      else store.slot? place
  := by
  obtain ⟨other, number⟩ := place
  rw [slot?, slot?, get?_enqueue]
  by_cases h : other = id
  · subst h
    simp [found, Queue.slot?_enqueue (sound other queue found)]
  · simp [h]

/-- The place that a message is put at was empty. -/
theorem slot?_nextId {store : QueueStore} (sound : store.Sound) {id : QueueId} {queue : Queue}
    (found : store.get? id = some queue) :
  store.slot? (id, queue.nextId) = none
  := by
  simp [slot?, found, (sound id queue found).slot?_nextId]

/-- Nothing is put into a queue that there is not. -/
theorem enqueue_of_none {store : QueueStore} {id : QueueId} (h : store.get? id = none)
    (payload : Bytes) :
  (store.enqueue id payload).2 = store
  := by
  rw [enqueue, h]

/-! ### Handing messages to consumers -/

/-- A message that is handed to a consumer was available and is held afterwards. -/
theorem acquire_eq_some {store store' : QueueStore} (sound : store.Sound) {id : QueueId}
    {entry : QueueEntry} (h : store.acquire id = (some entry, store')) :
  store.slot? (id, entry.id) = some ⟨entry, false⟩
    ∧ (∀ other, store'.get? other = (store.get? other).map fun queue =>
        if other = id then queue.setHeld entry.id true else queue)
    ∧ store'.listing = store.listing
  := by
  rw [acquire] at h
  split at h
  · next first queue' hacquire =>
      obtain ⟨hentry, rfl⟩ := Prod.mk.inj h
      obtain rfl := Option.some.inj hentry
      obtain ⟨queue, found, hqueue⟩ := Option.bind_eq_some_iff.mp hacquire
      obtain ⟨hslot, rfl⟩ := Queue.acquire_eq_some (sound id queue found) hqueue
      refine ⟨by simp [slot?, found, hslot], ?_, listing_set found (queue.setHeld first.id true) rfl⟩
      apply get?_set_map found (·.setHeld first.id true)
  · simp at h

/-- A store stays as it is if it has no message to hand to a consumer. -/
theorem acquire_eq_none {store store' : QueueStore} {id : QueueId}
    (h : store.acquire id = (none, store')) :
  store' = store
  := by
  rw [acquire] at h
  split at h
  · simp at h
  · exact (Prod.mk.inj h).2.symm

/-! ### Acknowledging messages -/

/-- A held message that is acknowledged is taken out. -/
theorem acknowledge_of_held {store : QueueStore} (sound : store.Sound) {place : Place}
    {entry : QueueEntry} (h : store.slot? place = some ⟨entry, true⟩) :
  (store.acknowledge place.1 place.2).1 = true
    ∧ (∀ other, (store.acknowledge place.1 place.2).2.get? other
        = (store.get? other).map fun queue =>
            if other = place.1 then queue.remove place.2 else queue)
    ∧ (store.acknowledge place.1 place.2).2.listing = store.listing
  := by
  obtain ⟨queue, found, hslot⟩ := Option.bind_eq_some_iff.mp h
  have hqueue := Queue.acknowledge_of_held (sound place.1 queue found) hslot
  rw [acknowledge, found, Option.bind_some, hqueue]
  refine ⟨rfl, ?_, listing_set found (queue.remove place.2) rfl⟩
  apply get?_set_map found (·.remove place.2)

/-! ### Taking messages back -/

/-- Where a held message goes on to when it is given back without further attempts, and the
message. -/
def onward? (store : QueueStore) (place : Place) (counted : Bool) : Option (QueueId × Bytes) := do
  let queue ← store.get? place.1
  let slot ← queue.slot? place.2
  match queue.policy.decide (Queue.attemptsAfter slot.entry counted) with
  | .deadLetter destination =>
    let alternate ← store.alternate? place.1 destination
    some (alternate, slot.entry.payload)
  | _ => none

/-- The queue with a number after the message at a place was given back, before it goes on. -/
def leaving (place : Place) (counted : Bool) (id : QueueId) (queue : Queue) : Queue :=
  if id = place.1 then queue.takeBack place.2 counted else queue

/-- The queue with a number after a message has gone on to where it goes. -/
def receiving (onward : Option (QueueId × Bytes)) (id : QueueId) (queue : Queue) : Queue :=
  match onward with
  | some (alternate, payload) => if id = alternate then queue.enqueue payload else queue
  | none => queue

/-- A held message that is given back leaves its slot, or goes on, or is dropped. -/
theorem release_of_held {store : QueueStore} (sound : store.Sound) {place : Place}
    {entry : QueueEntry} (h : store.slot? place = some ⟨entry, true⟩) (counted : Bool) :
  (store.release place.1 place.2 counted).1.isSome
    ∧ (∀ other, (store.release place.1 place.2 counted).2.get? other
        = (store.get? other).map fun queue =>
            receiving (store.onward? place counted) other (leaving place counted other queue))
    ∧ (store.release place.1 place.2 counted).2.listing = store.listing
  := by
  obtain ⟨queue, found, hslot⟩ := Option.bind_eq_some_iff.mp h
  have hqueue := Queue.giveBack_of_held (sound place.1 queue found) hslot counted
  have hset := get?_set_map found (·.takeBack place.2 counted)
  have hlisting := listing_set found (queue.takeBack place.2 counted) rfl
  rw [release, found, Option.bind_some, hqueue]
  simp only [onward?, found, hslot, Option.bind_eq_bind, Option.bind_some]
  split
  · next hdecide =>
      refine ⟨rfl, ?_, by rw [listing_notify, hlisting]⟩
      intro other
      rw [get?_notify, hset, hdecide]
      rfl
  · next hdecide =>
      refine ⟨rfl, ?_, hlisting⟩
      intro other
      rw [hset, hdecide]
      rfl
  · next destination hdecide =>
      have halternate : (store.set place.1 (queue.takeBack place.2 counted)).alternate? place.1
          destination = store.alternate? place.1 destination := by
        rw [alternate?_eq, alternate?_eq, hlisting]
      rw [halternate]
      cases hto : store.alternate? place.1 destination with
      | some alternate =>
          refine ⟨rfl, ?_, by rw [listing_enqueue, hlisting]⟩
          intro other
          rw [get?_enqueue, hset, Option.map_map]
          simp only [hdecide, hto]
          rfl
      | none =>
          refine ⟨rfl, ?_, hlisting⟩
          intro other
          rw [hset]
          simp only [hdecide, hto]
          rfl

/-! ### Queues stay in a store -/

section Length

variable (store : QueueStore) (id : QueueId)

@[simp]
theorem length_notify :
  (store.notify id).queues.length = store.queues.length
  := by
  rw [notify]
  split <;> rfl

@[simp]
theorem length_set (queue : Queue) :
  (store.set id queue).queues.length = store.queues.length
  := List.length_modify _ _ _

@[simp]
theorem length_enqueue (payload : Bytes) :
  (store.enqueue id payload).2.queues.length = store.queues.length
  := by
  rw [enqueue]
  split <;> simp

theorem length_acquire :
  (store.acquire id).2.queues.length = store.queues.length
  := by
  rw [acquire]
  split <;> simp

theorem length_acknowledge (entry : Nat) :
  (store.acknowledge id entry).2.queues.length = store.queues.length
  := by
  rw [acknowledge]
  split <;> simp

theorem length_release (entry : Nat) (counted : Bool) :
  (store.release id entry counted).2.queues.length = store.queues.length
  := by
  rw [release]
  split
  · rfl
  · dsimp only
    split
    · simp
    · simp
    · split <;> simp

end Length

end QueueStore

end MessageBroker
