import MessageBroker.Proofs.Lists
import MessageBroker.Proofs.Queue.Requests

/-!
# Conservation of messages

The payloads in a queue, held or not, are a multiset, and so are those in all queues together.
A request adds a payload only by putting a message into a queue, and takes one away only by
acknowledging its message or by giving it up; a message that goes on to another queue leaves the
multiset as it was.  The available messages of a queue are handed out in the order of their
numbers, which is the order in which they were put in.
-/

namespace MessageBroker

/-! ### Payloads of a queue -/

namespace Queue

/-- The payloads in a queue. -/
def payloads (queue : Queue) : Multiset Bytes :=
  ↑(queue.slots.map (·.entry.payload))

theorem payloads_enqueue (queue : Queue) (payload : Bytes) :
  (queue.enqueue payload).payloads = payload ::ₘ queue.payloads
  := by
  rw [payloads, enqueue, List.map_append, ← Multiset.coe_add, payloads, add_comm]
  rfl

theorem payloads_map (queue : Queue) (change : Slot → Slot)
    (keeps : ∀ slot, (change slot).entry.payload = slot.entry.payload) :
  payloads { queue with slots := queue.slots.map change } = queue.payloads
  := by
  simp [payloads, Function.comp_def, keeps]

theorem payloads_setHeld (queue : Queue) (id : Nat) (held : Bool) :
  (queue.setHeld id held).payloads = queue.payloads
  := by
  apply payloads_map
  intro slot
  split <;> rfl

theorem payloads_countAttempt (queue : Queue) (id : Nat) :
  (queue.countAttempt id).payloads = queue.payloads
  := by
  apply payloads_map
  intro slot
  split <;> rfl

/-- A slot stands apart from the slots of other numbers. -/
theorem perm_cons_filter {slots : List Slot}
    (ascending : (slots.map (·.entry.id)).Pairwise (· < ·)) {slot : Slot} (h : slot ∈ slots) :
  slots.Perm (slot :: slots.filter fun other => other.entry.id ≠ slot.entry.id)
  := by
  induction slots with
  | nil => cases h
  | cons first others ih =>
    obtain ⟨before, ascending'⟩ := List.pairwise_cons.mp ascending
    obtain rfl | later := List.mem_cons.mp h
    · have apart : others.filter (fun other => other.entry.id ≠ slot.entry.id) = others := by
        apply List.filter_eq_self.mpr
        intro other hother
        have less := before other.entry.id (List.mem_map_of_mem hother)
        simpa using Nat.ne_of_gt less
      rw [List.filter_cons_of_neg (by simp), apart]
    · have less := before slot.entry.id (List.mem_map_of_mem later)
      rw [List.filter_cons_of_pos (by simpa using Nat.ne_of_lt less)]
      exact ((ih ascending' later).cons first).trans (.swap slot first _)

theorem payloads_remove {queue : Queue} (sound : queue.Sound) {id : Nat} {slot : Slot}
    (h : queue.slot? id = some slot) :
  queue.payloads = slot.entry.payload ::ₘ (queue.remove id).payloads
  := by
  obtain ⟨mem, rfl⟩ := sound.slot?_eq_some_iff.mp h
  rw [payloads, payloads, Multiset.cons_coe, Multiset.coe_eq_coe]
  exact (perm_cons_filter sound.ascending mem).map (·.entry.payload)

theorem payloads_takeBack_of_requeue {queue : Queue} (sound : queue.Sound) {id : Nat}
    {entry : QueueEntry} {held : Bool} (h : queue.slot? id = some ⟨entry, held⟩) {counted : Bool}
    (again : queue.policy.decide (attemptsAfter entry counted) = .requeue) :
  (queue.takeBack id counted).payloads = queue.payloads
  := by
  rw [← setHeld_eq_takeBack (entry_of_slot? sound h) again, payloads_setHeld]
  split
  · apply payloads_countAttempt
  · rfl

end Queue

/-! ### Payloads of a store -/

namespace QueueStore

/-- The payloads in all queues together. -/
def payloads (store : QueueStore) : Multiset Bytes :=
  (store.queues.map (·.queue.payloads)).sum

@[simp]
theorem payloads_notify (store : QueueStore) (id : QueueId) :
  (store.notify id).payloads = store.payloads
  := by
  rw [notify]
  split <;> rfl

/-- A queue that is added brings no payload. -/
theorem payloads_add (store : QueueStore) (name : String) (policy : RedeliveryPolicy)
    (listed : Bool) :
  (store.add name policy listed).payloads = store.payloads
  := by
  have nothing : (Queue.empty name policy).payloads = 0 := rfl
  rw [payloads, add, List.map_append, List.sum_append, List.map_singleton, List.sum_singleton,
    nothing, add_zero, payloads]

/-- Replacing a queue replaces its payloads. -/
theorem payloads_set {store : QueueStore} {id : QueueId} {queue : Queue}
    (found : store.get? id = some queue) (queue' : Queue) :
  (store.set id queue').payloads + queue.payloads = store.payloads + queue'.payloads
  := by
  obtain ⟨stored, hstored, rfl⟩ := Option.map_eq_some_iff.mp found
  exact sum_modify (·.queue.payloads) _ hstored

/-- A queue may be replaced by one with the same payloads. -/
theorem payloads_set_same {store : QueueStore} {id : QueueId} {queue : Queue}
    (found : store.get? id = some queue) {queue' : Queue}
    (same : queue'.payloads = queue.payloads) :
  (store.set id queue').payloads = store.payloads
  := by
  have sums := payloads_set found queue'
  rw [same] at sums
  exact add_right_cancel sums

theorem payloads_set_add {store : QueueStore} {id : QueueId} {queue : Queue}
    (found : store.get? id = some queue) {queue' : Queue} {payload : Bytes}
    (more : queue'.payloads = payload ::ₘ queue.payloads) :
  (store.set id queue').payloads = payload ::ₘ store.payloads
  := by
  have sums := payloads_set found queue'
  rw [more, Multiset.add_cons, ← Multiset.cons_add] at sums
  exact add_right_cancel sums

theorem payloads_set_remove {store : QueueStore} (sound : store.Sound) {id : QueueId}
    {queue : Queue} (found : store.get? id = some queue) {number : Nat} {slot : Slot}
    (h : queue.slot? number = some slot) :
  store.payloads = slot.entry.payload ::ₘ (store.set id (queue.remove number)).payloads
  := by
  have sums := payloads_set found (queue.remove number)
  rw [Queue.payloads_remove (sound id queue found) h, Multiset.add_cons, ← Multiset.cons_add]
    at sums
  exact (add_right_cancel sums).symm

theorem payloads_enqueue {store : QueueStore} {id : QueueId} (has : store.Has id)
    (payload : Bytes) :
  (store.enqueue id payload).2.payloads = payload ::ₘ store.payloads
  := by
  obtain ⟨queue, found⟩ := has
  rw [enqueue, found]
  simp only [payloads_notify]
  exact payloads_set_add found (queue.payloads_enqueue payload)

theorem payloads_acquire {store : QueueStore} (sound : store.Sound) (id : QueueId) :
  (store.acquire id).2.payloads = store.payloads
  := by
  rw [acquire]
  split
  · next entry queue' h =>
    obtain ⟨queue, found, acquired⟩ := Option.bind_eq_some_iff.mp h
    obtain ⟨-, rfl⟩ := Queue.acquire_eq_some (sound id queue found) acquired
    exact payloads_set_same found (queue.payloads_setHeld entry.id true)
  · rfl

/-! ### The order of a queue -/

end QueueStore

namespace Queue

/-- The available and the held messages of a queue are told apart by their numbers, which were
all given out, and are found by them.  The available ones are shown in the order of their
numbers, and the first of them is the next to be handed out. -/
structure Ordered (queue : Queue) : Prop where
  /-- No number is both available and held. -/
  disjoint : ∀ free ∈ queue.browse, ∀ taken ∈ queue.heldEntries, free.id ≠ taken.id
  /-- What is found at a number has that number. -/
  own : ∀ id slot, queue.slot? id = some slot → slot.entry.id = id
  /-- The numbers were given out. -/
  given : ∀ entry ∈ queue.browse ++ queue.heldEntries, entry.id < queue.nextId
  /-- The numbers of the available messages ascend. -/
  ascending : (queue.browse.map (·.id)).Pairwise (· < ·)
  /-- The numbers of the held messages ascend. -/
  heldAscending : (queue.heldEntries.map (·.id)).Pairwise (· < ·)
  /-- The available message with the least number is handed out. -/
  least : ∀ entry queue', queue.acquire = some (entry, queue') →
    entry ∈ queue.browse ∧ ∀ other ∈ queue.browse, entry.id ≤ other.id
  /-- There is a message to be handed out if one is available. -/
  some_least : queue.browse ≠ [] → queue.acquire.isSome

theorem slot_of_mem_browse {queue : Queue} {entry : QueueEntry} (h : entry ∈ queue.browse) :
  ⟨entry, false⟩ ∈ queue.slots
  := by
  obtain ⟨slot, hslot, rfl⟩ := List.mem_map.mp h
  obtain ⟨mem, free⟩ := List.mem_filter.mp hslot
  cases slot with
  | mk entry held =>
    obtain rfl : held = false := by simpa using free
    exact mem

theorem slot_of_mem_heldEntries {queue : Queue} {entry : QueueEntry}
    (h : entry ∈ queue.heldEntries) :
  ⟨entry, true⟩ ∈ queue.slots
  := by
  obtain ⟨slot, hslot, rfl⟩ := List.mem_map.mp h
  obtain ⟨mem, taken⟩ := List.mem_filter.mp hslot
  cases slot with
  | mk entry held =>
    obtain rfl : held = true := taken
    exact mem

theorem Sound.ascending_filter {queue : Queue} (sound : queue.Sound) (p : Slot → Bool) :
  (((queue.slots.filter p).map (·.entry)).map (·.id)).Pairwise (· < ·)
  := by
  rw [List.map_map]
  exact sound.ascending.sublist (List.filter_sublist.map _)

theorem Sound.ordered {queue : Queue} (sound : queue.Sound) :
  queue.Ordered
  := by
  have free := sound.ascending_filter fun slot => !slot.held
  constructor
  · intro free hfree taken htaken same
    have available := sound.slot?_of_mem (slot_of_mem_browse hfree)
    have held := sound.slot?_of_mem (slot_of_mem_heldEntries htaken)
    rw [same, held] at available
    cases available
  · intro id slot h
    exact id_of_slot? h
  · intro entry h
    obtain h | h := List.mem_append.mp h
    · exact sound.given _ (slot_of_mem_browse h)
    · exact sound.given _ (slot_of_mem_heldEntries h)
  · exact free
  · exact sound.ascending_filter (·.held)
  · intro entry queue' h
    rw [acquire] at h
    cases hbrowse : queue.browse with
    | nil =>
      rw [hbrowse] at h
      cases h
    | cons first others =>
      rw [hbrowse] at h
      obtain ⟨rfl, -⟩ := Prod.mk.inj (Option.some.inj h)
      refine ⟨List.mem_cons_self, ?_⟩
      rw [browse] at hbrowse
      rw [hbrowse] at free
      obtain ⟨before, -⟩ := List.pairwise_cons.mp free
      intro other hother
      obtain rfl | later := List.mem_cons.mp hother
      · exact Nat.le_refl _
      · exact Nat.le_of_lt (before _ (List.mem_map_of_mem later))
  · intro some_free
    rw [acquire]
    cases hbrowse : queue.browse with
    | nil => exact absurd hbrowse some_free
    | cons first others => rfl

/-- Holding a message takes it from the available ones. -/
theorem browse_setHeld (queue : Queue) (id : Nat) :
  (queue.setHeld id true).browse = queue.browse.filter fun entry => entry.id ≠ id
  := by
  simp only [browse, setHeld]
  induction queue.slots with
  | nil => rfl
  | cons slot slots ih =>
    rw [List.map_cons, List.filter_cons, List.filter_cons]
    by_cases here : slot.entry.id = id
    · cases held : slot.held <;> simpa [here, held] using ih
    · cases held : slot.held <;> simpa [here, held] using ih

/-- Once the first available message is held, the others are available. -/
theorem browse_of_acquire {queue queue' : Queue} (sound : queue.Sound) {entry : QueueEntry}
    (h : queue.acquire = some (entry, queue')) :
  queue.browse = entry :: queue'.browse
  := by
  rw [acquire] at h
  cases hbrowse : queue.browse with
  | nil =>
    rw [hbrowse] at h
    cases h
  | cons first others =>
    rw [hbrowse] at h
    obtain ⟨rfl, rfl⟩ := Prod.mk.inj (Option.some.inj h)
    have ascending := sound.ordered.ascending
    rw [hbrowse] at ascending
    obtain ⟨before, -⟩ := List.pairwise_cons.mp ascending
    have apart : others.filter (fun entry => entry.id ≠ first.id) = others := by
      apply List.filter_eq_self.mpr
      intro other hother
      have later := before other.id (List.mem_map_of_mem hother)
      simpa using Nat.ne_of_gt later
    rw [browse_setHeld, hbrowse, List.filter_cons_of_neg (by simp), apart]

end Queue

namespace QueueStore

/-- The messages that are handed out from a queue when `count` are asked for one after
another. -/
def acquireUpTo (id : QueueId) : Nat → QueueStore → List QueueEntry
  | 0, _ => []
  | count + 1, store =>
    match store.acquire id with
    | (some entry, store) => entry :: acquireUpTo id count store
    | (none, _) => []

/-- Messages are handed out as they are shown. -/
theorem acquireUpTo_eq {store : QueueStore} (sound : store.Sound) {id : QueueId} {queue : Queue}
    (found : store.get? id = some queue) (count : Nat) :
  store.acquireUpTo id count = queue.browse.take count
  := by
  induction count generalizing store queue with
  | zero => rfl
  | succ count ih =>
    cases acquired : queue.acquire with
    | none =>
      have free : queue.browse = [] := by
        by_contra some_free
        have some_least := (sound id queue found).ordered.some_least some_free
        rw [acquired] at some_least
        cases some_least
      have refused : store.acquire id = (none, store) := by
        rw [acquire, found, Option.bind_some, acquired]
      rw [acquireUpTo, refused, free, List.take_nil]
    | some next =>
      obtain ⟨entry, queue'⟩ := next
      have handed : store.acquire id = (some entry, store.set id queue') := by
        rw [acquire, found, Option.bind_some, acquired]
      have found' : (store.set id queue').get? id = some queue' := by
        rw [get?_set, if_pos rfl, found, Option.map_some]
      rw [acquireUpTo, handed, Queue.browse_of_acquire (sound id queue found) acquired]
      simp only [List.take_succ_cons]
      rw [ih (Sound.acquire sound handed) found']

/-! ### What becomes of the payloads -/

/-- What each request does to the payloads in all queues together. -/
structure Conserves (store : QueueStore) : Prop where
  /-- A queue that is added brings no payload. -/
  added : ∀ name policy listed, (store.add name policy listed).payloads = store.payloads
  /-- A message that is put into a queue gets its next number, stands at its end, and is one
  payload more. -/
  enqueue : ∀ id queue payload, store.get? id = some queue →
    (store.enqueue id payload).1 = some queue.nextId
      ∧ (store.enqueue id payload).2.get? id = some (queue.enqueue payload)
      ∧ (store.enqueue id payload).2.payloads = payload ::ₘ store.payloads
  /-- No payload comes or goes when a message is handed out. -/
  acquire : ∀ id, (store.acquire id).2.payloads = store.payloads
  /-- An acknowledged message was held and is gone, with one payload less. -/
  acknowledged : ∀ place, (store.acknowledge place.1 place.2).1 = true →
    ∃ entry, store.slot? place = some ⟨entry, true⟩
      ∧ (∀ id, (store.acknowledge place.1 place.2).2.get? id = (store.get? id).map fun queue =>
          if id = place.1 then queue.remove place.2 else queue)
      ∧ store.payloads = entry.payload ::ₘ (store.acknowledge place.1 place.2).2.payloads
  /-- A message is acknowledged in vain only if it is not held, and nothing changes. -/
  unacknowledged : ∀ place, (store.acknowledge place.1 place.2).1 = false →
    store.isHeld place = false ∧ (store.acknowledge place.1 place.2).2 = store
  /-- A message that is requeued was held and is available at its place, and no payload comes or
  goes. -/
  requeued : ∀ place counted, (store.release place.1 place.2 counted).1 = some .requeued →
    ∃ entry, store.slot? place = some ⟨entry, true⟩
      ∧ (store.release place.1 place.2 counted).2.slot? place
          = some ⟨{ entry with attempts := Queue.attemptsAfter entry counted }, false⟩
      ∧ (∀ other ≠ place, (store.release place.1 place.2 counted).2.slot? other = store.slot? other)
      ∧ (store.release place.1 place.2 counted).2.payloads = store.payloads
  /-- A message that is dead-lettered was held, is taken out, and its payload is put once at the
  end of the queue that is listed under the name; no payload comes or goes. -/
  deadLettered : ∀ place counted destination,
    (store.release place.1 place.2 counted).1 = some (.deadLettered destination) →
    ∃ entry alternate, store.slot? place = some ⟨entry, true⟩
      ∧ store.find? destination = some alternate
      ∧ (∀ id, (store.release place.1 place.2 counted).2.get? id = (store.get? id).map fun queue =>
          let left := if id = place.1 then queue.remove place.2 else queue
          if id = alternate then left.enqueue entry.payload else left)
      ∧ (store.release place.1 place.2 counted).2.payloads = store.payloads
  /-- A message that is discarded was held and is gone, with one payload less. -/
  discarded : ∀ place counted, (store.release place.1 place.2 counted).1 = some .discarded →
    ∃ entry, store.slot? place = some ⟨entry, true⟩
      ∧ (∀ id, (store.release place.1 place.2 counted).2.get? id = (store.get? id).map fun queue =>
          if id = place.1 then queue.remove place.2 else queue)
      ∧ store.payloads = entry.payload ::ₘ (store.release place.1 place.2 counted).2.payloads
  /-- A message is given back in vain only if it is not held, and nothing changes. -/
  unreleased : ∀ place counted, (store.release place.1 place.2 counted).1 = none →
    store.isHeld place = false ∧ (store.release place.1 place.2 counted).2 = store
  /-- Nothing changes when messages are shown. -/
  shown : ∀ id after, (Request.browse id).perform store = store
    ∧ (Request.browseNext id after).perform store = store

/-- A queue is listed under its name. -/
theorem find?_of_alternate? {store : QueueStore} {id : QueueId} {destination : String}
    {alternate : QueueId} (h : store.alternate? id destination = some alternate) :
  store.find? destination = some alternate
  := by
  rw [alternate?] at h
  split at h
  · exact h
  · cases h

/-- No message is lost or doubled. -/
theorem Sound.conserves {store : QueueStore} (sound : store.Sound) :
  store.Conserves
  := by
  constructor
  case added => exact payloads_add store
  case enqueue =>
    intro id queue payload found
    refine ⟨?_, ?_, payloads_enqueue ⟨queue, found⟩ payload⟩
    · rw [QueueStore.enqueue, found]
    · rw [get?_enqueue, found, Option.map_some, if_pos rfl]
  case acquire => exact payloads_acquire sound
  case acknowledged =>
    intro place h
    obtain ⟨queue, entry, found, held, after⟩ := acknowledge_eq_true sound h
    rw [after]
    exact ⟨entry, slot?_of_found found held, get?_set_map found (·.remove place.2),
      payloads_set_remove sound found held⟩
  case unacknowledged => exact fun _ h => acknowledge_eq_false sound h
  case requeued =>
    intro place counted h
    obtain ⟨queue, entry, found, held, again, after⟩ := (released_of sound h).of_requeued
    rw [after]
    have sound' := sound place.1 queue found
    have left := slot?_set found (Queue.slot?_takeBack sound' held counted)
    refine ⟨entry, slot?_of_found found held, ?_, ?_, ?_⟩
    · rw [slot?_notify, left, if_pos rfl]
      exact Queue.slotAfter_eq_some_iff.mpr ⟨again, rfl⟩
    · intro other elsewhere
      rw [slot?_notify, left, if_neg elsewhere]
    · rw [payloads_notify]
      exact payloads_set_same found (Queue.payloads_takeBack_of_requeue sound' held again)
  case deadLettered =>
    intro place counted destination h
    obtain ⟨queue, entry, alternate, found, held, listed, after⟩ :=
      (released_of sound h).of_deadLettered
    rw [after]
    refine ⟨entry, alternate, slot?_of_found found held, find?_of_alternate? listed, ?_, ?_⟩
    · intro id
      rw [get?_enqueue, get?_set_map found (·.remove place.2), Option.map_map]
      rfl
    · have has : (store.set place.1 (queue.remove place.2)).Has alternate := by
        rw [has_iff, length_set]
        exact has_iff.mp (get?_of_find? (find?_of_alternate? listed))
      rw [payloads_enqueue has, ← payloads_set_remove sound found held]
  case discarded =>
    intro place counted h
    obtain ⟨queue, entry, found, held, after⟩ := (released_of sound h).of_discarded
    rw [after]
    exact ⟨entry, slot?_of_found found held, get?_set_map found (·.remove place.2),
      payloads_set_remove sound found held⟩
  case unreleased => exact fun _ _ h => (released_of sound h).of_none
  case shown => exact fun _ _ => ⟨rfl, rfl⟩

/-! ### Whatever is asked of the queues -/

/-- Whatever was asked of the queues, no message is lost or doubled by what is asked next, every
queue hands out its available messages in the order in which they were put in, and whatever is
asked later, no number comes to stand for another message. -/
theorem messages_conserved (requests : List Request) :
  (Request.performAll requests .empty).Conserves
    ∧ (∀ id queue, (Request.performAll requests .empty).get? id = some queue →
        queue.Ordered
          ∧ ∀ count, (Request.performAll requests .empty).acquireUpTo id count
              = queue.browse.take count)
    ∧ (∀ later id queue, (Request.performAll requests .empty).get? id = some queue →
        ∃ queue', (Request.performAll (requests ++ later) .empty).get? id = some queue'
          ∧ queue.Keeps queue')
    ∧ (∀ later place slot slot', (Request.performAll requests .empty).slot? place = some slot →
        (Request.performAll (requests ++ later) .empty).slot? place = some slot' →
        slot'.entry.id = slot.entry.id ∧ slot'.entry.payload = slot.entry.payload)
  := by
  have sound := Request.sound_performAll Sound.empty requests
  have keeps (later : List Request) (id : QueueId) (queue : Queue)
      (found : (Request.performAll requests .empty).get? id = some queue) :
      ∃ queue', (Request.performAll (requests ++ later) .empty).get? id = some queue'
        ∧ queue.Keeps queue' := by
    obtain ⟨queue', found', steps⟩ := Request.steps_performAll sound later found
    rw [Request.performAll_append]
    exact ⟨queue', found', steps.keeps (sound id queue found)⟩
  refine ⟨sound.conserves, ?_, keeps, ?_⟩
  · intro id queue found
    exact ⟨(sound id queue found).ordered, acquireUpTo_eq sound found⟩
  · intro later place slot slot' h h'
    obtain ⟨queue, found, hslot⟩ := Option.bind_eq_some_iff.mp h
    obtain ⟨queue', found', kept⟩ := keeps later place.1 queue found
    rw [slot?, found', Option.bind_some] at h'
    have old := (sound place.1 queue found).given slot (Queue.mem_of_slot? hslot)
    rw [Queue.id_of_slot? hslot] at old
    obtain ⟨before, hbefore, same⟩ := kept.same place.2 slot' old h'
    obtain rfl : before = slot := Option.some.inj (hbefore.symm.trans hslot)
    exact ⟨(Queue.id_of_slot? h').trans (Queue.id_of_slot? hslot).symm, same⟩

/-- A message with one attempt is moved to its alternate, and nothing is lost. -/
theorem messages_conserved_of_moved :
  let store := Request.performAll
    [.add "work" ⟨1, some "failed"⟩ true, .add "failed" .unlimited true, .enqueue 0 [7],
      .acquire 0] .empty
  (store.release 0 0 true).1 = some (.deadLettered "failed")
    ∧ (store.release 0 0 true).2.payloads = store.payloads
  := by
  intro store
  have moved : (store.release 0 0 true).1 = some (.deadLettered "failed") := by decide +kernel
  obtain ⟨entry, alternate, -, -, -, same⟩ :=
    (messages_conserved _).1.deadLettered (0, 0) true "failed" moved
  exact ⟨moved, same⟩

end QueueStore

end MessageBroker
