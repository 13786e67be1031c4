import MessageBroker.Proofs.Queue.Custody

/-!
# Requests to the queues

Whatever is asked of the queues, one request after another, every queue changes by few kinds of
steps: a message is put at its end, an available message is held, a held message is taken out or
given back.  So a queue stays sound, keeps its name and its policy, and never gives a number of
old to another message.
-/

namespace MessageBroker

/-! ### Requests -/

/-- Something that is asked of the queues of a store. -/
inductive Request where
  /-- A queue is to be added. -/
  | add (name : String) (policy : RedeliveryPolicy) (listed : Bool)
  /-- A message is to be put into a queue. -/
  | enqueue (queue : QueueId) (payload : Bytes)
  /-- The first available message of a queue is to be handed out. -/
  | acquire (queue : QueueId)
  /-- A held message is to be taken out for good. -/
  | acknowledge (place : Place)
  /-- A held message is given back, with a failed attempt counted or not. -/
  | release (place : Place) (counted : Bool)
  /-- The available messages of a queue are to be shown. -/
  | browse (queue : QueueId)
  /-- The first available message after one with a given number is to be shown. -/
  | browseNext (queue : QueueId) (after : Option Nat)
  deriving DecidableEq

namespace Request

/-- The store after a request. -/
def perform (store : QueueStore) : Request → QueueStore
  | .add name policy listed => store.add name policy listed
  | .enqueue queue payload => (store.enqueue queue payload).2
  | .acquire queue => (store.acquire queue).2
  | .acknowledge place => (store.acknowledge place.1 place.2).2
  | .release place counted => (store.release place.1 place.2 counted).2
  | .browse _ => store
  | .browseNext _ _ => store

/-- The store after requests, one after another. -/
def performAll (requests : List Request) (store : QueueStore) : QueueStore :=
  requests.foldl perform store

@[simp]
theorem performAll_nil (store : QueueStore) :
  performAll [] store = store
  := rfl

@[simp]
theorem performAll_cons (request : Request) (requests : List Request) (store : QueueStore) :
  performAll (request :: requests) store = performAll requests (request.perform store)
  := rfl

theorem performAll_append (requests others : List Request) (store : QueueStore) :
  performAll (requests ++ others) store = performAll others (performAll requests store)
  := List.foldl_append

end Request

/-! ### Messages that are not held -/

namespace Queue

theorem held?_eq_none {queue : Queue} (sound : queue.Sound) {id : Nat}
    (h : queue.isHeld id = false) :
  queue.held? id = none
  := by
  cases found : queue.held? id with
  | none => rfl
  | some entry =>
    rw [isHeld, slot?_of_held? sound found] at h
    cases h

/-- The slot that is left is that of the message with its attempts counted, if it has further
ones. -/
theorem slotAfter_eq_some_iff {policy : RedeliveryPolicy} {entry : QueueEntry} {counted : Bool}
    {slot : Slot} :
  slotAfter policy entry counted = some slot
    ↔ policy.decide (attemptsAfter entry counted) = .requeue
      ∧ slot = ⟨{ entry with attempts := attemptsAfter entry counted }, false⟩
  := by
  rw [slotAfter]
  split
  · next h => simp [h, eq_comm]
  · next h =>
    constructor
    · intro none
      cases none
    · rintro ⟨requeue, -⟩
      exact absurd requeue h

theorem entry_of_slot? {queue : Queue} (sound : queue.Sound) {id : Nat} {entry : QueueEntry}
    {held : Bool} (h : queue.slot? id = some ⟨entry, held⟩) :
  ∀ slot ∈ queue.slots, slot.entry.id = id → slot.entry = entry
  := by
  intro slot mem here
  have found := sound.slot?_of_mem mem
  rw [here, h] at found
  rw [← Option.some.inj found]

/-- Giving back a message without further attempts takes it out. -/
theorem takeBack_eq_remove {queue : Queue} (sound : queue.Sound) {id : Nat} {entry : QueueEntry}
    {held : Bool} (h : queue.slot? id = some ⟨entry, held⟩) {counted : Bool}
    (exhausted : queue.policy.decide (attemptsAfter entry counted) ≠ .requeue) :
  queue.takeBack id counted = queue.remove id
  := by
  rw [takeBack, remove]
  congr 1
  rw [← List.filterMap_eq_filter]
  apply List.filterMap_congr
  intro slot mem
  by_cases here : slot.entry.id = id
  · have gone : slotAfter queue.policy slot.entry counted = none := by
      rw [entry_of_slot? sound h slot mem here, Option.eq_none_iff_forall_ne_some]
      intro left hleft
      exact exhausted (slotAfter_eq_some_iff.mp hleft).1
    simp [Option.guard, here, gone]
  · simp [Option.guard, here]

end Queue

namespace QueueStore

variable {store : QueueStore} {place : Place}

/-- What is not held cannot be acknowledged. -/
theorem acknowledge_of_not_held (sound : store.Sound) (h : store.isHeld place = false) :
  store.acknowledge place.1 place.2 = (false, store)
  := by
  rw [isHeld_eq] at h
  rw [acknowledge]
  cases found : store.get? place.1 with
  | none => rfl
  | some queue =>
    rw [found, Option.any_some] at h
    rw [Option.bind_some, Queue.acknowledge, Queue.held?_eq_none (sound place.1 queue found) h]
    rfl

/-- What is not held cannot be given back. -/
theorem release_of_not_held (sound : store.Sound) (h : store.isHeld place = false)
    (counted : Bool) :
  store.release place.1 place.2 counted = (none, store)
  := by
  rw [isHeld_eq] at h
  rw [release]
  cases found : store.get? place.1 with
  | none => rfl
  | some queue =>
    rw [found, Option.any_some] at h
    rw [Option.bind_some, Queue.giveBack, Queue.held?_eq_none (sound place.1 queue found) h]
    rfl

@[simp]
theorem slot?_notify (store : QueueStore) (id : QueueId) (place : Place) :
  (store.notify id).slot? place = store.slot? place
  := by
  rw [slot?, get?_notify, slot?]

theorem Sound.set (sound : store.Sound) {id : QueueId} {queue : Queue} (sound' : queue.Sound) :
  (store.set id queue).Sound
  := by
  intro other before found
  rw [get?_set] at found
  split at found
  · obtain ⟨_, -, rfl⟩ := Option.map_eq_some_iff.mp found
    exact sound'
  · exact sound other before found

/-- Replacing a queue by one that differs in one slot changes that slot. -/
theorem slot?_set {queue queue' : Queue} {left : Option Slot}
    (found : store.get? place.1 = some queue)
    (differs : ∀ id, queue'.slot? id = if id = place.2 then left else queue.slot? id)
    (other : Place) :
  (store.set place.1 queue').slot? other = if other = place then left else store.slot? other
  := by
  rw [slot?, slot?, get?_set]
  by_cases same : other.1 = place.1
  · rw [if_pos same, same, found, Option.map_some, Option.bind_some, Option.bind_some, differs]
    by_cases here : other.2 = place.2
    · rw [if_pos here, if_pos (Prod.ext same here)]
    · rw [if_neg here, if_neg]
      rintro rfl
      exact here rfl
  · rw [if_neg same, if_neg]
    rintro rfl
    exact same rfl

/-- What becomes of a held message that is given back. -/
theorem release_eq (sound : store.Sound) {queue : Queue} (found : store.get? place.1 = some queue)
    {entry : QueueEntry} (held : queue.slot? place.2 = some ⟨entry, true⟩) (counted : Bool) :
  store.release place.1 place.2 counted
    = match queue.policy.decide (Queue.attemptsAfter entry counted) with
      | .requeue =>
        (some .requeued, (store.set place.1 (queue.takeBack place.2 counted)).notify place.1)
      | .discard => (some .discarded, store.set place.1 (queue.remove place.2))
      | .deadLetter destination =>
        match store.alternate? place.1 destination with
        | some alternate =>
          (some (.deadLettered destination),
            ((store.set place.1 (queue.remove place.2)).enqueue alternate entry.payload).2)
        | none => (some .discarded, store.set place.1 (queue.remove place.2))
  := by
  have gave := Queue.giveBack_of_held (sound place.1 queue found) held counted
  have leaves (exhausted : queue.policy.decide (Queue.attemptsAfter entry counted) ≠ .requeue) :
      queue.takeBack place.2 counted = queue.remove place.2 :=
    Queue.takeBack_eq_remove (sound place.1 queue found) held exhausted
  rw [release, found, Option.bind_some, gave]
  cases decision : queue.policy.decide (Queue.attemptsAfter entry counted) with
  | requeue => rfl
  | discard => rw [leaves (by simp [decision])]
  | deadLetter destination =>
    have same : (store.set place.1 (queue.remove place.2)).alternate? place.1 destination =
        store.alternate? place.1 destination := by
      rw [alternate?_eq, alternate?_eq, listing_set found (queue.remove place.2) rfl]
    rw [leaves (by simp [decision])]
    cases listed : store.alternate? place.1 destination <;> simp only [same, listed]

/-- What comes of giving back the message at a place. -/
inductive Released (store : QueueStore) (place : Place) (counted : Bool) :
    Option ReleaseOutcome × QueueStore → Prop where
  /-- It was not held. -/
  | vain (free : store.isHeld place = false) : Released store place counted (none, store)
  /-- It has further attempts and takes its place again. -/
  | requeued {queue : Queue} {entry : QueueEntry} (found : store.get? place.1 = some queue)
    (held : queue.slot? place.2 = some ⟨entry, true⟩)
    (again : queue.policy.decide (Queue.attemptsAfter entry counted) = .requeue) :
    Released store place counted
      (some .requeued, (store.set place.1 (queue.takeBack place.2 counted)).notify place.1)
  /-- It has no further attempts and no queue to go on to. -/
  | discarded {queue : Queue} {entry : QueueEntry} (found : store.get? place.1 = some queue)
    (held : queue.slot? place.2 = some ⟨entry, true⟩) :
    Released store place counted (some .discarded, store.set place.1 (queue.remove place.2))
  /-- It has no further attempts and goes on to another queue. -/
  | deadLettered {queue : Queue} {entry : QueueEntry} {destination : String} {alternate : QueueId}
    (found : store.get? place.1 = some queue)
    (held : queue.slot? place.2 = some ⟨entry, true⟩)
    (listed : store.alternate? place.1 destination = some alternate) :
    Released store place counted
      (some (.deadLettered destination),
        ((store.set place.1 (queue.remove place.2)).enqueue alternate entry.payload).2)

theorem released (sound : store.Sound) (place : Place) (counted : Bool) :
  Released store place counted (store.release place.1 place.2 counted)
  := by
  cases taken : store.isHeld place with
  | false =>
    rw [release_of_not_held sound taken]
    exact .vain taken
  | true =>
    obtain ⟨entry, slot⟩ := isHeld_iff.mp taken
    obtain ⟨queue, found, held⟩ := Option.bind_eq_some_iff.mp slot
    rw [release_eq sound found held]
    cases decision : queue.policy.decide (Queue.attemptsAfter entry counted) with
    | requeue => exact .requeued found held decision
    | discard => exact .discarded found held
    | deadLetter destination =>
      dsimp only
      split
      · next alternate listed => exact .deadLettered found held listed
      · exact .discarded found held

theorem released_of (sound : store.Sound) {counted : Bool} {outcome : Option ReleaseOutcome}
    (h : (store.release place.1 place.2 counted).1 = outcome) :
  Released store place counted (outcome, (store.release place.1 place.2 counted).2)
  := h ▸ released sound place counted

namespace Released

variable {store' : QueueStore} {counted : Bool}

theorem of_none (h : Released store place counted (none, store')) :
  store.isHeld place = false ∧ store' = store
  := by
  cases h with
  | vain free => exact ⟨free, rfl⟩

theorem of_requeued (h : Released store place counted (some .requeued, store')) :
  ∃ queue entry, store.get? place.1 = some queue ∧ queue.slot? place.2 = some ⟨entry, true⟩
    ∧ queue.policy.decide (Queue.attemptsAfter entry counted) = .requeue
    ∧ store' = (store.set place.1 (queue.takeBack place.2 counted)).notify place.1
  := by
  cases h with
  | requeued found held again => exact ⟨_, _, found, held, again, rfl⟩

theorem of_discarded (h : Released store place counted (some .discarded, store')) :
  ∃ queue entry, store.get? place.1 = some queue ∧ queue.slot? place.2 = some ⟨entry, true⟩
    ∧ store' = store.set place.1 (queue.remove place.2)
  := by
  cases h with
  | discarded found held => exact ⟨_, _, found, held, rfl⟩

theorem of_deadLettered {destination : String}
    (h : Released store place counted (some (.deadLettered destination), store')) :
  ∃ queue entry alternate, store.get? place.1 = some queue
    ∧ queue.slot? place.2 = some ⟨entry, true⟩
    ∧ store.alternate? place.1 destination = some alternate
    ∧ store' = ((store.set place.1 (queue.remove place.2)).enqueue alternate entry.payload).2
  := by
  cases h with
  | deadLettered found held listed => exact ⟨_, _, _, found, held, listed, rfl⟩

end Released

/-- What becomes of a held message that is acknowledged. -/
theorem acknowledge_eq (sound : store.Sound) {id : QueueId} {queue : Queue}
    (found : store.get? id = some queue) {number : Nat} {entry : QueueEntry}
    (held : queue.slot? number = some ⟨entry, true⟩) :
  store.acknowledge id number = (true, store.set id (queue.remove number))
  := by
  rw [acknowledge, found, Option.bind_some,
    Queue.acknowledge_of_held (sound id queue found) held]

/-- Only a message that is held is acknowledged. -/
theorem acknowledge_eq_true (sound : store.Sound)
    (h : (store.acknowledge place.1 place.2).1 = true) :
  ∃ queue entry, store.get? place.1 = some queue ∧ queue.slot? place.2 = some ⟨entry, true⟩
    ∧ (store.acknowledge place.1 place.2).2 = store.set place.1 (queue.remove place.2)
  := by
  cases taken : store.isHeld place with
  | false =>
    rw [acknowledge_of_not_held sound taken] at h
    cases h
  | true =>
    obtain ⟨entry, slot⟩ := isHeld_iff.mp taken
    obtain ⟨queue, found, held⟩ := Option.bind_eq_some_iff.mp slot
    exact ⟨queue, entry, found, held, congrArg Prod.snd (acknowledge_eq sound found held)⟩

theorem acknowledge_eq_false (sound : store.Sound)
    (h : (store.acknowledge place.1 place.2).1 = false) :
  store.isHeld place = false ∧ (store.acknowledge place.1 place.2).2 = store
  := by
  cases taken : store.isHeld place with
  | false => exact ⟨rfl, congrArg Prod.snd (acknowledge_of_not_held sound taken)⟩
  | true =>
    obtain ⟨entry, slot⟩ := isHeld_iff.mp taken
    rw [(acknowledge_of_held sound slot).1] at h
    cases h

end QueueStore

/-! ### Steps of a queue -/

namespace Queue

/-- One thing that a request does to a queue. -/
inductive Step : Queue → Queue → Prop where
  /-- A message is put at the end. -/
  | enqueue (queue : Queue) (payload : Bytes) : Step queue (queue.enqueue payload)
  /-- An available message is held. -/
  | acquire {queue : Queue} {entry : QueueEntry}
    (available : queue.slot? entry.id = some ⟨entry, false⟩) :
    Step queue (queue.setHeld entry.id true)
  /-- A held message is taken out. -/
  | acknowledge {queue : Queue} {id : Nat} {entry : QueueEntry}
    (held : queue.slot? id = some ⟨entry, true⟩) : Step queue (queue.remove id)
  /-- A held message is given back. -/
  | release {queue : Queue} {id : Nat} {entry : QueueEntry}
    (held : queue.slot? id = some ⟨entry, true⟩) (counted : Bool) :
    Step queue (queue.takeBack id counted)

/-- A run of steps. -/
abbrev Steps : Queue → Queue → Prop :=
  Relation.ReflTransGen Step

section Steps

variable {queue queue' queue'' : Queue}

theorem Step.sound (step : Step queue queue') (sound : queue.Sound) :
  queue'.Sound
  := by
  cases step with
  | enqueue payload => exact sound.enqueue payload
  | acquire available => exact sound.setHeld _ true
  | acknowledge held => exact sound.remove _
  | release held counted => exact sound.takeBack _ counted

/-- A queue goes on by a step if it is the one that something is done to, and stays as it is if
not. -/
theorem Steps.ite {here : Prop} [Decidable here] (step : here → Step queue queue') :
  Steps queue (if here then queue' else queue)
  := by
  split
  · next h => exact .single (step h)
  · exact .refl

theorem Steps.sound (steps : Steps queue queue') (sound : queue.Sound) :
  queue'.Sound
  := by
  induction steps with
  | refl => exact sound
  | tail _ step ih => exact step.sound ih

/-- No step changes the name or the policy. -/
theorem Steps.same (steps : Steps queue queue') :
  queue'.name = queue.name ∧ queue'.policy = queue.policy
  := by
  induction steps with
  | refl => exact ⟨rfl, rfl⟩
  | tail _ step ih =>
    rw [← ih.1, ← ih.2]
    cases step <;> exact ⟨rfl, rfl⟩

/-- A later state of a queue has, at the numbers that were given out before, no message that was
not there, and none with another payload. -/
structure Keeps (queue queue' : Queue) : Prop where
  /-- Numbers are given out in order. -/
  onward : queue.nextId ≤ queue'.nextId
  /-- What is found at a number of old was there before. -/
  same : ∀ id slot', id < queue.nextId → queue'.slot? id = some slot' →
    ∃ slot, queue.slot? id = some slot ∧ slot'.entry.payload = slot.entry.payload

theorem Keeps.refl (queue : Queue) :
  queue.Keeps queue
  := ⟨Nat.le_refl _, fun _ slot' _ h => ⟨slot', h, rfl⟩⟩

theorem Keeps.trans (first : queue.Keeps queue') (second : queue'.Keeps queue'') :
  queue.Keeps queue''
  := by
  constructor
  · exact Nat.le_trans first.onward second.onward
  · intro id slot'' old h''
    obtain ⟨slot', h', same'⟩ := second.same id slot'' (Nat.lt_of_lt_of_le old first.onward) h''
    obtain ⟨slot, h, same⟩ := first.same id slot' old h'
    exact ⟨slot, h, same'.trans same⟩

theorem Step.keeps (step : Step queue queue') (sound : queue.Sound) :
  queue.Keeps queue'
  := by
  cases step with
  | enqueue payload =>
    constructor
    · exact Nat.le_succ _
    · intro id slot' old h
      rw [slot?_enqueue sound, if_neg (Nat.ne_of_lt old)] at h
      exact ⟨slot', h, rfl⟩
  | @acquire entry available =>
    constructor
    · exact Nat.le_refl _
    · intro id slot' _ h
      rw [slot?_setHeld] at h
      split at h
      · obtain ⟨slot, hslot, rfl⟩ := Option.map_eq_some_iff.mp h
        exact ⟨slot, hslot, rfl⟩
      · exact ⟨slot', h, rfl⟩
  | acknowledge held =>
    constructor
    · exact Nat.le_refl _
    · intro id slot' _ h
      rw [slot?_remove] at h
      split at h
      · cases h
      · exact ⟨slot', h, rfl⟩
  | @release number entry held counted =>
    constructor
    · exact Nat.le_refl _
    · intro id slot' _ h
      rw [slot?_takeBack sound held] at h
      split at h
      case isTrue here =>
        rw [here, (slotAfter_eq_some_iff.mp h).2]
        exact ⟨_, held, rfl⟩
      case isFalse => exact ⟨slot', h, rfl⟩

theorem Steps.keeps (steps : Steps queue queue') (sound : queue.Sound) :
  queue.Keeps queue'
  := by
  induction steps with
  | refl => apply Keeps.refl
  | tail before step ih => exact ih.trans (step.keeps (Steps.sound before sound))

end Steps

end Queue

/-! ### Steps of a store -/

namespace Request

variable {store : QueueStore}

/-- Every queue goes on by steps. -/
theorem steps_perform (sound : store.Sound) (request : Request) {id : QueueId} {queue : Queue}
    (found : store.get? id = some queue) :
  ∃ queue', (request.perform store).get? id = some queue' ∧ queue.Steps queue'
  := by
  cases request with
  | add name policy listed =>
    refine ⟨queue, ?_, .refl⟩
    have before : id < store.queues.length := QueueStore.has_iff.mp ⟨queue, found⟩
    rw [perform, QueueStore.get?_add, if_neg (Nat.ne_of_lt before), found]
  | enqueue other payload =>
    rw [perform, QueueStore.get?_enqueue, found, Option.map_some]
    exact ⟨_, rfl, Queue.Steps.ite fun _ => .enqueue queue payload⟩
  | acquire other =>
    cases acquired : store.acquire other with
    | mk entry? store' =>
      rw [perform, acquired]
      cases entry? with
      | none =>
        rw [QueueStore.acquire_eq_none acquired]
        exact ⟨queue, found, .refl⟩
      | some entry =>
        obtain ⟨available, changed, -⟩ := QueueStore.acquire_eq_some sound acquired
        rw [changed, found, Option.map_some]
        exact ⟨_, rfl, Queue.Steps.ite fun here =>
          .acquire (QueueStore.found_of_slot? found here available)⟩
  | acknowledge place =>
    cases held : store.isHeld place with
    | false =>
      rw [perform, QueueStore.acknowledge_of_not_held sound held]
      exact ⟨queue, found, .refl⟩
    | true =>
      obtain ⟨entry, slot⟩ := QueueStore.isHeld_iff.mp held
      rw [perform, (QueueStore.acknowledge_of_held sound slot).2.1, found, Option.map_some]
      exact ⟨_, rfl, Queue.Steps.ite fun here =>
        .acknowledge (QueueStore.found_of_slot? found here slot)⟩
  | release place counted =>
    cases held : store.isHeld place with
    | false =>
      rw [perform, QueueStore.release_of_not_held sound held]
      exact ⟨queue, found, .refl⟩
    | true =>
      obtain ⟨entry, slot⟩ := QueueStore.isHeld_iff.mp held
      rw [perform, (QueueStore.release_of_held sound slot counted).2.1, found, Option.map_some]
      have left : queue.Steps (QueueStore.leaving place counted id queue) :=
        Queue.Steps.ite fun here =>
          .release (QueueStore.found_of_slot? found here slot) counted
      refine ⟨_, rfl, left.trans ?_⟩
      cases store.onward? place counted with
      | none => exact .refl
      | some going => exact Queue.Steps.ite fun _ => .enqueue _ going.2
  | browse other => exact ⟨queue, found, .refl⟩
  | browseNext other after => exact ⟨queue, found, .refl⟩

theorem sound_perform (sound : store.Sound) (request : Request) :
  (request.perform store).Sound
  := by
  cases request with
  | add name policy listed => exact sound.add name policy listed
  | enqueue queue payload => exact sound.enqueue queue payload
  | acquire queue =>
    cases acquired : store.acquire queue with
    | mk entry? store' =>
      rw [perform, acquired]
      cases entry? with
      | none =>
        rw [QueueStore.acquire_eq_none acquired]
        exact sound
      | some entry => exact QueueStore.Sound.acquire sound acquired
  | acknowledge place =>
    cases held : store.isHeld place with
    | false =>
      rw [perform, QueueStore.acknowledge_of_not_held sound held]
      exact sound
    | true => exact QueueStore.Sound.acknowledge sound held
  | release place counted =>
    cases held : store.isHeld place with
    | false =>
      rw [perform, QueueStore.release_of_not_held sound held]
      exact sound
    | true => exact QueueStore.Sound.release sound held counted
  | browse queue => exact sound
  | browseNext queue after => exact sound

theorem sound_performAll (sound : store.Sound) (requests : List Request) :
  (performAll requests store).Sound
  := by
  induction requests generalizing store with
  | nil => exact sound
  | cons request requests ih => exact ih (sound_perform sound request)

theorem steps_performAll (sound : store.Sound) (requests : List Request) {id : QueueId}
    {queue : Queue} (found : store.get? id = some queue) :
  ∃ queue', (performAll requests store).get? id = some queue' ∧ queue.Steps queue'
  := by
  induction requests generalizing store queue with
  | nil => exact ⟨queue, found, .refl⟩
  | cons request requests ih =>
    obtain ⟨next, found', first⟩ := steps_perform sound request found
    obtain ⟨last, found'', others⟩ := ih (sound_perform sound request) found'
    exact ⟨last, found'', first.trans others⟩

end Request

end MessageBroker
