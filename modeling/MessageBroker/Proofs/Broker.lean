import Mathlib.Data.List.Induction
import MessageBroker.Broker.Basic
import MessageBroker.Proofs.Queue.Redelivery

/-!
# Brokers from sound configurations

A sound configuration can always be followed: its queues are created under their names, one after
another.  The listing of a store only grows at its end, so whatever is asked of the queues later,
every name of the configuration goes on to stand for its queue, every alternate is found, and the
queues give up messages as the configuration says.
-/

namespace MessageBroker

/-! ### Sound configurations -/

namespace BrokerConfig

theorem duplicate?_eq_none_iff {seen names : List String} :
  duplicate? seen names = none ↔ names.Nodup ∧ ∀ name ∈ names, name ∉ seen
  := by
  induction names generalizing seen with
  | nil => simp [duplicate?]
  | cons name names ih =>
    rw [duplicate?]
    split
    case isTrue repeated =>
      constructor
      · intro none
        cases none
      · rintro ⟨-, fresh⟩
        exact absurd repeated (fresh name List.mem_cons_self)
    case isFalse new =>
      rw [ih, List.nodup_cons]
      constructor
      · rintro ⟨nodup, fresh⟩
        refine ⟨⟨fun again => fresh name again List.mem_cons_self, nodup⟩, ?_⟩
        rintro other (_ | ⟨_, later⟩)
        · exact new
        · intro known
          exact fresh other later (List.mem_cons_of_mem _ known)
      · rintro ⟨⟨once, nodup⟩, fresh⟩
        refine ⟨nodup, ?_⟩
        intro other later known
        rcases List.mem_cons.mp known with rfl | known
        · exact once later
        · exact fresh other (List.mem_cons_of_mem _ later) known

theorem unknownAlternate?_eq_none_iff {names : List String} {queues : List QueueConfig} :
  unknownAlternate? names queues = none
    ↔ ∀ queue ∈ queues, ∀ destination, queue.alternate = some destination → destination ∈ names
  := by
  induction queues with
  | nil => simp [unknownAlternate?]
  | cons queue queues ih =>
    rw [unknownAlternate?, List.forall_mem_cons, ← ih]
    cases queue.alternate with
    | none => simp
    | some destination =>
      by_cases known : destination ∈ names <;> simp [known]

/-- The names of the queues of a sound configuration differ, and every alternate is one of
them. -/
theorem queues_of_validate {config : BrokerConfig} (sound : config.validate = .ok ()) :
  (config.queues.map (·.name)).Nodup
    ∧ ∀ queue ∈ config.queues, ∀ destination, queue.alternate = some destination →
        destination ∈ config.queues.map (·.name)
  := by
  rw [validate] at sound
  split at sound
  · cases sound
  split at sound
  · cases sound
  split at sound
  · cases sound
  split at sound
  · cases sound
  next distinct =>
  split at sound
  · cases sound
  next known =>
  exact ⟨(duplicate?_eq_none_iff.mp distinct).1, unknownAlternate?_eq_none_iff.mp known⟩

end BrokerConfig

/-! ### Listings -/

namespace QueueStore

variable {store : QueueStore}

/-- A name that is listed once, before anything else that may be listed, is found there. -/
theorem find?_of_listing {names : List String} {others : List (String × Bool)}
    (h : store.listing = names.map (·, true) ++ others) (nodup : names.Nodup) {id : QueueId}
    {name : String} (at_id : names[id]? = some name) :
  store.find? name = some id
  := by
  have first : names.findIdx? (· = name) = some id := by
    obtain ⟨before, rfl⟩ := List.getElem?_eq_some_iff.mp at_id
    apply List.findIdx?_eq_some_iff_getElem.mpr
    refine ⟨before, by simp, ?_⟩
    intro other earlier
    have differs : names[other] ≠ names[id] := by
      intro same
      exact Nat.ne_of_lt earlier ((List.Nodup.getElem_inj_iff nodup).mp same)
    simp [differs]
  rw [find?_eq, h, List.findIdx?_append, List.findIdx?_map]
  simp only [Function.comp_def, Bool.true_and, first]
  rfl

end QueueStore

/-- The listing of a store only grows at its end. -/
theorem Request.listing_perform {store : QueueStore} (sound : store.Sound) (request : Request) :
  ∃ others, (request.perform store).listing = store.listing ++ others
  := by
  have stays {store' : QueueStore} (same : store'.listing = store.listing) :
      ∃ others, store'.listing = store.listing ++ others := ⟨[], by rw [same, List.append_nil]⟩
  cases request with
  | add name policy listed => exact ⟨_, QueueStore.listing_add store name policy listed⟩
  | enqueue id payload => exact stays (QueueStore.listing_enqueue store id payload)
  | acquire id =>
    cases acquired : store.acquire id with
    | mk entry? store' =>
      rw [perform, acquired]
      cases entry? with
      | none =>
        rw [QueueStore.acquire_eq_none acquired]
        exact stays rfl
      | some entry => exact stays (QueueStore.acquire_eq_some sound acquired).2.2
  | acknowledge place =>
    cases held : store.isHeld place with
    | false =>
      rw [perform, QueueStore.acknowledge_of_not_held sound held]
      exact stays rfl
    | true =>
      obtain ⟨entry, slot⟩ := QueueStore.isHeld_iff.mp held
      exact stays (QueueStore.acknowledge_of_held sound slot).2.2
  | release place counted =>
    cases held : store.isHeld place with
    | false =>
      rw [perform, QueueStore.release_of_not_held sound held]
      exact stays rfl
    | true =>
      obtain ⟨entry, slot⟩ := QueueStore.isHeld_iff.mp held
      exact stays (QueueStore.release_of_held sound slot counted).2.2
  | browse id => exact stays rfl
  | browseNext id after => exact stays rfl

theorem Request.listing_performAll {store : QueueStore} (sound : store.Sound)
    (requests : List Request) :
  ∃ others, (performAll requests store).listing = store.listing ++ others
  := by
  induction requests generalizing store with
  | nil => exact ⟨[], (List.append_nil _).symm⟩
  | cons request requests ih =>
    obtain ⟨others, first⟩ := listing_perform sound request
    obtain ⟨more, later⟩ := ih (sound_perform sound request)
    use others ++ more
    rw [performAll_cons, later, first, List.append_assoc]

/-! ### Creating the queues -/

/-- What a queue of a configuration asks for. -/
def QueueConfig.request (queue : QueueConfig) : Request :=
  .add queue.name queue.policy true

namespace Broker

/-- Queues with names that differ and are free are created one after another. -/
theorem createQueues_eq {queues : List QueueConfig} {store : QueueStore}
    (nodup : (queues.map (·.name)).Nodup)
    (free : ∀ queue ∈ queues, store.find? queue.name = none) :
  createQueues store queues = .ok (Request.performAll (queues.map (·.request)) store)
  := by
  induction queues generalizing store with
  | nil => rfl
  | cons queue queues ih =>
    rw [List.map_cons, List.nodup_cons] at nodup
    have made : store.create queue.name queue.policy
        = .ok (store.add queue.name queue.policy true) := by
      rw [QueueStore.create, free queue List.mem_cons_self]
    have free' : ∀ other ∈ queues,
        (store.add queue.name queue.policy true).find? other.name = none := by
      intro other later
      have differs : queue.name ≠ other.name := by
        intro same
        exact nodup.1 (same ▸ List.mem_map_of_mem later)
      have before := free other (List.mem_cons_of_mem _ later)
      rw [QueueStore.find?_eq] at before ⊢
      rw [QueueStore.listing_add, List.findIdx?_append, before]
      simp [differs]
    rw [createQueues, made]
    exact ih nodup.2 free'

/-- The store of a broker that follows a configuration. -/
def storeOf (config : BrokerConfig) : QueueStore :=
  Request.performAll (config.queues.map (·.request)) .empty

/-- A sound configuration can be followed. -/
theorem build_of_validate {config : BrokerConfig} (sound : config.validate = .ok ()) :
  build config = .ok ⟨config, storeOf config, []⟩
  := by
  have created : createQueues .empty config.queues = .ok (storeOf config) := by
    apply createQueues_eq (BrokerConfig.queues_of_validate sound).1
    intro queue _
    rfl
  rw [build, sound, created]
  rfl

theorem queues_performAll (queues : List QueueConfig) (store : QueueStore) :
  (Request.performAll (queues.map (·.request)) store).queues
    = store.queues ++ queues.map fun queue => ⟨.empty queue.name queue.policy, true⟩
  := by
  induction queues generalizing store with
  | nil => exact (List.append_nil _).symm
  | cons queue queues ih =>
    rw [List.map_cons, Request.performAll_cons, ih, List.map_cons, QueueConfig.request,
      Request.perform, QueueStore.add, List.append_assoc]
    rfl

theorem listing_storeOf (config : BrokerConfig) :
  (storeOf config).listing = (config.queues.map (·.name)).map (·, true)
  := by
  rw [QueueStore.listing, storeOf, queues_performAll, List.map_append, List.map_map, List.map_map]
  rfl

theorem get?_storeOf (config : BrokerConfig) (id : QueueId) :
  (storeOf config).get? id
    = config.queues[id]?.map fun queue => .empty queue.name queue.policy
  := by
  rw [QueueStore.get?, storeOf, queues_performAll]
  change Option.map _ (config.queues.map _)[id]? = _
  rw [List.getElem?_map, Option.map_map]
  rfl

theorem sound_storeOf (config : BrokerConfig) :
  (storeOf config).Sound
  := Request.sound_performAll .empty _

theorem slot?_storeOf (config : BrokerConfig) (place : Place) :
  (storeOf config).slot? place = none
  := by
  rw [QueueStore.slot?, get?_storeOf]
  cases config.queues[place.1]? <;> rfl

end Broker

/-! ### Following a configuration -/

namespace QueueConfig

/-- A queue of a store stands as its configuration says, if the message with a number was given
back as failed `failed` times. -/
structure Standing (config : QueueConfig) (id : QueueId) (store : QueueStore)
    (failed : Nat → Nat) : Prop where
  /-- The queue is in the store, with its name and its policy. -/
  queue : ∃ queue, store.get? id = some queue ∧ queue.name = config.name
    ∧ queue.policy = config.policy
  /-- The queue is found under its name. -/
  found : store.find? config.name = some id
  /-- The alternate is found, and is the queue of that name. -/
  alternate : ∀ destination, config.alternate = some destination →
    ∃ other queue, store.alternate? id destination = some other ∧ store.get? other = some queue
      ∧ queue.name = destination
  /-- The attempts of a message are the times that it was given back as failed. -/
  attempts : ∀ number slot, store.slot? (id, number) = some slot →
    slot.entry.attempts = failed number
  /-- With a limit, no message that is there has reached it. -/
  within : config.maxAttempts ≠ 0 → ∀ number slot, store.slot? (id, number) = some slot →
    slot.entry.attempts < config.maxAttempts.toNat
  /-- With a limit, no message was given back as failed more often than that. -/
  atMost : config.maxAttempts ≠ 0 → ∀ number, failed number ≤ config.maxAttempts.toNat

/-- A queue of a store stands as its configuration says and answers so. -/
structure Followed (config : QueueConfig) (id : QueueId) (store : QueueStore)
    (failed : Nat → Nat) : Prop extends config.Standing id store failed where
  /-- A held message that is given back without counting takes its place again as it was. -/
  uncounted : ∀ number entry, store.slot? (id, number) = some ⟨entry, true⟩ →
    (store.release id number false).1 = some .requeued
      ∧ (store.release id number false).2.slot? (id, number) = some ⟨entry, false⟩
  /-- A held message that is given back as failed takes its place again if the limit is not
  reached by this, and if there is none. -/
  again : ∀ number entry, store.slot? (id, number) = some ⟨entry, true⟩ →
    config.maxAttempts = 0 ∨ failed number + 1 ≠ config.maxAttempts.toNat →
      (store.release id number true).1 = some .requeued
        ∧ (store.release id number true).2.slot? (id, number)
          = some ⟨{ entry with attempts := entry.attempts + 1 }, false⟩
  /-- A held message that is given back as failed is taken out if the limit is reached by this; it
  goes on to the end of the alternate, and is dropped only if there is none. -/
  last : ∀ number entry, store.slot? (id, number) = some ⟨entry, true⟩ →
    config.maxAttempts ≠ 0 → failed number + 1 = config.maxAttempts.toNat →
      (store.release id number true).1 = some config.policy.lastOutcome
        ∧ (store.release id number true).2.slot? (id, number) = none
        ∧ ∀ destination other queue, config.alternate = some destination →
            store.alternate? id destination = some other → store.get? other = some queue →
              (store.release id number true).2.slot? (other, queue.nextId)
                = some ⟨⟨queue.nextId, entry.payload, 0⟩, false⟩

/-- How a queue answers is settled by how it stands. -/
theorem Standing.followed {config : QueueConfig} {id : QueueId} {store : QueueStore}
    {failed : Nat → Nat} (standing : config.Standing id store failed) (sound : store.Sound) :
  config.Followed id store failed
  := by
  obtain ⟨queue, found, -, policy⟩ := standing.queue
  have there (number : Nat) (entry : QueueEntry)
      (held : store.slot? (id, number) = some ⟨entry, true⟩) :
      queue.slot? (id, number).2 = some ⟨entry, true⟩ := by
    rw [QueueStore.slot?, found, Option.bind_some] at held
    exact held
  constructor
  case toStanding => exact standing
  case uncounted =>
    intro number entry held
    have again : queue.policy.decide (Queue.attemptsAfter entry false) = .requeue := by
      rw [policy]
      exact RedeliveryPolicy.decide_eq_requeue_iff.mpr
        fun limited => standing.within limited number _ held
    exact QueueStore.release_of_requeue sound found (there number entry held) again
  case again =>
    intro number entry held further
    have again : queue.policy.decide (Queue.attemptsAfter entry true) = .requeue := by
      rw [policy]
      apply RedeliveryPolicy.decide_eq_requeue_iff.mpr
      intro limited
      have below := standing.within limited number _ held
      have apart := further.resolve_left limited
      rw [← standing.attempts number _ held] at apart
      exact Nat.lt_of_le_of_ne below apart
    exact QueueStore.release_of_requeue sound found (there number entry held) again
  case last =>
    intro number entry held limited reached
    have exhausted : queue.policy.decide (Queue.attemptsAfter entry true) ≠ .requeue := by
      rw [policy]
      intro again
      have below := RedeliveryPolicy.decide_eq_requeue_iff.mp again limited
      rw [← standing.attempts number _ held] at reached
      exact Nat.ne_of_lt below reached
    have resolves : ∀ destination, queue.policy.alternate = some destination →
        ∃ alternate, store.alternate? id destination = some alternate := by
      rw [policy]
      intro destination goes
      obtain ⟨other, -, resolved, -⟩ := standing.alternate destination goes
      exact ⟨other, resolved⟩
    have given := QueueStore.release_of_exhausted sound found (there number entry held) exhausted
      resolves
    rw [policy] at given
    exact given

end QueueConfig

namespace Broker

variable {config : BrokerConfig} {id : QueueId} {queue : QueueConfig}

/-- A queue of a broker keeps its name and its policy, and none of its messages reaches the
limit. -/
theorem get?_performAll (configured : config.queues[id]? = some queue) (requests : List Request) :
  ∃ stored, (Request.performAll requests (storeOf config)).get? id = some stored
    ∧ stored.name = queue.name ∧ stored.policy = queue.policy ∧ stored.Limited
  := by
  have begun : (storeOf config).get? id = some (.empty queue.name queue.policy) := by
    rw [get?_storeOf, configured, Option.map_some]
  obtain ⟨stored, found, steps⟩ := Request.steps_performAll (sound_storeOf config) requests begun
  exact ⟨stored, found, steps.same.1, steps.same.2, steps.limited (.empty _ _) (.empty _ _)⟩

/-- The names of a sound configuration go on to stand for their queues. -/
theorem find?_performAll (sound : config.validate = .ok ())
    (configured : config.queues[id]? = some queue) (requests : List Request) :
  (Request.performAll requests (storeOf config)).find? queue.name = some id
  := by
  obtain ⟨others, listing⟩ := Request.listing_performAll (sound_storeOf config) requests
  rw [listing_storeOf] at listing
  apply QueueStore.find?_of_listing listing (BrokerConfig.queues_of_validate sound).1
  rw [List.getElem?_map, configured, Option.map_some]

/-- The alternates of a sound configuration are found, and are queues of it. -/
theorem alternate?_performAll (sound : config.validate = .ok ())
    (configured : config.queues[id]? = some queue) {destination : String}
    (goes : queue.alternate = some destination) (requests : List Request) :
  ∃ other alternate, config.queues[other]? = some alternate ∧ alternate.name = destination
    ∧ (Request.performAll requests (storeOf config)).alternate? id destination = some other
  := by
  obtain ⟨others, listing⟩ := Request.listing_performAll (sound_storeOf config) requests
  rw [listing_storeOf] at listing
  obtain ⟨alternate, member, rfl⟩ := List.mem_map.mp
    ((BrokerConfig.queues_of_validate sound).2 queue (List.mem_of_getElem? configured)
      destination goes)
  obtain ⟨other, configured'⟩ := List.getElem?_of_mem member
  refine ⟨other, alternate, configured', rfl, ?_⟩
  have entry : (Request.performAll requests (storeOf config)).listing[id]?
      = some (queue.name, true) := by
    have before := (List.getElem?_eq_some_iff.mp configured).1
    rw [listing, List.getElem?_append_left (by simpa using before), List.getElem?_map,
      List.getElem?_map, configured]
    rfl
  rw [QueueStore.alternate?_eq, entry, ← QueueStore.find?_eq]
  exact find?_performAll sound configured' requests

/-- The attempts of a message in a broker are the times that it was given back as failed. -/
theorem attempts_performAll {place : Place} {requests : List Request} {slot : Slot}
    (h : (Request.performAll requests (storeOf config)).slot? place = some slot) :
  slot.entry.attempts = Request.countedReleases place requests (storeOf config)
  := by
  rw [Request.attempts_performAll (sound_storeOf config) requests h, QueueStore.attempts,
    slot?_storeOf]
  exact Nat.zero_add _

/-- No message of a broker reaches the limit of its queue. -/
theorem attempts_lt (configured : config.queues[id]? = some queue)
    (limited : queue.maxAttempts ≠ 0) {requests : List Request} {number : Nat} {slot : Slot}
    (h : (Request.performAll requests (storeOf config)).slot? (id, number) = some slot) :
  slot.entry.attempts < queue.maxAttempts.toNat
  := by
  obtain ⟨stored, found, -, policy, within⟩ := get?_performAll configured requests
  rw [QueueStore.slot?, found, Option.bind_some] at h
  have below := within number slot h
  rw [policy] at below
  exact below limited

/-- A message of a broker is given back as failed no more often than the limit allows. -/
theorem countedReleases_le (configured : config.queues[id]? = some queue)
    (limited : queue.maxAttempts ≠ 0) (number : Nat) (requests : List Request) :
  Request.countedReleases (id, number) requests (storeOf config) ≤ queue.maxAttempts.toNat
  := by
  induction requests using List.reverseRecOn with
  | nil => exact Nat.zero_le _
  | append_singleton requests request ih =>
    rw [Request.countedReleases_append, Request.countedReleases, Request.countedReleases,
      Nat.add_zero]
    cases held : (Request.performAll requests (storeOf config)).isHeld (id, number) with
    | false =>
      rw [Request.counts_of_not_held held]
      exact ih
    | true =>
      -- The last request counts once at most, and the message was below the limit before it.
      obtain ⟨entry, slot⟩ := QueueStore.isHeld_iff.mp held
      have below := attempts_lt configured limited slot
      rw [attempts_performAll slot] at below
      rw [Request.counts]
      split <;> omega

/-- Whatever is asked of the queues of a broker with a sound configuration, every queue is as the
configuration says. -/
theorem followed (sound : config.validate = .ok ())
    (configured : config.queues[id]? = some queue) (requests : List Request) :
  queue.Followed id (Request.performAll requests (storeOf config))
    fun number => Request.countedReleases (id, number) requests (storeOf config)
  := by
  have standing : queue.Standing id (Request.performAll requests (storeOf config))
      fun number => Request.countedReleases (id, number) requests (storeOf config) := by
    constructor
    case queue =>
      obtain ⟨stored, found, name, policy, -⟩ := get?_performAll configured requests
      exact ⟨stored, found, name, policy⟩
    case found => exact find?_performAll sound configured requests
    case alternate =>
      intro destination goes
      obtain ⟨other, alternate, configured', rfl, resolved⟩ :=
        alternate?_performAll sound configured goes requests
      obtain ⟨stored, found, name, -⟩ := get?_performAll configured' requests
      exact ⟨other, stored, resolved, found, name⟩
    case attempts => exact fun number slot => attempts_performAll
    case within => exact fun limited number slot => attempts_lt configured limited
    case atMost =>
      exact fun limited number => countedReleases_le configured limited number requests
  exact standing.followed (Request.sound_performAll (sound_storeOf config) requests)

end Broker

end MessageBroker
