import MessageBroker.Proofs.Queue.Requests

/-!
# Limits on redelivery

The attempts of a message are the times that it was given back with a failed attempt counted.  A
queue with a limit holds no message that has reached it: the time that would reach it takes the
message out.  The listing of a store only grows at its end, so a name that is listed once goes on
to stand for the same queue.
-/

namespace MessageBroker

/-! ### The limit of a queue -/

namespace RedeliveryPolicy

theorem isExhausted_iff {policy : RedeliveryPolicy} {attempts : Nat} :
  policy.isExhausted attempts = true
    ↔ policy.maxAttempts ≠ 0 ∧ policy.maxAttempts.toNat ≤ attempts
  := by
  simp [isExhausted]

/-- A message takes its place again unless it has used up its attempts. -/
theorem decide_eq_requeue_iff {policy : RedeliveryPolicy} {attempts : Nat} :
  policy.decide attempts = .requeue
    ↔ (policy.maxAttempts ≠ 0 → attempts < policy.maxAttempts.toNat)
  := by
  rw [decide]
  split
  case isTrue exhausted =>
    obtain ⟨limited, reached⟩ := isExhausted_iff.mp exhausted
    constructor
    · intro requeue
      split at requeue <;> cases requeue
    · intro within
      exact absurd (within limited) (Nat.not_lt_of_ge reached)
  case isFalse further =>
    simp only [true_iff]
    intro limited
    apply Nat.lt_of_not_ge
    intro reached
    exact further (isExhausted_iff.mpr ⟨limited, reached⟩)

/-- A message without further attempts goes to the alternate if there is one. -/
theorem decide_of_exhausted {policy : RedeliveryPolicy} {attempts : Nat}
    (exhausted : policy.decide attempts ≠ .requeue) :
  policy.decide attempts =
    match policy.alternate with
    | some destination => .deadLetter destination
    | none => .discard
  := by
  rw [decide] at exhausted ⊢
  split
  · rfl
  · next further =>
    rw [if_neg further] at exhausted
    exact absurd rfl exhausted

end RedeliveryPolicy

namespace Queue

/-- No message has reached the limit. -/
def Limited (queue : Queue) : Prop :=
  ∀ id slot, queue.slot? id = some slot → queue.policy.maxAttempts ≠ 0 →
    slot.entry.attempts < queue.policy.maxAttempts.toNat

theorem Limited.empty (name : String) (policy : RedeliveryPolicy) :
  (Queue.empty name policy).Limited
  := by
  intro id slot h
  cases h

theorem Step.limited {queue queue' : Queue} (step : Step queue queue') (sound : queue.Sound)
    (limited : queue.Limited) :
  queue'.Limited
  := by
  intro id slot h some_limit
  cases step with
  | enqueue payload =>
    rw [slot?_enqueue sound] at h
    split at h
    · rw [← Option.some.inj h]
      apply Nat.pos_of_ne_zero
      intro zero
      exact some_limit (UInt32.toNat.inj zero)
    · exact limited id slot h some_limit
  | @acquire entry available =>
    rw [slot?_setHeld] at h
    split at h
    · obtain ⟨before, hbefore, rfl⟩ := Option.map_eq_some_iff.mp h
      exact limited id before hbefore some_limit
    · exact limited id slot h some_limit
  | acknowledge held =>
    rw [slot?_remove] at h
    split at h
    · cases h
    · exact limited id slot h some_limit
  | release held counted =>
    rw [slot?_takeBack sound held] at h
    split at h
    · obtain ⟨again, rfl⟩ := slotAfter_eq_some_iff.mp h
      exact RedeliveryPolicy.decide_eq_requeue_iff.mp again some_limit
    · exact limited id slot h some_limit

theorem Steps.limited {queue queue' : Queue} (steps : Steps queue queue') (sound : queue.Sound)
    (limited : queue.Limited) :
  queue'.Limited
  := by
  induction steps with
  | refl => exact limited
  | tail before step ih => exact step.limited (Steps.sound before sound) ih

end Queue

/-! ### Messages that go on -/

namespace QueueStore

variable {store : QueueStore} {place : Place} {queue : Queue} {entry : QueueEntry}

/-- A message that is put into a queue changes nothing at the numbers that were given out
before. -/
theorem slot?_enqueue_of_lt (sound : store.Sound) (found : store.get? place.1 = some queue)
    (old : place.2 < queue.nextId) (id : QueueId) (payload : Bytes) :
  (store.enqueue id payload).2.slot? place = store.slot? place
  := by
  cases target : store.get? id with
  | none => rw [enqueue_of_none target]
  | some other =>
    rw [slot?_enqueue sound target, if_neg]
    rintro rfl
    rw [target] at found
    rw [Option.some.inj found] at old
    exact Nat.lt_irrefl _ old

/-- A message that goes on to another queue, or to the end of its own, is gone from its place. -/
theorem slot?_forwarded (sound : store.Sound) (found : store.get? place.1 = some queue)
    (held : queue.slot? place.2 = some ⟨entry, true⟩) (alternate : QueueId) (payload : Bytes) :
  ((store.set place.1 (queue.remove place.2)).enqueue alternate payload).2.slot? place = none
  := by
  have removed := slot?_set found (Queue.slot?_remove queue place.2) place
  have old := (sound place.1 queue found).given _ (Queue.mem_of_slot? held)
  rw [Queue.id_of_slot? held] at old
  have found' : (store.set place.1 (queue.remove place.2)).get? place.1
      = some (queue.remove place.2) := by
    rw [get?_set, if_pos rfl, found, Option.map_some]
  rw [slot?_enqueue_of_lt (sound.set ((sound place.1 queue found).remove place.2)) found' old,
    removed, if_pos rfl]

end QueueStore

/-! ### Counting attempts -/

/-- How many attempts to deliver the message at a place have failed; zero if there is none. -/
def QueueStore.attempts (store : QueueStore) (place : Place) : Nat :=
  ((store.slot? place).map (·.entry.attempts)).getD 0

namespace Request

/-- Whether a request gives back a held message with a failed attempt counted: one if so. -/
def counts (place : Place) (request : Request) (store : QueueStore) : Nat :=
  if request = .release place true ∧ store.isHeld place = true then 1 else 0

/-- How often the message at a place is given back with a failed attempt counted. -/
def countedReleases (place : Place) : List Request → QueueStore → Nat
  | [], _ => 0
  | request :: requests, store =>
    request.counts place store + countedReleases place requests (request.perform store)

variable {store : QueueStore} {place : Place}

theorem countedReleases_append (place : Place) (requests others : List Request)
    (store : QueueStore) :
  countedReleases place (requests ++ others) store
    = countedReleases place requests store
      + countedReleases place others (performAll requests store)
  := by
  induction requests generalizing store with
  | nil => exact (Nat.zero_add _).symm
  | cons request requests ih =>
    rw [List.cons_append, countedReleases, ih, countedReleases, performAll_cons, Nat.add_assoc]

theorem counts_of_not_held (free : store.isHeld place = false) (request : Request) :
  request.counts place store = 0
  := by
  rw [counts, if_neg]
  rintro ⟨-, held⟩
  rw [free] at held
  cases held

theorem counts_of_ne {request : Request} (h : request ≠ .release place true) :
  request.counts place store = 0
  := by
  rw [counts, if_neg]
  rintro ⟨rfl, -⟩
  exact h rfl

/-- A slot after a message was put into a queue was there before, or is a new one without
attempts. -/
theorem slot_of_enqueue (sound : store.Sound) {id : QueueId} {payload : Bytes} {slot : Slot}
    (h : (store.enqueue id payload).2.slot? place = some slot) :
  store.slot? place = some slot
    ∨ slot.entry.attempts = 0
      ∧ ∃ queue, store.get? place.1 = some queue ∧ place = (place.1, queue.nextId)
  := by
  cases found : store.get? id with
  | none =>
    rw [QueueStore.enqueue_of_none found] at h
    exact .inl h
  | some queue =>
    rw [QueueStore.slot?_enqueue sound found] at h
    split at h
    case isTrue here =>
      rw [← Option.some.inj h, here]
      exact .inr ⟨rfl, queue, found, rfl⟩
    case isFalse => exact .inl h

/-- A slot after a message was given back was there before, with nothing given back at its place,
or is that of the message, or is a new one without attempts. -/
theorem slot_of_release (sound : store.Sound) {other : Place} {counted : Bool} {slot : Slot}
    (h : (store.release other.1 other.2 counted).2.slot? place = some slot) :
  ((place ≠ other ∨ store.isHeld place = false) ∧ store.slot? place = some slot)
    ∨ (place = other ∧ ∃ entry, store.slot? place = some ⟨entry, true⟩
        ∧ slot = ⟨{ entry with attempts := Queue.attemptsAfter entry counted }, false⟩)
    ∨ (store.slot? place = none ∧ slot.entry.attempts = 0)
  := by
  have released := QueueStore.released sound other counted
  generalize store.release other.1 other.2 counted = result at h released
  by_cases here : place = other
  · subst here
    cases released with
    | vain free => exact .inl ⟨.inr free, h⟩
    | @requeued queue entry found held again =>
      have left := Queue.slot?_takeBack (sound place.1 queue found) held counted
      rw [QueueStore.slot?_notify, QueueStore.slot?_set found left, if_pos rfl] at h
      exact .inr (.inl ⟨rfl, entry, QueueStore.slot?_of_found found held,
        (Queue.slotAfter_eq_some_iff.mp h).2⟩)
    | discarded found held =>
      rw [QueueStore.slot?_set found (Queue.slot?_remove _ place.2), if_pos rfl] at h
      cases h
    | deadLettered found held listed =>
      rw [QueueStore.slot?_forwarded sound found held] at h
      cases h
  · cases released with
    | vain free => exact .inl ⟨.inl here, h⟩
    | @requeued queue entry found held again =>
      have left := Queue.slot?_takeBack (sound other.1 queue found) held counted
      rw [QueueStore.slot?_notify, QueueStore.slot?_set found left, if_neg here] at h
      exact .inl ⟨.inl here, h⟩
    | discarded found held =>
      rw [QueueStore.slot?_set found (Queue.slot?_remove _ other.2), if_neg here] at h
      exact .inl ⟨.inl here, h⟩
    | @deadLettered queue entry destination alternate found held listed =>
      have removed := QueueStore.slot?_set found (Queue.slot?_remove queue other.2) place
      rw [if_neg here] at removed
      have sound' : (store.set other.1 (queue.remove other.2)).Sound :=
        sound.set ((sound other.1 queue found).remove other.2)
      rcases slot_of_enqueue sound' h with before | ⟨fresh, gained, found', next⟩
      · exact .inl ⟨.inl here, removed ▸ before⟩
      · refine .inr (.inr ⟨?_, fresh⟩)
        rw [← removed, next]
        exact QueueStore.slot?_nextId sound' found'

/-- The attempts of a message are counted by the requests that give it back as failed, and by no
others. -/
theorem attempts_perform (sound : store.Sound) (request : Request) {slot : Slot}
    (h : (request.perform store).slot? place = some slot) :
  slot.entry.attempts = store.attempts place + request.counts place store
  := by
  have stays (other : request ≠ .release place true) (same : store.slot? place = some slot) :
      slot.entry.attempts = store.attempts place + request.counts place store := by
    rw [counts_of_ne other, QueueStore.attempts, same]
    rfl
  have comes (free : store.slot? place = none) (fresh : slot.entry.attempts = 0) :
      slot.entry.attempts = store.attempts place + request.counts place store := by
    rw [counts_of_not_held (by rw [QueueStore.isHeld, free]; rfl), QueueStore.attempts, free]
    exact fresh
  cases request with
  | add name policy listed =>
    rw [perform, QueueStore.slot?_add] at h
    exact stays (by simp) h
  | enqueue id payload =>
    rcases slot_of_enqueue sound h with before | ⟨fresh, queue, found, next⟩
    · exact stays (by simp) before
    · apply comes _ fresh
      rw [next]
      exact QueueStore.slot?_nextId sound found
  | acquire id =>
    cases acquired : store.acquire id with
    | mk entry? store' =>
      rw [perform, acquired] at h
      cases entry? with
      | none =>
        rw [QueueStore.acquire_eq_none acquired] at h
        exact stays (by simp) h
      | some entry =>
        rw [QueueStore.slot?_acquire sound acquired] at h
        split at h
        case isTrue here =>
          rw [counts_of_ne (by simp), QueueStore.attempts, here,
            (QueueStore.acquire_eq_some sound acquired).1, ← Option.some.inj h]
          rfl
        case isFalse => exact stays (by simp) h
  | acknowledge other =>
    cases held : store.isHeld other with
    | false =>
      rw [perform, QueueStore.acknowledge_of_not_held sound held] at h
      exact stays (by simp) h
    | true =>
      rw [perform, QueueStore.slot?_acknowledge sound held] at h
      split at h
      · cases h
      · exact stays (by simp) h
  | release other counted =>
    rcases slot_of_release sound h with ⟨apart, before⟩ | ⟨rfl, entry, before, rfl⟩ | ⟨free, fresh⟩
    · rcases apart with elsewhere | free
      · exact stays (by rintro ⟨⟩; exact elsewhere rfl) before
      · rw [counts_of_not_held free, QueueStore.attempts, before]
        rfl
    · have taken : store.isHeld place = true := QueueStore.isHeld_iff.mpr ⟨entry, before⟩
      rw [counts, taken, QueueStore.attempts, before]
      cases counted <;> simp [Queue.attemptsAfter]
    · exact comes free fresh
  | browse id => exact stays (by simp) h
  | browseNext id after => exact stays (by simp) h

/-- What is found at a number that was given out before was there before. -/
theorem slot_of_performAll (sound : store.Sound) (requests : List Request) {queue : Queue}
    (found : store.get? place.1 = some queue) (old : place.2 < queue.nextId) {slot : Slot}
    (h : (performAll requests store).slot? place = some slot) :
  ∃ before, store.slot? place = some before
  := by
  obtain ⟨queue', found', steps⟩ := steps_performAll sound requests found
  rw [QueueStore.slot?, found', Option.bind_some] at h
  obtain ⟨before, hbefore, -⟩ := (steps.keeps (sound place.1 queue found)).same place.2 slot old h
  use before
  rw [QueueStore.slot?, found, Option.bind_some, hbefore]

/-- The attempts of a message are those that it had and those that were counted since. -/
theorem attempts_performAll (sound : store.Sound) (requests : List Request) {slot : Slot}
    (h : (performAll requests store).slot? place = some slot) :
  slot.entry.attempts = store.attempts place + countedReleases place requests store
  := by
  induction requests generalizing store with
  | nil =>
    rw [performAll_nil] at h
    rw [QueueStore.attempts, h]
    rfl
  | cons request requests ih =>
    have later := ih (sound_perform sound request) h
    rw [countedReleases, later, ← Nat.add_assoc]
    congr 1
    rw [QueueStore.attempts]
    cases next : (request.perform store).slot? place with
    | some mid => exact attempts_perform sound request next
    | none =>
      -- A message that was taken out would not be found later, so there was none.
      cases before : store.slot? place with
      | none =>
        rw [counts_of_not_held (by rw [QueueStore.isHeld, before]; rfl), QueueStore.attempts,
          before]
        rfl
      | some gone =>
        obtain ⟨queue, found, hslot⟩ := Option.bind_eq_some_iff.mp before
        have old := (sound place.1 queue found).given gone (Queue.mem_of_slot? hslot)
        rw [Queue.id_of_slot? hslot] at old
        obtain ⟨queue', found', steps⟩ := steps_perform sound request found
        obtain ⟨mid, hmid⟩ := slot_of_performAll (sound_perform sound request) requests found'
          (Nat.lt_of_lt_of_le old (steps.keeps (sound place.1 queue found)).onward) h
        rw [next] at hmid
        cases hmid

end Request

/-! ### What becomes of messages that are given back -/

/-- What becomes of messages without further attempts. -/
def RedeliveryPolicy.lastOutcome (policy : RedeliveryPolicy) : ReleaseOutcome :=
  match policy.alternate with
  | some destination => .deadLettered destination
  | none => .discarded

namespace QueueStore

variable {store : QueueStore} {place : Place} {queue : Queue} {entry : QueueEntry} {counted : Bool}

/-- A held message with further attempts takes its place again. -/
theorem release_of_requeue (sound : store.Sound) (found : store.get? place.1 = some queue)
    (held : queue.slot? place.2 = some ⟨entry, true⟩)
    (again : queue.policy.decide (Queue.attemptsAfter entry counted) = .requeue) :
  (store.release place.1 place.2 counted).1 = some .requeued
    ∧ (store.release place.1 place.2 counted).2.slot? place
      = some ⟨{ entry with attempts := Queue.attemptsAfter entry counted }, false⟩
  := by
  have left := Queue.slot?_takeBack (sound place.1 queue found) held counted
  rw [release_eq sound found held, again]
  refine ⟨rfl, ?_⟩
  rw [slot?_notify, slot?_set found left, if_pos rfl]
  exact Queue.slotAfter_eq_some_iff.mpr ⟨again, rfl⟩

/-- A held message without further attempts is taken out, and goes on to the end of the alternate
if there is one. -/
theorem release_of_exhausted (sound : store.Sound) (found : store.get? place.1 = some queue)
    (held : queue.slot? place.2 = some ⟨entry, true⟩)
    (exhausted : queue.policy.decide (Queue.attemptsAfter entry counted) ≠ .requeue)
    (resolves : ∀ destination, queue.policy.alternate = some destination →
      ∃ alternate, store.alternate? place.1 destination = some alternate) :
  (store.release place.1 place.2 counted).1 = some queue.policy.lastOutcome
    ∧ (store.release place.1 place.2 counted).2.slot? place = none
    ∧ ∀ destination alternate other, queue.policy.alternate = some destination →
        store.alternate? place.1 destination = some alternate → store.get? alternate = some other →
          (store.release place.1 place.2 counted).2.slot? (alternate, other.nextId)
            = some ⟨⟨other.nextId, entry.payload, 0⟩, false⟩
  := by
  have removed := slot?_set found (Queue.slot?_remove queue place.2)
  have sound' : (store.set place.1 (queue.remove place.2)).Sound :=
    sound.set ((sound place.1 queue found).remove place.2)
  rw [release_eq sound found held, RedeliveryPolicy.decide_of_exhausted exhausted,
    RedeliveryPolicy.lastOutcome]
  cases goes : queue.policy.alternate with
  | none =>
    refine ⟨rfl, ?_, ?_⟩
    · rw [removed, if_pos rfl]
    · rintro destination _ _ ⟨⟩
  | some destination =>
    obtain ⟨alternate, listed⟩ := resolves destination goes
    simp only [listed]
    refine ⟨trivial, slot?_forwarded sound found held alternate entry.payload, ?_⟩
    rintro _ _ other ⟨⟩ again target
    obtain rfl := Option.some.inj (listed.symm.trans again)
    -- The message that was taken out may have been in the alternate itself.
    have target' : ∃ other', (store.set place.1 (queue.remove place.2)).get? alternate = some other'
        ∧ other'.nextId = other.nextId := by
      rw [get?_set, target]
      split
      case isTrue here =>
        rw [here, found] at target
        obtain rfl := Option.some.inj target
        exact ⟨_, rfl, rfl⟩
      case isFalse => exact ⟨other, rfl, rfl⟩
    obtain ⟨other', found', same⟩ := target'
    rw [← same, slot?_enqueue sound' found', if_pos rfl]

end QueueStore

end MessageBroker
