import Mathlib.Data.Multiset.AddSub
import Mathlib.Data.Multiset.Count
import Mathlib.Logic.Relation
import MessageBroker.Proofs.Queue.Store

/-!
# Custody of messages

Those who hold messages know them by their places.  All that is done to the queues on behalf of a
holder is a run of moves: a queue is added, a message is put into one, a message is acquired and its place is the
holder's, or a message of the holder is acknowledged or given back and its place is no longer the
holder's.  If the held messages of a store are exactly those at certain places, each listed once,
then moves keep this so, and they leave alone what others hold.
-/

namespace MessageBroker

namespace Queue

/-- Whether a consumer holds the message with a given number. -/
def isHeld (queue : Queue) (id : Nat) : Bool :=
  (queue.slot? id).any (·.held)

theorem isHeld_enqueue {queue : Queue} (sound : queue.Sound) (payload : Bytes) (id : Nat) :
  (queue.enqueue payload).isHeld id = queue.isHeld id
  := by
  rw [isHeld, isHeld, slot?_enqueue sound]
  by_cases h : id = queue.nextId
  · simp [h, sound.slot?_nextId]
  · simp [h]

theorem slot?_enqueue_of_some {queue : Queue} (sound : queue.Sound) {id : Nat} {slot : Slot}
    (h : queue.slot? id = some slot) (payload : Bytes) :
  (queue.enqueue payload).slot? id = some slot
  := by
  rw [slot?_enqueue sound, if_neg, h]
  rintro rfl
  rw [sound.slot?_nextId] at h
  contradiction

theorem isHeld_takeBack {queue : Queue} (sound : queue.Sound) {id : Nat} {slot : Slot}
    (h : queue.slot? id = some slot) (counted : Bool) (other : Nat) :
  (queue.takeBack id counted).isHeld other = if other = id then false else queue.isHeld other
  := by
  rw [isHeld, isHeld, slot?_takeBack sound h]
  by_cases hother : other = id
  · rw [if_pos hother, if_pos hother]
    cases hafter : slotAfter queue.policy slot.entry counted with
    | none => rfl
    | some left => exact (id_of_slotAfter hafter).2
  · rw [if_neg hother, if_neg hother]

end Queue

namespace QueueStore

/-- Whether a consumer holds the message at a place. -/
def isHeld (store : QueueStore) (place : Place) : Bool :=
  (store.slot? place).any (·.held)

theorem isHeld_eq (store : QueueStore) (place : Place) :
  store.isHeld place = (store.get? place.1).any (·.isHeld place.2)
  := by
  rw [isHeld, slot?]
  cases store.get? place.1 <;> rfl

theorem isHeld_iff {store : QueueStore} {place : Place} :
  store.isHeld place = true ↔ ∃ entry, store.slot? place = some ⟨entry, true⟩
  := by
  rw [isHeld]
  constructor
  · intro h
    obtain ⟨slot, hslot, hheld⟩ := (Option.any_eq_true _ _).mp h
    use slot.entry
    rw [hslot, ← hheld]
  · rintro ⟨entry, h⟩
    rw [h]
    rfl

/-- The slots of a store whose queues were changed. -/
theorem slot?_of_get? {store store' : QueueStore} {change : QueueId → Queue → Queue}
    (h : ∀ id, store'.get? id = (store.get? id).map (change id)) (place : Place) :
  store'.slot? place = (store.get? place.1).bind fun queue => (change place.1 queue).slot? place.2
  := by
  rw [slot?, h, Option.bind_map]
  rfl

/-- A store is sound after sound changes of its queues. -/
theorem Sound.of_get? {store store' : QueueStore} (sound : store.Sound)
    {change : QueueId → Queue → Queue}
    (h : ∀ id, store'.get? id = (store.get? id).map (change id))
    (keeps : ∀ id queue, queue.Sound → (change id queue).Sound) :
  store'.Sound
  := by
  intro id queue' h'
  rw [h] at h'
  obtain ⟨queue, found, rfl⟩ := Option.map_eq_some_iff.mp h'
  exact keeps id queue (sound id queue found)

/-! ### What operations do to held messages -/

theorem sound_leaving {queue : Queue} (sound : queue.Sound) (place : Place) (counted : Bool)
    (id : QueueId) :
  (leaving place counted id queue).Sound
  := by
  rw [leaving]
  split
  · exact sound.takeBack place.2 counted
  · exact sound

theorem sound_receiving {queue : Queue} (sound : queue.Sound)
    (onward : Option (QueueId × Bytes)) (id : QueueId) :
  (receiving onward id queue).Sound
  := by
  cases onward with
  | none => exact sound
  | some going =>
      rw [receiving]
      split
      · exact sound.enqueue going.2
      · exact sound

theorem slot?_receiving_of_some {queue : Queue} (sound : queue.Sound)
    {onward : Option (QueueId × Bytes)} {id : QueueId} {number : Nat} {slot : Slot}
    (h : queue.slot? number = some slot) :
  (receiving onward id queue).slot? number = some slot
  := by
  cases onward with
  | none => exact h
  | some going =>
      rw [receiving]
      split
      · exact Queue.slot?_enqueue_of_some sound h going.2
      · exact h

theorem isHeld_receiving {queue : Queue} (sound : queue.Sound)
    (onward : Option (QueueId × Bytes)) (id : QueueId) (number : Nat) :
  (receiving onward id queue).isHeld number = queue.isHeld number
  := by
  cases onward with
  | none => rfl
  | some going =>
      rw [receiving]
      split
      · exact Queue.isHeld_enqueue sound going.2 number
      · rfl

section Operations

variable {store : QueueStore}

theorem isHeld_enqueue (sound : store.Sound) (id : QueueId) (payload : Bytes) (place : Place) :
  (store.enqueue id payload).2.isHeld place = store.isHeld place
  := by
  rw [isHeld_eq, isHeld_eq, get?_enqueue]
  cases found : store.get? place.1 with
  | none => rfl
  | some queue =>
      rw [Option.map_some, Option.any_some, Option.any_some]
      split
      · rw [Queue.isHeld_enqueue (sound place.1 queue found)]
      · rfl

theorem slot?_enqueue_of_some (sound : store.Sound) {place : Place} {slot : Slot}
    (h : store.slot? place = some slot) (id : QueueId) (payload : Bytes) :
  (store.enqueue id payload).2.slot? place = some slot
  := by
  obtain ⟨queue, found, hslot⟩ := Option.bind_eq_some_iff.mp h
  rw [slot?, get?_enqueue, found, Option.map_some, Option.bind_some]
  split
  · exact Queue.slot?_enqueue_of_some (sound place.1 queue found) hslot payload
  · exact hslot

theorem slot?_acquire (sound : store.Sound) {store' : QueueStore} {id : QueueId}
    {entry : QueueEntry} (h : store.acquire id = (some entry, store')) (place : Place) :
  store'.slot? place
    = if place = (id, entry.id) then some ⟨entry, true⟩ else store.slot? place
  := by
  obtain ⟨hslot, hget, -⟩ := acquire_eq_some sound h
  rw [slot?_of_get? hget]
  by_cases hplace : place = (id, entry.id)
  · subst hplace
    obtain ⟨queue, found, hentry⟩ := Option.bind_eq_some_iff.mp hslot
    rw [if_pos rfl, found, Option.bind_some, if_pos rfl, Queue.slot?_setHeld, if_pos rfl, hentry]
    rfl
  · rw [if_neg hplace, slot?]
    congr 1
    funext queue
    split
    · next hid =>
        rw [Queue.slot?_setHeld, if_neg]
        intro hentry
        exact hplace (Prod.ext hid hentry)
    · rfl

theorem Sound.acquire (sound : store.Sound) {store' : QueueStore} {id : QueueId}
    {entry : QueueEntry} (h : store.acquire id = (some entry, store')) :
  store'.Sound
  := by
  apply sound.of_get? (acquire_eq_some sound h).2.1
  intro other queue hqueue
  split
  · exact hqueue.setHeld entry.id true
  · exact hqueue

theorem slot?_acknowledge (sound : store.Sound) {place : Place} (h : store.isHeld place)
    (other : Place) :
  (store.acknowledge place.1 place.2).2.slot? other
    = if other = place then none else store.slot? other
  := by
  obtain ⟨entry, hslot⟩ := isHeld_iff.mp h
  obtain ⟨-, hget, -⟩ := acknowledge_of_held sound hslot
  rw [slot?_of_get? hget]
  by_cases hplace : other = place
  · subst hplace
    rw [if_pos rfl]
    cases store.get? other.1 with
    | none => rfl
    | some queue => rw [Option.bind_some, if_pos rfl, Queue.slot?_remove, if_pos rfl]
  · rw [if_neg hplace, slot?]
    congr 1
    funext queue
    split
    · next hid =>
        rw [Queue.slot?_remove, if_neg]
        intro hentry
        exact hplace (Prod.ext hid hentry)
    · rfl

theorem isHeld_acknowledge (sound : store.Sound) {place : Place} (h : store.isHeld place)
    (other : Place) :
  (store.acknowledge place.1 place.2).2.isHeld other
    = if other = place then false else store.isHeld other
  := by
  rw [isHeld, slot?_acknowledge sound h]
  split
  · rfl
  · rw [isHeld]

theorem Sound.acknowledge (sound : store.Sound) {place : Place} (h : store.isHeld place) :
  (store.acknowledge place.1 place.2).2.Sound
  := by
  obtain ⟨entry, hslot⟩ := isHeld_iff.mp h
  apply sound.of_get? (acknowledge_of_held sound hslot).2.1
  intro other queue hqueue
  split
  · exact hqueue.remove place.2
  · exact hqueue

theorem Sound.release (sound : store.Sound) {place : Place} (h : store.isHeld place)
    (counted : Bool) :
  (store.release place.1 place.2 counted).2.Sound
  := by
  obtain ⟨entry, hslot⟩ := isHeld_iff.mp h
  apply sound.of_get? (release_of_held sound hslot counted).2.1
  intro other queue hqueue
  exact sound_receiving (sound_leaving hqueue place counted other) _ other

/-- Giving a message back leaves every other message alone. -/
theorem slot?_release_of_some (sound : store.Sound) {place : Place} (h : store.isHeld place)
    (counted : Bool) {other : Place} (hne : other ≠ place) {slot : Slot}
    (hother : store.slot? other = some slot) :
  (store.release place.1 place.2 counted).2.slot? other = some slot
  := by
  obtain ⟨entry, hslot⟩ := isHeld_iff.mp h
  obtain ⟨queue, found, hqueue⟩ := Option.bind_eq_some_iff.mp hother
  have hsound := sound other.1 queue found
  rw [slot?_of_get? (release_of_held sound hslot counted).2.1, found, Option.bind_some]
  apply slot?_receiving_of_some (sound_leaving hsound place counted other.1)
  rw [leaving]
  split
  · next hid =>
      obtain ⟨queue', found', hentry⟩ := Option.bind_eq_some_iff.mp hslot
      rw [← hid, found] at found'
      obtain rfl := Option.some.inj found'
      rw [Queue.slot?_takeBack hsound hentry, if_neg, hqueue]
      intro hnumber
      exact hne (Prod.ext hid hnumber)
  · exact hqueue

theorem isHeld_release (sound : store.Sound) {place : Place} (h : store.isHeld place)
    (counted : Bool) (other : Place) :
  (store.release place.1 place.2 counted).2.isHeld other
    = if other = place then false else store.isHeld other
  := by
  obtain ⟨entry, hslot⟩ := isHeld_iff.mp h
  rw [isHeld_eq, isHeld_eq, (release_of_held sound hslot counted).2.1]
  cases found : store.get? other.1 with
  | none => simp
  | some queue =>
      have hsound := sound other.1 queue found
      rw [Option.map_some, Option.any_some, Option.any_some,
        isHeld_receiving (sound_leaving hsound place counted other.1), leaving]
      by_cases hid : other.1 = place.1
      · obtain ⟨queue', found', hentry⟩ := Option.bind_eq_some_iff.mp hslot
        rw [← hid, found] at found'
        obtain rfl := Option.some.inj found'
        rw [if_pos hid, Queue.isHeld_takeBack hsound hentry]
        simp [Prod.ext_iff, hid]
      · rw [if_neg hid, if_neg]
        rintro rfl
        exact hid rfl

end Operations

/-! ### Places in custody -/

/-- The held messages of a sound store are those at the given places, each listed once. -/
structure InCustody (store : QueueStore) (places : Multiset Place) : Prop where
  /-- The store is sound. -/
  sound : store.Sound
  /-- Every held message is listed once, and nothing else is. -/
  count : ∀ place, places.count place = if store.isHeld place then 1 else 0

namespace InCustody

variable {store : QueueStore} {places : Multiset Place}

theorem isHeld_of_mem (custody : store.InCustody places) {place : Place} (h : place ∈ places) :
  store.isHeld place = true
  := by
  have hcount := custody.count place
  have hpos := Multiset.count_pos.mpr h
  by_contra hheld
  rw [if_neg hheld] at hcount
  omega

/-- What is held is listed without a place at which nothing is held any more. -/
theorem without {place : Place} (custody : store.InCustody (place ::ₘ places))
    {store' : QueueStore} (sound : store'.Sound)
    (held : ∀ other, store'.isHeld other = if other = place then false else store.isHeld other) :
  store'.InCustody places
  := by
  refine ⟨sound, fun other => ?_⟩
  have hcount := custody.count other
  rw [Multiset.count_cons] at hcount
  rw [held]
  by_cases hother : other = place
  · subst hother
    have hheld := custody.isHeld_of_mem (Multiset.mem_cons_self other places)
    simpa [hheld] using hcount
  · simpa [hother] using hcount

theorem mem_iff (custody : store.InCustody places) {place : Place} :
  place ∈ places ↔ store.isHeld place = true
  := by
  constructor
  · apply custody.isHeld_of_mem
  · intro h
    apply Multiset.count_pos.mp
    rw [custody.count, if_pos h]
    exact Nat.one_pos

theorem nodup (custody : store.InCustody places) :
  places.Nodup
  := by
  apply Multiset.nodup_iff_count_le_one.mpr
  intro place
  rw [custody.count]
  split <;> omega

end InCustody

end QueueStore

/-! ### Moves -/

/-- The places of the messages that someone holds, and the queues. -/
structure Custody where
  /-- The places. -/
  places : Multiset Place
  /-- The queues. -/
  store : QueueStore

namespace Custody

/-- One thing that is done to the queues on behalf of a holder. -/
inductive Move : Custody → Custody → Prop where
  /-- A queue is added. -/
  | add (places : Multiset Place) (store : QueueStore) (name : String)
    (policy : RedeliveryPolicy) (listed : Bool) :
    Move ⟨places, store⟩ ⟨places, store.add name policy listed⟩
  /-- A message is put into a queue. -/
  | enqueue (places : Multiset Place) (store : QueueStore) (queue : QueueId) (payload : Bytes) :
    Move ⟨places, store⟩ ⟨places, (store.enqueue queue payload).2⟩
  /-- A message is acquired. -/
  | acquire (places : Multiset Place) {store store' : QueueStore} {queue : QueueId}
    {entry : QueueEntry} (h : store.acquire queue = (some entry, store')) :
    Move ⟨places, store⟩ ⟨(queue, entry.id) ::ₘ places, store'⟩
  /-- A message of the holder is acknowledged. -/
  | acknowledge (places : Multiset Place) (store : QueueStore) (place : Place) :
    Move ⟨place ::ₘ places, store⟩ ⟨places, (store.acknowledge place.1 place.2).2⟩
  /-- A message of the holder is given back. -/
  | release (places : Multiset Place) (store : QueueStore) (place : Place) (counted : Bool) :
    Move ⟨place ::ₘ places, store⟩ ⟨places, (store.release place.1 place.2 counted).2⟩

/-- A run of moves. -/
abbrev Moves : Custody → Custody → Prop :=
  Relation.ReflTransGen Move

/-- A holder among others, who hold the messages at the given places. -/
def beside (custody : Custody) (others : Multiset Place) : Custody :=
  ⟨custody.places + others, custody.store⟩

variable {custody custody' : Custody}

/-- What others hold does not stand in the way of a move. -/
theorem Move.beside (move : Move custody custody') (others : Multiset Place) :
  Move (custody.beside others) (custody'.beside others)
  := by
  cases move with
  | add places store name policy listed => exact .add _ _ _ _ _
  | enqueue places store queue payload => exact .enqueue _ _ _ _
  | acquire places h =>
      rw [Custody.beside, Custody.beside, Multiset.cons_add]
      exact .acquire _ h
  | acknowledge places store place =>
      rw [Custody.beside, Custody.beside, Multiset.cons_add]
      exact .acknowledge _ _ _
  | release places store place counted =>
      rw [Custody.beside, Custody.beside, Multiset.cons_add]
      exact .release _ _ _ _

theorem Moves.beside (moves : Moves custody custody') (others : Multiset Place) :
  Moves (custody.beside others) (custody'.beside others)
  := by
  induction moves with
  | refl => rfl
  | tail _ move ih => exact ih.tail (move.beside others)

/-- A move keeps the held messages of the store at the places that are listed. -/
theorem Move.inCustody (move : Move custody custody')
    (h : custody.store.InCustody custody.places) :
  custody'.store.InCustody custody'.places
  := by
  cases move with
  | add places store name policy listed =>
      constructor
      · exact h.sound.add name policy listed
      · intro place
        rw [QueueStore.isHeld, QueueStore.slot?_add]
        exact h.count place
  | enqueue places store queue payload =>
      constructor
      · exact h.sound.enqueue queue payload
      · intro place
        rw [QueueStore.isHeld_enqueue h.sound]
        exact h.count place
  | @acquire places store store' queue entry hacquire =>
      constructor
      · exact QueueStore.Sound.acquire h.sound hacquire
      · intro place
        have hcount := h.count place
        rw [QueueStore.isHeld] at hcount ⊢
        rw [Multiset.count_cons, hcount, QueueStore.slot?_acquire h.sound hacquire]
        have hslot := (QueueStore.acquire_eq_some h.sound hacquire).1
        by_cases hplace : place = (queue, entry.id)
        · simp [hplace, hslot]
        · simp [hplace]
  | acknowledge places store place =>
      have hheld := h.isHeld_of_mem (Multiset.mem_cons_self place places)
      exact h.without (QueueStore.Sound.acknowledge h.sound hheld)
        (QueueStore.isHeld_acknowledge h.sound hheld)
  | release places store place counted =>
      have hheld := h.isHeld_of_mem (Multiset.mem_cons_self place places)
      exact h.without (QueueStore.Sound.release h.sound hheld counted)
        (QueueStore.isHeld_release h.sound hheld counted)

theorem Moves.inCustody (moves : Moves custody custody')
    (h : custody.store.InCustody custody.places) :
  custody'.store.InCustody custody'.places
  := by
  induction moves with
  | refl => exact h
  | tail _ move ih => exact move.inCustody ih

/-- The queues that are in a store stay there. -/
theorem Move.has (move : Move custody custody') {queue : QueueId}
    (h : custody.store.Has queue) :
  custody'.store.Has queue
  := by
  rw [QueueStore.has_iff] at h ⊢
  cases move with
  | add places store name policy listed =>
      change queue < (store.queues ++ [_]).length
      rw [List.length_append]
      exact Nat.lt_add_right _ h
  | enqueue places store other payload => rwa [QueueStore.length_enqueue]
  | @acquire places store store' other entry hacquire =>
      have hlength := store.length_acquire other
      rw [hacquire] at hlength
      rwa [hlength]
  | acknowledge places store place => rwa [QueueStore.length_acknowledge]
  | release places store place counted => rwa [QueueStore.length_release]

theorem Moves.has (moves : Moves custody custody') {queue : QueueId}
    (h : custody.store.Has queue) :
  custody'.store.Has queue
  := by
  induction moves with
  | refl => exact h
  | tail _ move ih => exact move.has ih

/-- A move leaves the messages alone that others hold. -/
theorem Move.slot?_of_others (move : Move custody custody') {others : Multiset Place}
    (h : custody.store.InCustody (custody.places + others)) {place : Place}
    (hplace : place ∈ others) :
  custody'.store.slot? place = custody.store.slot? place
  := by
  have hheld := h.isHeld_of_mem (Multiset.mem_add.mpr (.inr hplace))
  obtain ⟨held, hslot⟩ := QueueStore.isHeld_iff.mp hheld
  -- A place of the holder is listed once, so it is none of the others' places.
  have hne : ∀ {own : Place} {places : Multiset Place}, custody.places = own ::ₘ places →
      place ≠ own := by
    rintro own places hplaces rfl
    have hnodup := h.nodup
    rw [hplaces, Multiset.cons_add, Multiset.nodup_cons] at hnodup
    exact hnodup.1 (Multiset.mem_add.mpr (.inr hplace))
  cases move with
  | add places store name policy listed => exact QueueStore.slot?_add _ _ _ _ _
  | enqueue places store queue payload =>
      rw [hslot]
      exact QueueStore.slot?_enqueue_of_some h.sound hslot queue payload
  | @acquire places store store' queue entry hacquire =>
      rw [QueueStore.slot?_acquire h.sound hacquire, if_neg]
      rintro rfl
      have havailable := (QueueStore.acquire_eq_some h.sound hacquire).1
      rw [hslot] at havailable
      simp at havailable
  | acknowledge places store own =>
      have hown := h.isHeld_of_mem
        (Multiset.mem_add.mpr (.inl (Multiset.mem_cons_self own places)))
      rw [QueueStore.slot?_acknowledge h.sound hown, if_neg (hne rfl)]
  | release places store own counted =>
      have hown := h.isHeld_of_mem
        (Multiset.mem_add.mpr (.inl (Multiset.mem_cons_self own places)))
      rw [hslot]
      exact QueueStore.slot?_release_of_some h.sound hown counted (hne rfl) hslot

/-- A run of moves leaves the messages alone that others hold. -/
theorem Moves.slot?_of_others (moves : Moves custody custody') {others : Multiset Place}
    (h : custody.store.InCustody (custody.places + others)) {place : Place}
    (hplace : place ∈ others) :
  custody'.store.slot? place = custody.store.slot? place
  := by
  induction moves with
  | refl => rfl
  | tail moves move ih =>
      rw [← ih]
      exact move.slot?_of_others ((Moves.beside moves others).inCustody h) hplace

end Custody

end MessageBroker
