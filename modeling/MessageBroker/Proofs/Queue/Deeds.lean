import Mathlib.Algebra.Order.Group.Multiset
import MessageBroker.Proofs.Queue.Custody

/-!
# Deeds

What is done to the queues at the end of a transaction or of a session is a run of deeds: messages
arrive, and held messages are taken out for good or given back.  If no held message is subject to
two deeds, then all of them may be thought of as done at once: every queue keeps what its own
deeds leave of its slots, and what arrives comes after them in order.
-/

namespace MessageBroker

/-- Something that is done to the queues. -/
inductive Deed where
  /-- A message is put into a queue. -/
  | arrive (queue : QueueId) (payload : Bytes)
  /-- A held message is taken out of its queue for good. -/
  | take (place : Place)
  /-- A held message is given back, with a failed attempt counted or not. -/
  | giveBack (place : Place) (counted : Bool)
  deriving DecidableEq

namespace Deed

/-- The place of the held message that a deed is done to. -/
def place? : Deed → Option Place
  | .arrive _ _ => none
  | .take place => some place
  | .giveBack place _ => some place

/-- Does a deed. -/
def perform (store : QueueStore) : Deed → QueueStore
  | .arrive queue payload => (store.enqueue queue payload).2
  | .take place => (store.acknowledge place.1 place.2).2
  | .giveBack place counted => (store.release place.1 place.2 counted).2

/-- Does deeds one after another. -/
def performAll (deeds : List Deed) (store : QueueStore) : QueueStore :=
  deeds.foldl perform store

/-- What a deed leaves of the slot of the message that it is done to. -/
def left (policy : RedeliveryPolicy) (slot : Slot) : Deed → Option Slot
  | .arrive _ _ => some slot
  | .take _ => none
  | .giveBack _ counted => Queue.slotAfter policy slot.entry counted

/-- The message that a deed puts into a queue, and that queue. -/
def arrival? (store : QueueStore) : Deed → Option (QueueId × Bytes)
  | .arrive queue payload => some (queue, payload)
  | .take _ => none
  | .giveBack place counted => store.onward? place counted

end Deed

namespace Queue

/-- What deeds leave of a slot of the queue with a number. -/
def leftOf (deeds : List Deed) (id : QueueId) (policy : RedeliveryPolicy) (slot : Slot) :
    Option Slot :=
  match deeds.find? (·.place? = some (id, slot.entry.id)) with
  | some deed => deed.left policy slot
  | none => some slot

/-- What deeds leave of the queue with a number. -/
def leave (deeds : List Deed) (id : QueueId) (queue : Queue) : Queue :=
  { queue with slots := queue.slots.filterMap (leftOf deeds id queue.policy) }

/-- The queue with a number after messages have arrived in queues. -/
def arrive (arrivals : List (QueueId × Bytes)) (id : QueueId) (queue : Queue) : Queue :=
  ((arrivals.filter fun arrival => arrival.1 = id).map (·.2)).foldl enqueue queue

/-- The queue with a number after deeds: what they leave of it, and what they put into it. -/
def settled (deeds : List Deed) (store : QueueStore) (id : QueueId) (queue : Queue) : Queue :=
  (queue.leave deeds id).arrive (deeds.filterMap (·.arrival? store)) id

section Queue

variable {deeds : List Deed} {id : QueueId} {queue : Queue}

/-! ### Arrivals -/

theorem arrive_append (arrivals others : List (QueueId × Bytes)) (id : QueueId) (queue : Queue) :
  queue.arrive (arrivals ++ others) id = (queue.arrive arrivals id).arrive others id
  := by
  rw [arrive, arrive, arrive, List.filter_append, List.map_append, List.foldl_append]

theorem arrive_cons (arrival : QueueId × Bytes) (others : List (QueueId × Bytes)) (id : QueueId)
    (queue : Queue) :
  queue.arrive (arrival :: others) id
    = (if id = arrival.1 then queue.enqueue arrival.2 else queue).arrive others id
  := by
  rw [arrive, List.filter_cons]
  by_cases h : arrival.1 = id
  · rw [if_pos (by simpa using h), if_pos h.symm]
    rfl
  · rw [if_neg (by simpa using h), if_neg (Ne.symm h)]
    rfl

theorem policy_arrive (arrivals : List (QueueId × Bytes)) (id : QueueId) (queue : Queue) :
  (queue.arrive arrivals id).policy = queue.policy
  := by
  induction arrivals generalizing queue with
  | nil => rfl
  | cons arrival others ih =>
      rw [arrive_cons, ih]
      split <;> rfl

/-! ### Slots that are left -/

theorem leftOf_of_forall {slot : Slot} (h : ∀ deed ∈ deeds, deed.place? ≠ some (id, slot.entry.id))
    (policy : RedeliveryPolicy) :
  leftOf deeds id policy slot = some slot
  := by
  have hnone : deeds.find? (·.place? = some (id, slot.entry.id)) = none := by
    apply List.find?_eq_none.mpr
    intro deed hmem
    simpa using h deed hmem
  rw [leftOf, hnone]

theorem leave_of_forall (h : ∀ deed ∈ deeds, ∀ number, deed.place? ≠ some (id, number)) :
  queue.leave deeds id = queue
  := by
  have hslots : queue.slots.filterMap (leftOf deeds id queue.policy) = queue.slots := by
    apply Eq.trans (List.filterMap_congr _) List.filterMap_some
    intro slot _
    exact leftOf_of_forall (fun deed hmem => h deed hmem _) _
  rw [leave, hslots]

/-- What a deed that is done to a held message leaves of the queue with a number. -/
theorem leave_one {deed : Deed} {place : Place} (about : deed.place? = some place) (id : QueueId)
    (queue : Queue) :
  queue.leave [deed] id
    = if id = place.1 then
        { queue with
          slots := queue.slots.filterMap fun slot =>
            if slot.entry.id = place.2 then deed.left queue.policy slot else some slot }
      else queue
  := by
  by_cases here : id = place.1
  · rw [if_pos here, leave]
    congr 1
    apply List.filterMap_congr
    intro slot _
    by_cases hnumber : slot.entry.id = place.2
    · simp [leftOf, about, here, hnumber]
    · have hne : place ≠ (id, slot.entry.id) := by
        rintro rfl
        exact hnumber rfl
      simp [leftOf, about, hne, hnumber]
  · rw [if_neg here]
    apply leave_of_forall
    intro other hmem number hplace
    rw [List.mem_singleton.mp hmem, about] at hplace
    exact here (congrArg Prod.fst (Option.some.inj hplace)).symm

/-- Deeds leave alone what was put into a queue after them. -/
theorem leave_enqueue (h : ∀ deed ∈ deeds, deed.place? ≠ some (id, queue.nextId))
    (payload : Bytes) :
  (queue.enqueue payload).leave deeds id = (queue.leave deeds id).enqueue payload
  := by
  have hlast : leftOf deeds id queue.policy ⟨⟨queue.nextId, payload, 0⟩, false⟩
      = some ⟨⟨queue.nextId, payload, 0⟩, false⟩ := leftOf_of_forall h _
  rw [leave, enqueue]
  dsimp only
  rw [List.filterMap_append, List.filterMap_cons_some hlast]
  rfl

/-- What arrives in a queue may as well arrive after deeds that are done to messages of old. -/
theorem leave_arrive (arrivals : List (QueueId × Bytes))
    (h : ∀ deed ∈ deeds, ∀ number, deed.place? = some (id, number) → number < queue.nextId) :
  (queue.arrive arrivals id).leave deeds id = (queue.leave deeds id).arrive arrivals id
  := by
  induction arrivals generalizing queue with
  | nil => rfl
  | cons arrival others ih =>
      rw [arrive_cons, arrive_cons]
      split
      · rw [ih, leave_enqueue]
        · intro deed hmem hplace
          exact Nat.lt_irrefl _ (h deed hmem _ hplace)
        · intro deed hmem number hplace
          exact Nat.lt_succ_of_lt (h deed hmem number hplace)
      · exact ih h

/-- A deed and then others leave what all of them leave, if the others are done to other
messages. -/
theorem leave_leave {deed : Deed}
    (h : ∀ other ∈ deeds, ∀ place, deed.place? = some place → other.place? ≠ some place) :
  (queue.leave [deed] id).leave deeds id = queue.leave (deed :: deeds) id
  := by
  have hslots : (queue.slots.filterMap (leftOf [deed] id queue.policy)).filterMap
      (leftOf deeds id queue.policy) = queue.slots.filterMap (leftOf (deed :: deeds) id queue.policy) := by
    rw [List.filterMap_filterMap]
    apply List.filterMap_congr
    intro slot _
    by_cases hplace : deed.place? = some (id, slot.entry.id)
    · have hfirst : leftOf [deed] id queue.policy slot = deed.left queue.policy slot := by
        simp [leftOf, hplace]
      have hall : leftOf (deed :: deeds) id queue.policy slot = deed.left queue.policy slot := by
        simp [leftOf, hplace]
      rw [hfirst, hall]
      cases hleft : deed.left queue.policy slot with
      | none => rfl
      | some left =>
          -- What is left has the number of the message, to which no other deed is done.
          have hid : left.entry.id = slot.entry.id := by
            cases deed with
            | arrive other payload => contradiction
            | take place => contradiction
            | giveBack place counted => exact (id_of_slotAfter hleft).1
          apply leftOf_of_forall
          rw [hid]
          intro other hmem
          exact h other hmem _ hplace
    · have hfirst : leftOf [deed] id queue.policy slot = some slot := by
        simp [leftOf, hplace]
      have hall : leftOf (deed :: deeds) id queue.policy slot
          = leftOf deeds id queue.policy slot := by
        simp [leftOf, hplace]
      rw [hfirst, hall]
      rfl
  rw [leave, leave, leave, hslots]

end Queue

end Queue

/-! ### One deed -/

namespace Deed

section Perform

variable {store : QueueStore} {deed : Deed}

/-- A deed is a move of those who hold its message. -/
theorem move_perform (deed : Deed) (places : Multiset Place) (store : QueueStore) :
  Custody.Move ⟨↑deed.place?.toList + places, store⟩ ⟨places, deed.perform store⟩
  := by
  cases deed with
  | arrive queue payload =>
      rw [place?, Option.toList_none, Multiset.coe_nil, zero_add]
      exact .enqueue places store queue payload
  | take place =>
      rw [place?, Option.toList_some, Multiset.coe_singleton, Multiset.singleton_add]
      exact .acknowledge places store place
  | giveBack place counted =>
      rw [place?, Option.toList_some, Multiset.coe_singleton, Multiset.singleton_add]
      exact .release places store place counted

theorem listing_perform (sound : store.Sound)
    (held : ∀ place, deed.place? = some place → store.isHeld place = true) :
  (deed.perform store).listing = store.listing
  := by
  cases deed with
  | arrive queue payload => exact QueueStore.listing_enqueue _ _ _
  | take place =>
      obtain ⟨entry, hslot⟩ := QueueStore.isHeld_iff.mp (held place rfl)
      exact (QueueStore.acknowledge_of_held sound hslot).2.2
  | giveBack place counted =>
      obtain ⟨entry, hslot⟩ := QueueStore.isHeld_iff.mp (held place rfl)
      exact (QueueStore.release_of_held sound hslot counted).2.2

/-- What becomes of the queues by a deed. -/
theorem get?_perform (sound : store.Sound)
    (held : ∀ place, deed.place? = some place → store.isHeld place = true) (id : QueueId) :
  (deed.perform store).get? id = (store.get? id).map (Queue.settled [deed] store id)
  := by
  cases deed with
  | arrive queue payload =>
      rw [perform, QueueStore.get?_enqueue]
      congr 1
      funext stored
      have hleave : stored.leave [.arrive queue payload] id = stored :=
        Queue.leave_of_forall (by simp [place?])
      rw [Queue.settled, hleave]
      change _ = stored.arrive [(queue, payload)] id
      rw [Queue.arrive_cons]
      rfl
  | take place =>
      obtain ⟨entry, hslot⟩ := QueueStore.isHeld_iff.mp (held place rfl)
      rw [perform, (QueueStore.acknowledge_of_held sound hslot).2.1]
      congr 1
      funext stored
      change _ = stored.leave [.take place] id
      have hremove : stored.remove place.2
          = { stored with
              slots := stored.slots.filterMap fun slot =>
                if slot.entry.id = place.2 then none else some slot } := by
        rw [Queue.remove, ← List.filterMap_eq_filter]
        congr 2
        funext slot
        by_cases hnumber : slot.entry.id = place.2 <;> simp [Option.guard, hnumber]
      rw [hremove, Queue.leave_one rfl]
      rfl
  | giveBack place counted =>
      obtain ⟨entry, hslot⟩ := QueueStore.isHeld_iff.mp (held place rfl)
      rw [perform, (QueueStore.release_of_held sound hslot counted).2.1]
      congr 1
      funext stored
      have hleave : QueueStore.leaving place counted id stored
          = stored.leave [.giveBack place counted] id := by
        rw [Queue.leave_one rfl]
        rfl
      rw [Queue.settled, hleave, List.filterMap_cons, List.filterMap_nil, arrival?]
      cases store.onward? place counted with
      | none => rfl
      | some arrival =>
          dsimp only
          rw [Queue.arrive_cons]
          rfl

/-! ### Deeds one after another -/

/-- A deed leaves alone where another message goes on to. -/
theorem onward?_perform {others : Multiset Place}
    (custody : store.InCustody (↑deed.place?.toList + others)) {place : Place}
    (hplace : place ∈ others) (counted : Bool) :
  (deed.perform store).onward? place counted = store.onward? place counted
  := by
  have held : ∀ own, deed.place? = some own → store.isHeld own = true := by
    intro own hown
    apply custody.isHeld_of_mem
    simp [hown]
  have hslot : (deed.perform store).slot? place = store.slot? place :=
    (deed.move_perform 0 store).slot?_of_others (by simpa using custody) hplace
  have hget := get?_perform custody.sound held place.1
  rw [QueueStore.slot?, QueueStore.slot?] at hslot
  rw [QueueStore.onward?, QueueStore.onward?]
  cases found : store.get? place.1 with
  | none =>
      rw [hget, found]
      rfl
  | some queue =>
      rw [hget, found, Option.map_some, Option.bind_some, Option.bind_some] at hslot
      have hpolicy : (queue.settled [deed] store place.1).policy = queue.policy :=
        Queue.policy_arrive _ _ _
      rw [hget, found, Option.map_some]
      simp only [Option.bind_eq_bind, Option.bind_some, hslot, hpolicy, QueueStore.alternate?_eq,
        listing_perform custody.sound held]

theorem arrival?_perform {others : Multiset Place}
    (custody : store.InCustody (↑deed.place?.toList + others)) {other : Deed}
    (hother : ∀ place, other.place? = some place → place ∈ others) :
  other.arrival? (deed.perform store) = other.arrival? store
  := by
  cases other with
  | arrive queue payload => rfl
  | take place => rfl
  | giveBack place counted => exact onward?_perform custody (hother place rfl) counted

/-- Deeds one after another are moves of those who hold their messages. -/
theorem moves_performAll (deeds : List Deed) (others : Multiset Place) (store : QueueStore) :
  Custody.Moves ⟨↑(deeds.filterMap place?) + others, store⟩ ⟨others, performAll deeds store⟩
  := by
  induction deeds generalizing store with
  | nil =>
      rw [List.filterMap_nil, Multiset.coe_nil, zero_add]
      exact .refl
  | cons deed deeds ih =>
      have hmove := deed.move_perform (↑(deeds.filterMap place?) + others) store
      rw [← add_assoc, Multiset.coe_add] at hmove
      have hplaces : deed.place?.toList ++ deeds.filterMap place?
          = (deed :: deeds).filterMap place? := by
        rw [List.filterMap_cons]
        cases deed.place? <;> rfl
      rw [hplaces] at hmove
      exact .head hmove (ih _)

/-- What becomes of the queues by deeds that are done to different held messages. -/
theorem get?_performAll {deeds : List Deed} {others : Multiset Place}
    (custody : store.InCustody (↑(deeds.filterMap place?) + others)) (id : QueueId) :
  (performAll deeds store).get? id = (store.get? id).map (Queue.settled deeds store id)
  := by
  induction deeds generalizing store with
  | nil =>
      have hsettled : Queue.settled [] store id = fun queue => queue := by
        funext queue
        exact Queue.leave_of_forall (by simp)
      rw [hsettled]
      exact (congrFun Option.map_id_fun' _).symm
  | cons deed deeds ih =>
      have hsplit : (↑((deed :: deeds).filterMap place?) : Multiset Place)
          = ↑deed.place?.toList + ↑(deeds.filterMap place?) := by
        rw [List.filterMap_cons, Multiset.coe_add]
        cases deed.place? <;> rfl
      rw [hsplit, add_assoc] at custody
      have held : ∀ own, deed.place? = some own → store.isHeld own = true := by
        intro own hown
        apply custody.isHeld_of_mem
        simp [hown]
      have hafter := (deed.move_perform _ store).inCustody custody
      have hmem : ∀ other ∈ deeds, ∀ place, other.place? = some place →
          place ∈ (↑(deeds.filterMap place?) : Multiset Place) + others := by
        intro other hother place hplace
        apply Multiset.mem_add.mpr
        exact .inl (Multiset.mem_coe.mpr (List.mem_filterMap.mpr ⟨other, hother, hplace⟩))
      have harrivals : deeds.filterMap (·.arrival? (deed.perform store))
          = deeds.filterMap (·.arrival? store) := by
        apply List.filterMap_congr
        intro other hother
        exact arrival?_perform custody (hmem other hother)
      have hne : ∀ other ∈ deeds, ∀ place, deed.place? = some place →
          other.place? ≠ some place := by
        intro other hother place hown hplace
        have hnodup := custody.nodup
        rw [hown, Option.toList_some, Multiset.coe_singleton, Multiset.singleton_add,
          Multiset.nodup_cons] at hnodup
        exact hnodup.1 (hmem other hother place hplace)
      rw [performAll, List.foldl_cons, ← performAll, ih hafter, get?_perform custody.sound held,
        Option.map_map]
      cases found : store.get? id with
      | none => rfl
      | some queue =>
          have hgiven : ∀ other ∈ deeds, ∀ number, other.place? = some (id, number) →
              number < (queue.leave [deed] id).nextId := by
            intro other hother number hplace
            have hheld := custody.isHeld_of_mem
              (Multiset.mem_add.mpr (.inr (hmem other hother _ hplace)))
            obtain ⟨entry, hslot⟩ := QueueStore.isHeld_iff.mp hheld
            rw [QueueStore.slot?, found, Option.bind_some] at hslot
            have hnumber : entry.id = number := Queue.id_of_slot? hslot
            rw [← hnumber]
            exact (custody.sound id queue found).given _ (Queue.mem_of_slot? hslot)
          rw [Option.map_some, Option.map_some, Function.comp_apply, Queue.settled, harrivals,
            Queue.settled, Queue.leave_arrive _ hgiven, Queue.leave_leave hne,
            ← Queue.arrive_append, Queue.settled, ← List.filterMap_append, List.singleton_append]

end Perform

end Deed

end MessageBroker
