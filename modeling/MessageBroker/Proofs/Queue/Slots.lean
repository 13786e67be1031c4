import Mathlib.Data.List.Nodup
import MessageBroker.Queue.Basic

/-!
# Slots of a queue

A queue is sound if its slots are in the order of their numbers and none of the numbers is still
to be given out.  In a sound queue a number has at most one slot, and every operation is known by
what it does to the slot of each number.
-/

namespace MessageBroker.Queue

/-- The slot of the message with a given number. -/
def slot? (queue : Queue) (id : Nat) : Option Slot :=
  queue.slots.find? fun slot => slot.entry.id = id

/-- The slots are in the order of their numbers, which have all been given out. -/
structure Sound (queue : Queue) : Prop where
  /-- The numbers ascend. -/
  ascending : (queue.slots.map (·.entry.id)).Pairwise (· < ·)
  /-- The numbers have been given out. -/
  given : ∀ slot ∈ queue.slots, slot.entry.id < queue.nextId

theorem Sound.empty (name : String) (policy : RedeliveryPolicy) :
  (Queue.empty name policy).Sound
  := ⟨List.Pairwise.nil, by simp [Queue.empty]⟩

/-! ### Slots and their numbers -/

theorem mem_of_slot? {queue : Queue} {id : Nat} {slot : Slot} (h : queue.slot? id = some slot) :
  slot ∈ queue.slots
  := List.mem_of_find?_eq_some h

theorem id_of_slot? {queue : Queue} {id : Nat} {slot : Slot} (h : queue.slot? id = some slot) :
  slot.entry.id = id
  := by
  have hid := List.find?_some h
  simpa using hid

theorem slot?_eq_none_iff {queue : Queue} {id : Nat} :
  queue.slot? id = none ↔ ∀ slot ∈ queue.slots, slot.entry.id ≠ id
  := by
  simp [slot?]

namespace Sound

variable {queue : Queue}

/-- A slot is the slot of its number. -/
theorem slot?_of_mem (sound : queue.Sound) {slot : Slot} (h : slot ∈ queue.slots) :
  queue.slot? slot.entry.id = some slot
  := by
  obtain ⟨found, hfound⟩ : ∃ found, queue.slot? slot.entry.id = some found := by
    apply Option.ne_none_iff_exists'.mp
    intro hnone
    exact slot?_eq_none_iff.mp hnone slot h rfl
  have hnodup : (queue.slots.map (·.entry.id)).Nodup :=
    sound.ascending.imp fun hlt => Nat.ne_of_lt hlt
  rw [hfound, List.inj_on_of_nodup_map hnodup (mem_of_slot? hfound) h (id_of_slot? hfound)]

theorem slot?_eq_some_iff (sound : queue.Sound) {id : Nat} {slot : Slot} :
  queue.slot? id = some slot ↔ slot ∈ queue.slots ∧ slot.entry.id = id
  := by
  constructor
  · intro h
    exact ⟨mem_of_slot? h, id_of_slot? h⟩
  · rintro ⟨hmem, rfl⟩
    exact sound.slot?_of_mem hmem

/-- The next number has no slot. -/
theorem slot?_nextId (sound : queue.Sound) :
  queue.slot? queue.nextId = none
  := by
  apply slot?_eq_none_iff.mpr
  intro slot hslot
  exact Nat.ne_of_lt (sound.given slot hslot)

end Sound

/-! ### What operations do to slots -/

/-- Changing the slot of one number changes no other. -/
theorem find?_map_at (slots : List Slot) (change : Slot → Slot)
    (keeps : ∀ slot, (change slot).entry.id = slot.entry.id) (id other : Nat) :
  (slots.map fun slot => if slot.entry.id = id then change slot else slot).find?
      (fun slot => slot.entry.id = other)
    = if other = id then (slots.find? fun slot => slot.entry.id = other).map change
      else slots.find? fun slot => slot.entry.id = other
  := by
  induction slots with
  | nil => simp
  | cons slot slots ih =>
      rw [List.map_cons, List.find?_cons, List.find?_cons, ih]
      by_cases hid : slot.entry.id = id
      · by_cases hother : slot.entry.id = other
        · have heq : other = id := by rw [← hother, hid]
          simp [hid, keeps, heq]
        · have hne : other ≠ id := by
            rw [← hid]
            exact Ne.symm hother
          simp [hid, keeps, hne, Ne.symm hne]
      · by_cases hother : slot.entry.id = other
        · have hne : other ≠ id := by rwa [← hother]
          simp [hother, hne]
        · simp [hid, hother]

theorem slot?_setHeld (queue : Queue) (id : Nat) (held : Bool) (other : Nat) :
  (queue.setHeld id held).slot? other
    = if other = id then (queue.slot? other).map fun slot => { slot with held }
      else queue.slot? other
  := find?_map_at queue.slots (fun slot => { slot with held }) (fun _ => rfl) id other

theorem slot?_remove (queue : Queue) (id other : Nat) :
  (queue.remove id).slot? other = if other = id then none else queue.slot? other
  := by
  rw [slot?, remove, List.find?_filter]
  by_cases h : other = id
  · subst h
    simp
  · rw [if_neg h, slot?]
    congr 1
    funext slot
    by_cases hother : slot.entry.id = other
    · simp [hother, h]
    · simp [hother]

theorem slot?_enqueue {queue : Queue} (sound : queue.Sound) (payload : Bytes) (other : Nat) :
  (queue.enqueue payload).slot? other
    = if other = queue.nextId then some ⟨⟨queue.nextId, payload, 0⟩, false⟩
      else queue.slot? other
  := by
  rw [slot?, enqueue, List.find?_append]
  change (queue.slot? other).or _ = _
  by_cases h : other = queue.nextId
  · subst h
    simp [sound.slot?_nextId]
  · simp [h, Ne.symm h]

/-! ### Operations keep queues sound -/

namespace Sound

variable {queue : Queue}

/-- Changing slots, but not their numbers, keeps a queue sound. -/
theorem map (sound : queue.Sound) (change : Slot → Slot)
    (keeps : ∀ slot, (change slot).entry.id = slot.entry.id) :
  Sound { queue with slots := queue.slots.map change }
  := by
  constructor
  · have hids : (queue.slots.map change).map (·.entry.id) = queue.slots.map (·.entry.id) := by
      simp [keeps]
    rw [hids]
    exact sound.ascending
  · intro slot hslot
    obtain ⟨old, hold, rfl⟩ := List.mem_map.mp hslot
    rw [keeps]
    exact sound.given old hold

theorem setHeld (sound : queue.Sound) (id : Nat) (held : Bool) :
  (queue.setHeld id held).Sound
  := by
  apply sound.map
  intro slot
  split <;> rfl

theorem remove (sound : queue.Sound) (id : Nat) :
  (queue.remove id).Sound
  := by
  constructor
  · exact sound.ascending.sublist (List.Sublist.map _ List.filter_sublist)
  · intro slot hslot
    exact sound.given slot (List.mem_of_mem_filter hslot)

theorem enqueue (sound : queue.Sound) (payload : Bytes) :
  (queue.enqueue payload).Sound
  := by
  constructor
  · simp only [Queue.enqueue, List.map_append, List.map_cons, List.map_nil]
    apply List.pairwise_append.mpr
    refine ⟨sound.ascending, List.pairwise_singleton _ _, ?_⟩
    intro id hid next hnext
    obtain ⟨slot, hslot, rfl⟩ := List.mem_map.mp hid
    rw [List.mem_singleton.mp hnext]
    exact sound.given slot hslot
  · intro slot hslot
    obtain hslot | hslot := List.mem_append.mp hslot
    · exact Nat.lt_succ_of_lt (sound.given slot hslot)
    · rw [List.mem_singleton.mp hslot]
      exact Nat.lt_succ_self _

end Sound

/-! ### Finding messages -/

theorem slot?_of_held? {queue : Queue} (sound : queue.Sound) {id : Nat} {entry : QueueEntry}
    (h : queue.held? id = some entry) :
  queue.slot? id = some ⟨entry, true⟩
  := by
  have hid : entry.id = id := by simpa using List.find?_some h
  obtain ⟨slot, hslot, rfl⟩ := List.mem_map.mp (List.mem_of_find?_eq_some h)
  obtain ⟨hslot, hheld⟩ := List.mem_filter.mp hslot
  rw [← hid, sound.slot?_of_mem hslot]
  cases slot
  simp_all

/-- A message that consumers hold is found by the slot of its number. -/
theorem held?_eq_some_iff {queue : Queue} (sound : queue.Sound) {id : Nat} {entry : QueueEntry} :
  queue.held? id = some entry ↔ queue.slot? id = some ⟨entry, true⟩
  := by
  constructor
  · apply slot?_of_held? sound
  · intro h
    have hid : entry.id = id := id_of_slot? h
    have hmem : entry ∈ queue.heldEntries := by
      apply List.mem_map.mpr
      exact ⟨⟨entry, true⟩, List.mem_filter.mpr ⟨mem_of_slot? h, rfl⟩, rfl⟩
    obtain ⟨found, hfound⟩ : ∃ found, queue.held? id = some found := by
      apply Option.ne_none_iff_exists'.mp
      intro hnone
      have hne := List.find?_eq_none.mp hnone entry hmem
      simp [hid] at hne
    have hslot := slot?_of_held? sound hfound
    rw [h] at hslot
    simp only [Option.some.injEq, Slot.mk.injEq, and_true] at hslot
    rw [hfound, hslot]

/-- The message that is handed to a consumer was available, and is held afterwards. -/
theorem acquire_eq_some {queue queue' : Queue} {entry : QueueEntry} (sound : queue.Sound)
    (h : queue.acquire = some (entry, queue')) :
  queue.slot? entry.id = some ⟨entry, false⟩ ∧ queue' = queue.setHeld entry.id true
  := by
  rw [acquire] at h
  split at h
  · contradiction
  · next first others hbrowse =>
      simp only [Option.some.injEq, Prod.mk.injEq] at h
      obtain ⟨rfl, rfl⟩ := h
      refine ⟨?_, rfl⟩
      have hmem : first ∈ queue.browse := by simp [hbrowse]
      obtain ⟨slot, hslot, rfl⟩ := List.mem_map.mp hmem
      obtain ⟨hslot, havailable⟩ := List.mem_filter.mp hslot
      rw [sound.slot?_of_mem hslot]
      cases slot
      simp_all

/-! ### Taking messages back -/

/-- How many attempts to deliver a message have failed once it is given back. -/
def attemptsAfter (entry : QueueEntry) (counted : Bool) : Nat :=
  if counted then entry.attempts + 1 else entry.attempts

/-- What is left of the slot of a message that is given back: its slot again, if it has further
attempts, and otherwise nothing. -/
def slotAfter (policy : RedeliveryPolicy) (entry : QueueEntry) (counted : Bool) : Option Slot :=
  match policy.decide (attemptsAfter entry counted) with
  | .requeue => some ⟨{ entry with attempts := attemptsAfter entry counted }, false⟩
  | _ => none

/-- The queue after the message with a given number was given back. -/
def takeBack (queue : Queue) (id : Nat) (counted : Bool) : Queue :=
  { queue with
    slots := queue.slots.filterMap fun slot =>
      if slot.entry.id = id then slotAfter queue.policy slot.entry counted else some slot }

theorem id_of_slotAfter {policy : RedeliveryPolicy} {entry : QueueEntry} {counted : Bool}
    {slot : Slot} (h : slotAfter policy entry counted = some slot) :
  slot.entry.id = entry.id ∧ slot.held = false
  := by
  rw [slotAfter] at h
  split at h
  · rw [← Option.some.inj h]
    exact ⟨rfl, rfl⟩
  · contradiction

theorem Sound.takeBack {queue : Queue} (sound : queue.Sound) (id : Nat) (counted : Bool) :
  (queue.takeBack id counted).Sound
  := by
  have hids : ∀ slot left : Slot,
      (if slot.entry.id = id then slotAfter queue.policy slot.entry counted else some slot)
        = some left → left.entry.id = slot.entry.id := by
    intro slot left h
    split at h
    · exact (id_of_slotAfter h).1
    · rw [← Option.some.inj h]
  constructor
  · simp only [Queue.takeBack]
    rw [List.pairwise_map, List.pairwise_filterMap]
    apply List.Pairwise.imp _ (List.pairwise_map.mp sound.ascending)
    intro a b hlt a' ha' b' hb'
    rw [hids a a' ha', hids b b' hb']
    exact hlt
  · intro left hleft
    obtain ⟨slot, hslot, h⟩ := List.mem_filterMap.mp hleft
    rw [hids slot left h]
    exact sound.given slot hslot

theorem slot?_takeBack {queue : Queue} (sound : queue.Sound) {id : Nat} {slot : Slot}
    (h : queue.slot? id = some slot) (counted : Bool) (other : Nat) :
  (queue.takeBack id counted).slot? other
    = if other = id then slotAfter queue.policy slot.entry counted else queue.slot? other
  := by
  ext left
  rw [(sound.takeBack id counted).slot?_eq_some_iff]
  have hmem : left ∈ (queue.takeBack id counted).slots ↔
      ∃ s ∈ queue.slots,
        (if s.entry.id = id then slotAfter queue.policy s.entry counted else some s)
          = some left := List.mem_filterMap
  rw [hmem]
  obtain ⟨hslot, hid⟩ := sound.slot?_eq_some_iff.mp h
  constructor
  · rintro ⟨⟨s, hs, hleft⟩, rfl⟩
    split at hleft
    · next hsid =>
        obtain rfl : slot = s := by
          apply Option.some.inj
          rw [← h, ← hsid, sound.slot?_of_mem hs]
        rw [if_pos ((id_of_slotAfter hleft).1.trans hid)]
        exact hleft
    · next hsid =>
        obtain rfl : s = left := Option.some.inj hleft
        rw [if_neg hsid]
        exact sound.slot?_of_mem hs
  · intro hleft
    split at hleft
    · next heq =>
        rw [heq]
        refine ⟨⟨slot, hslot, ?_⟩, (id_of_slotAfter hleft).1.trans hid⟩
        rw [if_pos hid]
        exact hleft
    · next hne =>
        obtain ⟨hs, rfl⟩ := sound.slot?_eq_some_iff.mp hleft
        refine ⟨⟨left, hs, ?_⟩, rfl⟩
        rw [if_neg hne]

/-- A held message is acknowledged, and its slot is gone. -/
theorem acknowledge_of_held {queue : Queue} (sound : queue.Sound) {id : Nat} {entry : QueueEntry}
    (h : queue.slot? id = some ⟨entry, true⟩) :
  queue.acknowledge id = some (queue.remove id)
  := by
  rw [acknowledge, (held?_eq_some_iff sound).mpr h]
  rfl

/-- A message with further attempts takes its place again. -/
theorem setHeld_eq_takeBack {queue : Queue} {id : Nat} {entry : QueueEntry}
    (only : ∀ slot ∈ queue.slots, slot.entry.id = id → slot.entry = entry) {counted : Bool}
    (h : queue.policy.decide (attemptsAfter entry counted) = .requeue) :
  (if counted then queue.countAttempt id else queue).setHeld id false = queue.takeBack id counted
  := by
  have hslots : ((if counted then queue.countAttempt id else queue).setHeld id false).slots
      = queue.slots.map fun slot =>
          if slot.entry.id = id then
            ⟨{ slot.entry with attempts := attemptsAfter slot.entry counted }, false⟩
          else slot := by
    cases counted with
    | false => rfl
    | true =>
        simp only [if_true, setHeld, countAttempt, List.map_map]
        apply List.map_congr_left
        intro slot _
        by_cases hid : slot.entry.id = id
        · simp [hid, attemptsAfter]
        · simp [hid]
  have hleft : ((if counted then queue.countAttempt id else queue).setHeld id false).slots
      = (queue.takeBack id counted).slots := by
    rw [hslots, takeBack, ← List.filterMap_eq_map]
    apply List.filterMap_congr
    intro slot hslot
    by_cases hid : slot.entry.id = id
    · rw [Function.comp_apply, if_pos hid, if_pos hid, slotAfter, only slot hslot hid, h]
    · simp only [Function.comp_apply, if_neg hid]
  have heq := congrArg (fun slots => { queue with slots }) hleft
  cases counted <;> exact heq

/-- A message without further attempts is taken out. -/
theorem remove_eq_takeBack {queue : Queue} {id : Nat} {entry : QueueEntry}
    (only : ∀ slot ∈ queue.slots, slot.entry.id = id → slot.entry = entry) {counted : Bool}
    (h : queue.policy.decide (attemptsAfter entry counted) ≠ .requeue) :
  (if counted then queue.countAttempt id else queue).remove id = queue.takeBack id counted
  := by
  have hslots : ((if counted then queue.countAttempt id else queue).remove id).slots
      = queue.slots.filter fun slot => slot.entry.id ≠ id := by
    cases counted with
    | false => rfl
    | true =>
        simp only [if_true, remove, countAttempt]
        induction queue.slots with
        | nil => rfl
        | cons slot slots ih =>
            by_cases hid : slot.entry.id = id
            · simpa [hid] using ih
            · simpa [hid] using ih
  have hleft : ((if counted then queue.countAttempt id else queue).remove id).slots
      = (queue.takeBack id counted).slots := by
    rw [hslots, takeBack, ← List.filterMap_eq_filter]
    apply List.filterMap_congr
    intro slot hslot
    by_cases hid : slot.entry.id = id
    · have hnone : slotAfter queue.policy slot.entry counted = none := by
        rw [slotAfter, only slot hslot hid]
        split
        · contradiction
        · rfl
      simp [Option.guard, hid, hnone]
    · simp [Option.guard, hid]
  have heq := congrArg (fun slots => { queue with slots }) hleft
  cases counted <;> exact heq

/-- A held message that is given back leaves its slot, or none, behind. -/
theorem giveBack_of_held {queue : Queue} (sound : queue.Sound) {id : Nat} {entry : QueueEntry}
    (h : queue.slot? id = some ⟨entry, true⟩) (counted : Bool) :
  queue.giveBack id counted
    = some ({ entry with attempts := attemptsAfter entry counted },
        queue.policy.decide (attemptsAfter entry counted), queue.takeBack id counted)
  := by
  have honly : ∀ slot ∈ queue.slots, slot.entry.id = id → slot.entry = entry := by
    intro slot hslot hid
    have hfound := sound.slot?_of_mem hslot
    rw [hid, h] at hfound
    rw [← Option.some.inj hfound]
  have hgive : queue.giveBack id counted
      = some ({ entry with attempts := attemptsAfter entry counted },
          queue.policy.decide (attemptsAfter entry counted),
          match queue.policy.decide (attemptsAfter entry counted) with
          | .requeue => (if counted then queue.countAttempt id else queue).setHeld id false
          | _ => (if counted then queue.countAttempt id else queue).remove id) := by
    rw [giveBack, (held?_eq_some_iff sound).mpr h]
    rfl
  rw [hgive]
  split
  · next hdecide => rw [setHeld_eq_takeBack honly hdecide, hdecide]
  · next hdecide => rw [remove_eq_takeBack honly hdecide]

end MessageBroker.Queue
