import MessageBroker.Octets
import MessageBroker.Queue.Policy

/-!
# Queues

A queue keeps messages in the order of their arrival.  Every message has a slot, in which it
stays while a consumer holds it; giving it back makes it available again where it was.  The slots
are in the order of their numbers, which are never given out twice.
-/

namespace MessageBroker

/-- A message in a queue. -/
structure QueueEntry where
  /-- The number of the message in its queue, in the order of arrival. -/
  id : Nat
  /-- The message. -/
  payload : Bytes
  /-- How many attempts to deliver it have failed. -/
  attempts : Nat
  deriving DecidableEq, Repr

/-- The place of a message in a queue. -/
structure Slot where
  /-- The message. -/
  entry : QueueEntry
  /-- Whether a consumer holds the message. -/
  held : Bool
  deriving DecidableEq, Repr

/-- A queue of messages. -/
structure Queue where
  /-- The name. -/
  name : String
  /-- What becomes of messages that are given back. -/
  policy : RedeliveryPolicy
  /-- The messages, in the order of their arrival. -/
  slots : List Slot
  /-- The number of the next message. -/
  nextId : Nat
  deriving DecidableEq, Repr

namespace Queue

/-- A queue without messages. -/
def empty (name : String) (policy : RedeliveryPolicy) : Queue :=
  ⟨name, policy, [], 0⟩

/-! ### Views -/

/-- The messages that no consumer holds, in order. -/
def browse (queue : Queue) : List QueueEntry :=
  (queue.slots.filter fun slot => !slot.held).map (·.entry)

/-- The messages that consumers hold, in order. -/
def heldEntries (queue : Queue) : List QueueEntry :=
  (queue.slots.filter (·.held)).map (·.entry)

/-- The first message that no consumer holds, of those after the one with number `after`. -/
def browseNext (queue : Queue) (after : Option Nat) : Option QueueEntry :=
  queue.browse.find? fun entry => after.all (· < entry.id)

/-- The number of messages. -/
def depth (queue : Queue) : Nat :=
  queue.slots.length

/-- The number of messages that no consumer holds. -/
def available (queue : Queue) : Nat :=
  queue.browse.length

/-- How many attempts to deliver a message have failed. -/
def attempts? (queue : Queue) (id : Nat) : Option Nat :=
  (queue.slots.find? fun slot => slot.entry.id = id).map (·.entry.attempts)

/-- The message with a given number, if a consumer holds it. -/
def held? (queue : Queue) (id : Nat) : Option QueueEntry :=
  queue.heldEntries.find? fun entry => entry.id = id

/-! ### Operations -/

/-- Puts a message at the end. -/
def enqueue (queue : Queue) (payload : Bytes) : Queue :=
  { queue with
    slots := queue.slots ++ [⟨⟨queue.nextId, payload, 0⟩, false⟩]
    nextId := queue.nextId + 1 }

/-- Makes the message with a given number held, or no longer held. -/
def setHeld (queue : Queue) (id : Nat) (held : Bool) : Queue :=
  { queue with
    slots := queue.slots.map fun slot => if slot.entry.id = id then { slot with held } else slot }

/-- Takes the message with a given number out of the queue. -/
def remove (queue : Queue) (id : Nat) : Queue :=
  { queue with slots := queue.slots.filter fun slot => slot.entry.id ≠ id }

/-- Counts a failed attempt to deliver the message with a given number. -/
def countAttempt (queue : Queue) (id : Nat) : Queue :=
  { queue with
    slots := queue.slots.map fun slot =>
      if slot.entry.id = id then
        { slot with entry := { slot.entry with attempts := slot.entry.attempts + 1 } }
      else slot }

/-- Hands the first message that no consumer holds to a consumer. -/
def acquire (queue : Queue) : Option (QueueEntry × Queue) :=
  match queue.browse with
  | [] => none
  | entry :: _ => some (entry, queue.setHeld entry.id true)

/-- Takes a message that a consumer holds out of the queue; none if no consumer holds it. -/
def acknowledge (queue : Queue) (id : Nat) : Option Queue :=
  (queue.held? id).map fun _ => queue.remove id

/-- Takes a message back from its consumer, counting a failed attempt or not: the message as it
is now, what is to become of it, and the queue with it gone or in its place again.  None if no
consumer holds the message. -/
def giveBack (queue : Queue) (id : Nat) (counted : Bool) :
    Option (QueueEntry × RedeliveryDecision × Queue) :=
  (queue.held? id).map fun entry =>
    let attempts := if counted then entry.attempts + 1 else entry.attempts
    let decision := queue.policy.decide attempts
    let queue := if counted then queue.countAttempt id else queue
    ({ entry with attempts }, decision,
      match decision with
      | .requeue => queue.setHeld id false
      | _ => queue.remove id)

end Queue

end MessageBroker
