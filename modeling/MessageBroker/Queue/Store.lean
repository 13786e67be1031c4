import MessageBroker.Fault.Scope
import MessageBroker.Queue.Basic

/-!
# Stores of queues

The queues of a broker, which all its sessions share.  A queue is referred to by a number that
stays its own, and found by its name if it is listed.  A message without further attempts goes
from a listed queue to its alternate, if that is listed.  `activity` counts how often a message
became available in a listed queue.
-/

namespace MessageBroker

/-- The number of a queue in its store. -/
abbrev QueueId := Nat

/-- A queue and its standing in the store. -/
structure StoredQueue where
  /-- The queue. -/
  queue : Queue
  /-- Whether the queue is found by its name. -/
  listed : Bool
  deriving DecidableEq, Repr

/-- The queues of a broker. -/
structure QueueStore where
  /-- The queues; the number of a queue is its place. -/
  queues : List StoredQueue
  /-- How often a message became available in a listed queue. -/
  activity : Nat
  deriving DecidableEq, Repr

/-- What became of a message that was given back. -/
inductive ReleaseOutcome where
  /-- It took its place again. -/
  | requeued
  /-- It went to another queue. -/
  | deadLettered (destination : String)
  /-- It was dropped. -/
  | discarded
  deriving DecidableEq, Repr

namespace QueueStore

/-- A store without queues. -/
def empty : QueueStore :=
  ⟨[], 0⟩

/-! ### Finding queues -/

/-- The listed queue with a name. -/
def find? (store : QueueStore) (name : String) : Option QueueId :=
  store.queues.findIdx? fun stored => stored.listed && stored.queue.name = name

/-- The queue with a number. -/
def get? (store : QueueStore) (id : QueueId) : Option Queue :=
  store.queues[id]?.map (·.queue)

/-- The names of the listed queues, in alphabetical order. -/
def names (store : QueueStore) : List String :=
  ((store.queues.filter (·.listed)).map (·.queue.name)).mergeSort fun a b => !(b < a)

/-! ### Adding queues -/

/-- A store with one more queue. -/
def add (store : QueueStore) (name : String) (policy : RedeliveryPolicy) (listed : Bool) :
    QueueStore :=
  { store with queues := store.queues ++ [⟨.empty name policy, listed⟩] }

/-- A store with one more listed queue; the name has to be free. -/
def create (store : QueueStore) (name : String) (policy : RedeliveryPolicy) :
    Except ConfigError QueueStore :=
  match store.find? name with
  | some _ => .error (.queueExists name)
  | none => .ok (store.add name policy true)

/-! ### Operations on one queue -/

/-- A store with a queue replaced. -/
def set (store : QueueStore) (id : QueueId) (queue : Queue) : QueueStore :=
  { store with queues := store.queues.modify id ({ · with queue }) }

/-- Notes that a message became available in a queue. -/
def notify (store : QueueStore) (id : QueueId) : QueueStore :=
  match store.queues[id]? with
  | some ⟨_, true⟩ => { store with activity := store.activity + 1 }
  | _ => store

/-- Puts a message at the end of a queue; gives its number. -/
def enqueue (store : QueueStore) (id : QueueId) (payload : Bytes) : Option Nat × QueueStore :=
  match store.get? id with
  | some queue => (some queue.nextId, (store.set id (queue.enqueue payload)).notify id)
  | none => (none, store)

/-- Hands the first available message of a queue to a consumer. -/
def acquire (store : QueueStore) (id : QueueId) : Option QueueEntry × QueueStore :=
  match (store.get? id).bind Queue.acquire with
  | some (entry, queue) => (some entry, store.set id queue)
  | none => (none, store)

/-- Takes a held message out of a queue; tells whether it was held. -/
def acknowledge (store : QueueStore) (id : QueueId) (entry : Nat) : Bool × QueueStore :=
  match (store.get? id).bind (·.acknowledge entry) with
  | some queue => (true, store.set id queue)
  | none => (false, store)

/-- The listed queue with a name, if the queue with a number is listed itself. -/
def alternate? (store : QueueStore) (id : QueueId) (destination : String) : Option QueueId :=
  match store.queues[id]? with
  | some ⟨_, true⟩ => store.find? destination
  | _ => none

/-- Takes a held message back, counting a failed attempt or not; tells what became of it, or
nothing if it was not held. -/
def release (store : QueueStore) (id : QueueId) (entry : Nat) (counted : Bool) :
    Option ReleaseOutcome × QueueStore :=
  match (store.get? id).bind (·.giveBack entry counted) with
  | none => (none, store)
  | some (entry, decision, queue) =>
    let store := store.set id queue
    match decision with
    | .requeue => (some .requeued, store.notify id)
    | .discard => (some .discarded, store)
    | .deadLetter destination =>
      match store.alternate? id destination with
      | some alternate =>
        (some (.deadLettered destination), (store.enqueue alternate entry.payload).2)
      | none => (some .discarded, store)

/-! ### Looking at one queue -/

/-- The first available message of a queue, of those after the one with number `after`. -/
def browseNext (store : QueueStore) (id : QueueId) (after : Option Nat) : Option QueueEntry :=
  (store.get? id).bind (·.browseNext after)

/-- The number of available messages of a queue. -/
def available (store : QueueStore) (id : QueueId) : Nat :=
  ((store.get? id).map Queue.available).getD 0

end QueueStore

end MessageBroker
