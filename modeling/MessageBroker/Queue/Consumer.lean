import MessageBroker.Queue.Store

/-!
# Consumers and browsers

A consumer takes messages from a queue and holds them until it acknowledges them or gives them
back.  A browser looks at the available messages of a queue one after another and takes none.
-/

namespace MessageBroker

/-! ### Consumers -/

/-- A consumer of a queue. -/
structure Consumer where
  /-- The queue. -/
  queue : QueueId
  /-- The numbers of the messages that it holds, in the order it got them. -/
  unacked : List Nat
  deriving DecidableEq, Repr

namespace Consumer

/-- A consumer that holds nothing. -/
def new (queue : QueueId) : Consumer :=
  ⟨queue, []⟩

/-- Takes the next message. -/
def receive (consumer : Consumer) (store : QueueStore) :
    Option QueueEntry × Consumer × QueueStore :=
  match store.acquire consumer.queue with
  | (some entry, store) =>
    (some entry, { consumer with unacked := consumer.unacked ++ [entry.id] }, store)
  | (none, store) => (none, consumer, store)

/-- Acknowledges a message; tells whether the consumer held it. -/
def acknowledge (consumer : Consumer) (store : QueueStore) (id : Nat) :
    Bool × Consumer × QueueStore :=
  if id ∈ consumer.unacked then
    let (done, store) := store.acknowledge consumer.queue id
    (done, { consumer with unacked := consumer.unacked.erase id }, store)
  else (false, consumer, store)

/-- Acknowledges every message. -/
def acknowledgeAll (consumer : Consumer) (store : QueueStore) : Consumer × QueueStore :=
  ({ consumer with unacked := [] },
    consumer.unacked.foldl (fun store id => (store.acknowledge consumer.queue id).2) store)

/-- Gives back the messages of a list, counting a failed attempt for each or not; tells what
became of each. -/
def releaseAll (queue : QueueId) (counted : Bool) :
    List Nat → QueueStore → List ReleaseOutcome × QueueStore
  | [], store => ([], store)
  | id :: others, store =>
    let (outcome, store) := store.release queue id counted
    let (outcomes, store) := releaseAll queue counted others store
    (outcome.toList ++ outcomes, store)

/-- Gives back every message, counting a failed attempt for each; tells what became of each. -/
def recover (consumer : Consumer) (store : QueueStore) :
    List ReleaseOutcome × Consumer × QueueStore :=
  let (outcomes, store) := releaseAll consumer.queue true consumer.unacked store
  (outcomes, { consumer with unacked := [] }, store)

/-- Gives back every message without counting an attempt. -/
def close (consumer : Consumer) (store : QueueStore) : QueueStore :=
  (releaseAll consumer.queue false consumer.unacked store).2

end Consumer

/-! ### Browsers -/

/-- A browser of a queue. -/
structure Browser where
  /-- The queue. -/
  queue : QueueId
  /-- The number of the message it looked at last. -/
  cursor : Option Nat
  deriving DecidableEq, Repr

namespace Browser

/-- A browser at the front of a queue. -/
def new (queue : QueueId) : Browser :=
  ⟨queue, none⟩

/-- Looks at the next message. -/
def next (browser : Browser) (store : QueueStore) : Option QueueEntry × Browser :=
  match store.browseNext browser.queue browser.cursor with
  | some entry => (some entry, { browser with cursor := some entry.id })
  | none => (none, browser)

/-- Whether there is a next message. -/
def hasNext (browser : Browser) (store : QueueStore) : Bool :=
  (store.browseNext browser.queue browser.cursor).isSome

/-- Goes back to the front of the queue. -/
def rewind (browser : Browser) : Browser :=
  { browser with cursor := none }

end Browser

end MessageBroker
