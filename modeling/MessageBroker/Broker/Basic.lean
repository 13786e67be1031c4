import MessageBroker.Config.Basic
import MessageBroker.Connection.Feeding

/-!
# Brokers

A broker holds queues and serves any number of clients, each by a connection of its own.  When a
message becomes available in a queue, the connections that have not seen this yet are woken to
send what waits for them.
-/

namespace MessageBroker

/-- A client of a broker. -/
structure Client where
  /-- The connection. -/
  connection : Connection
  /-- The activity of the queues when the connection was woken last. -/
  seen : Nat

/-- A broker. -/
structure Broker where
  /-- What the broker is told about itself. -/
  config : BrokerConfig
  /-- The queues. -/
  store : QueueStore
  /-- The clients, by number. -/
  clients : Table Nat Client

namespace Broker

/-! ### Beginning -/

/-- A store with queues added, in order. -/
def createQueues (store : QueueStore) : List QueueConfig → Except ConfigError QueueStore
  | [] => .ok store
  | queue :: queues => do
    createQueues (← store.create queue.name queue.policy) queues

/-- The broker that a configuration describes, if it is sound. -/
def build (config : BrokerConfig) : Except ConfigError Broker := do
  config.validate
  return ⟨config, ← createQueues .empty config.queues, []⟩

/-! ### Clients -/

/-- The client with a number; a new one has seen all activity so far. -/
def client (broker : Broker) (number : Nat) : Client :=
  (broker.clients.get? number).getD ⟨.start broker.config, broker.store.activity⟩

/-- Does something on the connection of a client, which is new if there was none. -/
def onClient {α : Type} (broker : Broker) (number : Nat) (step : Hosting → α × Hosting) :
    α × Broker :=
  let client := broker.client number
  let (result, h) := step ⟨client.connection, broker.store⟩
  (result, { broker with
    store := h.store
    clients := broker.clients.put number { client with connection := h.connection } })

/-- Does something on the connection of a client that has no result. -/
def doClient (broker : Broker) (number : Nat) (step : Hosting → Hosting) : Broker :=
  (broker.onClient number fun h => ((), step h)).2

/-- A client has sent octets; nothing arrives if there are none. -/
def feed (broker : Broker) (number : Nat) (octets : Bytes) : Broker :=
  broker.doClient number fun h => if octets.isEmpty then h else h.feed octets

/-- A client has sent octets that arrive in pieces of a size. -/
def feedPieces (broker : Broker) (number size : Nat) (octets : Bytes) : Broker :=
  broker.doClient number fun h =>
    if octets.isEmpty then h else (slices size octets).foldl (fun h piece => h.feed piece) h

/-- Sends what waits in the queues to a client. -/
def pump (broker : Broker) (number : Nat) : Broker :=
  broker.doClient number Hosting.pump

/-- Takes back what a client has not settled on the session of a channel. -/
def recover (broker : Broker) (number : Nat) (channel : UInt16) :
    Option (List ReleaseOutcome) × Broker :=
  broker.onClient number (·.recover channel)

/-- A client is gone. -/
def shutdown (broker : Broker) (number : Nat) : Broker :=
  broker.doClient number Hosting.shutdown

/-- Forgets a client, which is gone. -/
def drop (broker : Broker) (number : Nat) : Broker :=
  if broker.clients.has number then
    let broker := broker.shutdown number
    { broker with clients := broker.clients.erase number }
  else broker

/-- Forgets every client. -/
def dropAll (broker : Broker) : Broker :=
  broker.clients.keys.foldl drop broker

/-- Takes the octets that are to be sent to a client. -/
def takeOutput (broker : Broker) (number : Nat) : Bytes × Broker :=
  broker.onClient number fun h =>
    let (output, connection) := h.connection.takeOutput
    (output.flatMap Emission.octets, { h with connection })

/-! ### Waking -/

/-- Wakes a client if there was activity that it has not seen. -/
def wake (broker : Broker) (number : Nat) : Broker :=
  match broker.clients.get? number with
  | none => broker
  | some client =>
    if client.connection.isClosed || client.seen = broker.store.activity then broker
    else
      { broker with
        clients := broker.clients.put number { client with seen := broker.store.activity }
      }.pump number

/-- Wakes every client, in the order of their numbers. -/
def wakeAll (broker : Broker) : Broker :=
  broker.clients.keys.foldl wake broker

end Broker

end MessageBroker
