import MessageBroker.Fault.Scope
import MessageBroker.Frame.Header
import MessageBroker.Queue.Policy

/-!
# Configurations

What a broker is told about itself before it begins: its name, the limits that it sets to its
peers, and its queues.  A configuration is sound if the limits let messages through, the names of
the queues differ, and every alternate is one of the queues.
-/

namespace MessageBroker

/-- What a broker is told about a queue. -/
structure QueueConfig where
  /-- The name. -/
  name : String
  /-- How many attempts a message has; zero stands for any number. -/
  maxAttempts : UInt32
  /-- The queue that messages without further attempts go to. -/
  alternate : Option String
  deriving DecidableEq, Repr

/-- The redelivery policy of a queue. -/
def QueueConfig.policy (queue : QueueConfig) : RedeliveryPolicy :=
  ⟨queue.maxAttempts, queue.alternate⟩

/-- What a broker is told about itself. -/
structure BrokerConfig where
  /-- The name of the broker. -/
  containerId : String
  /-- The size of the largest frame that the broker accepts. -/
  maxFrameSize : UInt32
  /-- The greatest channel number that a peer may use. -/
  channelMax : UInt16
  /-- How many transfers a session accepts. -/
  incomingWindow : UInt32
  /-- How many deliveries a link accepts. -/
  linkCredit : UInt32
  /-- The size of the largest message that a link accepts; zero stands for any. -/
  maxMessageSize : UInt64
  /-- Whether durable messages are accepted. -/
  persistence : Bool
  /-- The queues. -/
  queues : List QueueConfig
  deriving DecidableEq, Repr

namespace BrokerConfig

/-- What a broker assumes about itself unless it is told otherwise. -/
def standard : BrokerConfig where
  containerId := "amqp-broker"
  maxFrameSize := defaultMaxFrameSize
  channelMax := 65535
  incomingWindow := 2048
  linkCredit := 100
  maxMessageSize := 0
  persistence := false
  queues := []

/-- The first name that an earlier one in a list repeats. -/
def duplicate? (seen : List String) : List String → Option String
  | [] => none
  | name :: names => if name ∈ seen then some name else duplicate? (name :: seen) names

/-- The first queue whose alternate is not among the given names, and that alternate. -/
def unknownAlternate? (names : List String) : List QueueConfig → Option (String × String)
  | [] => none
  | queue :: queues =>
    match queue.alternate with
    | some destination =>
      if destination ∈ names then unknownAlternate? names queues
      else some (queue.name, destination)
    | none => unknownAlternate? names queues

/-- Fails unless a configuration is sound. -/
def validate (config : BrokerConfig) : Except ConfigError Unit :=
  let names := config.queues.map (·.name)
  if config.maxFrameSize < leastMaxFrameSize then
    .error (.frameSizeBelow config.maxFrameSize.toNat leastMaxFrameSize.toNat)
  else if config.incomingWindow = 0 then .error .zeroWindow
  else if config.linkCredit = 0 then .error .zeroCredit
  else
    match duplicate? [] names with
    | some name => .error (.duplicateQueue name)
    | none =>
      match unknownAlternate? names config.queues with
      | some (name, destination) => .error (.unknownAlternate name destination)
      | none => .ok ()

end BrokerConfig

end MessageBroker
