import MessageBroker.Config.Basic
import MessageBroker.Json.Layout
import MessageBroker.Json.Parsing

/-!
# Configurations as text

A configuration is written as a record of JSON.  What a text leaves out is as in the standard
configuration; keys that are not known are passed over.
-/

namespace MessageBroker

/-! ### Reading -/

/-- The alternate of a queue; the absent value stands for none. -/
def QueueConfig.alternateOfJson? : JsonValue → Option (Option String)
  | .null => some none
  | value => do
    match ← value.fields? ["destination"] with
    | [some destination] => some <$> destination.toText?
    | _ => none

/-- The queue that a record describes.  The name may not be left out. -/
def QueueConfig.ofJson? (value : JsonValue) : Option QueueConfig := do
  let fields ← value.fields? ["name", "maximumDeliveryAttempts", "alternateBinding"]
  let name ← ← JsonValue.field fields 0 none fun name => some <$> name.toText?
  let maxAttempts ← JsonValue.field fields 1 0 (JsonValue.toNatBelow? UInt32.size)
  let alternate ← JsonValue.field fields 2 none alternateOfJson?
  return ⟨name, .ofNat maxAttempts, alternate⟩

namespace BrokerConfig

/-- The configuration that a record describes. -/
def ofJson? (value : JsonValue) : Option BrokerConfig := do
  let fields ← value.fields?
    ["containerId", "maxFrameSize", "channelMax", "sessionIncomingWindow", "linkCredit",
      "maxMessageSize", "persistence", "queues"]
  let containerId ← JsonValue.field fields 0 standard.containerId JsonValue.toText?
  let maxFrameSize ←
    JsonValue.field fields 1 standard.maxFrameSize.toNat (JsonValue.toNatBelow? UInt32.size)
  let channelMax ←
    JsonValue.field fields 2 standard.channelMax.toNat (JsonValue.toNatBelow? UInt16.size)
  let incomingWindow ←
    JsonValue.field fields 3 standard.incomingWindow.toNat (JsonValue.toNatBelow? UInt32.size)
  let linkCredit ←
    JsonValue.field fields 4 standard.linkCredit.toNat (JsonValue.toNatBelow? UInt32.size)
  let maxMessageSize ←
    JsonValue.field fields 5 standard.maxMessageSize.toNat (JsonValue.toNatBelow? UInt64.size)
  let persistence ← JsonValue.field fields 6 standard.persistence JsonValue.toBool?
  let queues ← JsonValue.field fields 7 standard.queues (JsonValue.toList? QueueConfig.ofJson?)
  return { containerId, maxFrameSize := .ofNat maxFrameSize, channelMax := .ofNat channelMax,
           incomingWindow := .ofNat incomingWindow, linkCredit := .ofNat linkCredit,
           maxMessageSize := .ofNat maxMessageSize, persistence, queues }

/-- The configuration that a text describes, if it is well formed and sound. -/
def ofText (text : String) : Except Fault BrokerConfig :=
  match (JsonValue.parse? text).bind ofJson? with
  | none => .error .json
  | some config =>
    match config.validate with
    | .ok () => .ok config
    | .error error => .error (.config error)

end BrokerConfig

/-! ### Writing -/

/-- The members of the record of a queue, at a depth. -/
def QueueConfig.members (depth : Nat) (queue : QueueConfig) : List (String × String) :=
  [("name", JsonLayout.text queue.name),
    ("maximumDeliveryAttempts", toString queue.maxAttempts.toNat)] ++
  (queue.alternate.map fun destination =>
    ("alternateBinding",
      JsonLayout.record (depth + 1) [("destination", JsonLayout.text destination)])).toList

/-- The text of a configuration. -/
def BrokerConfig.toText (config : BrokerConfig) : String :=
  JsonLayout.record 0
    [("containerId", JsonLayout.text config.containerId),
      ("maxFrameSize", toString config.maxFrameSize.toNat),
      ("channelMax", toString config.channelMax.toNat),
      ("sessionIncomingWindow", toString config.incomingWindow.toNat),
      ("linkCredit", toString config.linkCredit.toNat),
      ("maxMessageSize", toString config.maxMessageSize.toNat),
      ("persistence", JsonLayout.bool config.persistence),
      ("queues", JsonLayout.list 1
        (config.queues.map fun queue => JsonLayout.record 2 (queue.members 2)))]

end MessageBroker
