import MessageBroker.Composite
import MessageBroker.Descriptors
import MessageBroker.Value.Encoding

/-!
# Drafts of messages

A draft gathers what a message is to hold, and is then written section by section: the header, if
durability was set, the properties, if there are any, and the body in the order it was given.
-/

namespace MessageBroker

/-- A message to be written. -/
structure MessageDraft where
  /-- Whether the message is durable, if that was set. -/
  durable : Option Bool
  /-- The properties, in order. -/
  properties : List (Value × Value)
  /-- The sections of the body, in order. -/
  body : List Value

namespace MessageDraft

/-- A draft in which nothing was set. -/
def empty : MessageDraft :=
  ⟨none, [], []⟩

/-- Sets durability. -/
def setDurable (draft : MessageDraft) (durable : Bool) : MessageDraft :=
  { draft with durable := some durable }

/-- Adds a property. -/
def addProperty (draft : MessageDraft) (key : String) (value : Value) : MessageDraft :=
  { draft with properties := draft.properties ++ [(.string key, value)] }

/-- Adds a data section. -/
def addData (draft : MessageDraft) (bytes : Bytes) : MessageDraft :=
  { draft with body := draft.body ++ [.describedBy Descriptor.dataCode (.binary bytes)] }

/-- Adds a value section. -/
def addValue (draft : MessageDraft) (value : Value) : MessageDraft :=
  { draft with body := draft.body ++ [.describedBy Descriptor.valueCode value] }

/-- The sections of the message, in order. -/
def sections (draft : MessageDraft) : List Value :=
  (match draft.durable with
    | some durable => [composite Descriptor.headerCode [flagField durable]]
    | none => []) ++
  (match draft.properties with
    | [] => []
    | properties => [.describedBy Descriptor.applicationPropertiesCode (.map properties)]) ++
  draft.body

/-- The message. -/
def encode (draft : MessageDraft) : Bytes :=
  Value.encodeAll draft.sections

end MessageDraft

end MessageBroker
