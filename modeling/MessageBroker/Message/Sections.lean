import MessageBroker.Composite
import MessageBroker.Descriptors
import MessageBroker.Value.Decoding

/-!
# Sections of messages

A message is a sequence of sections, each a described value.  A broker looks at some of them:
whether the message is durable, its priority, the properties set by the application, and its
body.  It passes over the others, and refuses what is no section.
-/

namespace MessageBroker

/-- What a broker looks at in a message. -/
structure MessageSections where
  /-- Whether the message is to survive the broker. -/
  durable : Bool
  /-- The priority. -/
  priority : Option UInt8
  /-- The properties set by the application. -/
  applicationProperties : List (Value × Value)
  /-- The data sections, in order. -/
  data : List Bytes
  /-- The value section. -/
  value : Option Value

namespace MessageSections

/-- What there is to see in a message without sections. -/
def empty : MessageSections :=
  ⟨false, none, [], [], none⟩

/-- The sections with those of a further section, given by its descriptor and its body. -/
def add (sections : MessageSections) (code : UInt64) (body : Value) :
    Except DecodeError MessageSections :=
  if code = Descriptor.headerCode then do
    let fields ← Fields.ofValue "header" body
    let durable ← fields.flag 0 "durable"
    let priority ← fields.optional 1 "priority" Value.toUByte?
    return { sections with durable, priority }
  else if code = Descriptor.applicationPropertiesCode then
    match body with
    | .map pairs => .ok { sections with applicationProperties := pairs }
    | _ => .error (.invalidField "message" "application-properties")
  else if code = Descriptor.dataCode then
    match body with
    | .binary bytes => .ok { sections with data := sections.data ++ [bytes] }
    | _ => .error (.invalidField "message" "data")
  else if code = Descriptor.valueCode then .ok { sections with value := some body }
  else if code = Descriptor.deliveryAnnotationsCode ∨ code = Descriptor.messageAnnotationsCode ∨
      code = Descriptor.propertiesCode ∨ code = Descriptor.sequenceCode ∨
      code = Descriptor.footerCode then .ok sections
  else .error (.unknownDescriptor (.code code))

/-- The sections with those at a cursor, of which there are at most `count`. -/
def parseFrom (sections : MessageSections) : Nat → Cursor → Except DecodeError MessageSections
  | 0, _ => .ok sections
  | count + 1, cursor =>
    if cursor.rest.isEmpty then .ok sections
    else
      match Value.read cursor with
      | .error error _ => .error error
      | .ok (.described (.code code) body) cursor => do
        (← sections.add code body).parseFrom count cursor
      | .ok _ _ => .error (.malformed .sectionDescriptor)

/-- The sections of a message.  Every section takes at least one octet, so there are no more
sections than octets. -/
def parse (message : Bytes) : Except DecodeError MessageSections :=
  empty.parseFrom message.length (Cursor.start message)

/-- The value of the first property with a given key. -/
def property? (sections : MessageSections) (key : String) : Option Value :=
  (sections.applicationProperties.find? fun pair => pair.1.toText? = some key).map (·.2)

end MessageSections

end MessageBroker
