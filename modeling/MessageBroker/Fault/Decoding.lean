import MessageBroker.Symbol

/-!
# Decoding errors

The ways in which a byte string, a value or a composite fails to be what it should be, and the
text that reports each of them.
-/

namespace MessageBroker

/-- What is wrong with data that is complete but not well formed. -/
inductive Defect where
  /-- A descriptor is neither an unsigned number nor a symbol. -/
  | descriptorKind
  /-- The octets of a string or symbol are not UTF-8. -/
  | invalidText
  /-- The size of a compound does not cover its own count. -/
  | sizeBelowCount
  /-- The members of a compound end elsewhere than its size says. -/
  | sizeMismatch (actual declared : Nat)
  /-- A map holds a key without a value. -/
  | unpairedKey
  /-- The body of a composite is not a list. -/
  | bodyNotList (composite : String)
  /-- A value that has to be described is not. -/
  | notDescribed (what : String)
  /-- A described type was expected. -/
  | undescribed
  /-- The sizes in a frame header contradict each other. -/
  | frameHeader (size dataOffset : Nat)
  /-- A frame ends inside its performative. -/
  | truncatedPerformative
  /-- A message section is not described by a number. -/
  | sectionDescriptor
  /-- A message for the coordinator has no value section. -/
  | noControl
  deriving DecidableEq, Repr

/-- The report of a defect. -/
def Defect.message : Defect → String
  | .descriptorKind => "descriptor is not ulong or symbol"
  | .invalidText => "invalid UTF-8 in string"
  | .sizeBelowCount => "compound size smaller than count"
  | .sizeMismatch actual declared =>
    s!"compound contents end at {actual} but declared size ends at {declared}"
  | .unpairedKey => "map with odd element count"
  | .bodyNotList composite => s!"{composite} body is not a list"
  | .notDescribed what => s!"{what} is not a described type"
  | .undescribed => "expected a described type"
  | .frameHeader size dataOffset => s!"invalid frame header: size {size} doff {dataOffset}"
  | .truncatedPerformative => "performative truncated inside frame body"
  | .sectionDescriptor => "message section is not described by code"
  | .noControl => "coordinator message has no amqp-value body"

/-- Why data could not be decoded. -/
inductive DecodeError where
  /-- At least `needed` more octets are required. -/
  | insufficientData (needed : Nat)
  /-- No performative has this descriptor. -/
  | unknownPerformative (descriptor : Descriptor)
  /-- The descriptor does not belong here. -/
  | unknownDescriptor (descriptor : Descriptor)
  /-- No type has this constructor octet. -/
  | invalidFormatCode (code : UInt8)
  /-- A mandatory field is absent. -/
  | missingField (composite field : String)
  /-- A field holds a value of a wrong type or range. -/
  | invalidField (composite field : String)
  /-- A short string would have this many octets. -/
  | shortStringTooLong (size : Nat)
  /-- The data is complete but not well formed. -/
  | malformed (defect : Defect)
  deriving DecidableEq, Repr

/-- The report of a decoding error. -/
def DecodeError.message : DecodeError → String
  | .insufficientData needed => s!"insufficient data: {needed} more byte(s) required"
  | .unknownPerformative descriptor => "unknown performative: " ++ descriptor.text 8
  | .unknownDescriptor descriptor => "unknown descriptor: " ++ descriptor.text 2
  | .invalidFormatCode code => "invalid format code " ++ hexNumber 2 code.toNat
  | .missingField composite field => s!"{composite}: mandatory field '{field}' is missing"
  | .invalidField composite field => s!"{composite}: field '{field}' is invalid"
  | .shortStringTooLong size => s!"short string of {size} octets exceeds 255"
  | .malformed defect => "malformed: " ++ defect.message

end MessageBroker
