import MessageBroker.Composite
import MessageBroker.Value.Decoding

/-!
# Catalogues of composites

A catalogue lists the composites that may stand in one place, each with its two descriptors, its
name and the reading of its fields.  A value is read by the entry that its descriptor names.
-/

namespace MessageBroker

/-- A composite of a catalogue. -/
structure CompositeType (α : Type) where
  /-- The numeric descriptor. -/
  code : UInt64
  /-- The symbolic descriptor. -/
  symbol : String
  /-- The name, for errors. -/
  name : String
  /-- The reading of the fields. -/
  ofFields : Fields → Except DecodeError α

/-- The composites that may stand in one place. -/
abbrev Catalogue (α : Type) :=
  List (CompositeType α)

namespace Catalogue

variable {α : Type}

/-- The entry with a numeric descriptor. -/
def find? (catalogue : Catalogue α) (code : UInt64) : Option (CompositeType α) :=
  List.find? (fun entry => entry.code = code) catalogue

/-- The name of the entry with a numeric descriptor. -/
def name? (catalogue : Catalogue α) (code : UInt64) : Option String :=
  (catalogue.find? code).map (·.name)

/-- The numeric descriptor of the entry with a symbolic one. -/
def code? (catalogue : Catalogue α) (symbol : String) : Option UInt64 :=
  (List.find? (fun (entry : CompositeType α) => entry.symbol = symbol) catalogue).map (·.code)

/-- The numeric descriptor that a descriptor stands for. -/
def resolve (catalogue : Catalogue α) : Descriptor → Except DecodeError UInt64
  | .code code => .ok code
  | .symbol name =>
    match catalogue.code? name.text with
    | some code => .ok code
    | none => .error (.unknownPerformative (.symbol name))

/-- What a value is in this place. -/
def ofValue (catalogue : Catalogue α) : Value → Except DecodeError α
  | .described descriptor body => do
    let code ← catalogue.resolve descriptor
    match catalogue.find? code with
    | some entry => entry.ofFields (← Fields.ofValue entry.name body)
    | none => throw (.unknownPerformative (.code code))
  | _ => .error (.malformed .undescribed)

/-- What stands at the front of a byte string, and the number of its octets. -/
def decode (catalogue : Catalogue α) (bytes : Bytes) : Except DecodeError (α × Nat) := do
  let (value, size) ← Value.decode bytes
  return (← catalogue.ofValue value, size)

end Catalogue

end MessageBroker
