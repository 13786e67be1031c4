import MessageBroker.Fault.Decoding
import MessageBroker.Value.Basic

/-!
# Composites

A composite is a described list whose members are its fields, in a fixed order.  Absent fields
are null; absent fields at the end are left out.  `Fields` reads the fields of one composite by
their position, `composite` writes them.
-/

namespace MessageBroker

/-- The fields of one composite. -/
structure Fields where
  /-- The name of the composite, for errors. -/
  composite : String
  /-- The fields, in order. -/
  values : List Value

namespace Fields

/-- The fields in the body of a composite: a list, or null for no fields. -/
def ofValue (composite : String) : Value → Except DecodeError Fields
  | .list values => .ok ⟨composite, values⟩
  | .null => .ok ⟨composite, []⟩
  | _ => .error (.malformed (.bodyNotList composite))

/-- The field at a position; null past the end. -/
def get (fields : Fields) (index : Nat) : Value :=
  fields.values.getD index .null

/-- The fields with the one at a position made null. -/
def erase (fields : Fields) (index : Nat) : Fields :=
  { fields with values := fields.values.set index .null }

/-! ### Fields of a type -/

/-- The field at a position, read by `convert`; none if it is null. -/
def optional {α : Type} (fields : Fields) (index : Nat) (field : String)
    (convert : Value → Option α) : Except DecodeError (Option α) :=
  match fields.get index with
  | .null => .ok none
  | value =>
    match convert value with
    | some a => .ok (some a)
    | none => .error (.invalidField fields.composite field)

/-- The field at a position, read by `convert`; it may not be null. -/
def required {α : Type} (fields : Fields) (index : Nat) (field : String)
    (convert : Value → Option α) : Except DecodeError α := do
  match ← fields.optional index field convert with
  | some a => pure a
  | none => throw (.missingField fields.composite field)

/-- The field at a position, decoded by `decode`; none if it is null. -/
def nested {α : Type} (fields : Fields) (index : Nat) (decode : Value → Except DecodeError α) :
    Except DecodeError (Option α) :=
  match fields.get index with
  | .null => .ok none
  | value => some <$> decode value

/-- A flag, which is false if it is null. -/
def flag (fields : Fields) (index : Nat) (field : String) : Except DecodeError Bool := do
  return (← fields.optional index field Value.toBool?).getD false

end Fields

/-! ### Writing -/

/-- A list without the null values at its end. -/
def withoutTrailingNulls (values : List Value) : List Value :=
  (values.reverse.dropWhile Value.isNull).reverse

/-- The composite with a numeric descriptor and the given fields. -/
def composite (code : UInt64) (fields : List Value) : Value :=
  .describedBy code (.list (withoutTrailingNulls fields))

/-- A field that may be absent. -/
def fieldOf {α : Type} (write : α → Value) : Option α → Value
  | some a => write a
  | none => .null

/-- A flag, written only if it is set. -/
def flagField : Bool → Value
  | true => .bool true
  | false => .null

/-- Symbols as an array. -/
def symbolArray (symbols : List Symbol) : Value :=
  .array (symbols.map .symbol)

end MessageBroker
