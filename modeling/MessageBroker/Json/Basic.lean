/-!
# JSON values

The values of JSON, as far as a configuration can hold them.  A number is kept only if it is
written as a natural number, and a text only if its escapes stand for characters: other numbers
and texts are well formed but have no value here.
-/

namespace MessageBroker

/-- A value of JSON. -/
inductive JsonValue where
  /-- The absent value. -/
  | null
  /-- A truth value. -/
  | bool (flag : Bool)
  /-- A number; it has a value if it is written as a natural number. -/
  | number (value : Option Nat)
  /-- A text; it has a value if its escapes stand for characters. -/
  | text (value : Option String)
  /-- Values one after another. -/
  | array (items : List JsonValue)
  /-- Values under keys, in the order they are written. -/
  | object (members : List (Option String × JsonValue))

namespace JsonValue

/-! ### Views -/

/-- The truth value. -/
def toBool? : JsonValue → Option Bool
  | .bool flag => some flag
  | _ => none

/-- The number, if it is below a bound. -/
def toNatBelow? (bound : Nat) : JsonValue → Option Nat
  | .number (some n) => if n < bound then some n else none
  | _ => none

/-- The text. -/
def toText? : JsonValue → Option String
  | .text value => value
  | _ => none

/-- The members of an array, each read by `convert`. -/
def toList? {α : Type} (convert : JsonValue → Option α) : JsonValue → Option (List α)
  | .array items => items.mapM convert
  | _ => none

/-! ### Records -/

/-- The value under a key that may be used once. -/
def member? (members : List (String × JsonValue)) (key : String) :
    Option (Option JsonValue) :=
  match members.filter fun member => member.1 = key with
  | [] => some none
  | [(_, value)] => some (some value)
  | _ => none

/-- The fields of a record with the given keys: an object, in which other keys are passed over,
or an array of the fields in order, which may end early. -/
def fields? (keys : List String) : JsonValue → Option (List (Option JsonValue))
  | .object members => do
    let members ← members.mapM fun (key, value) => key.map (·, value)
    keys.mapM (member? members)
  | .array items =>
    if items.length ≤ keys.length then
      some (items.map some ++ List.replicate (keys.length - items.length) none)
    else none
  | _ => none

/-- The field at a position, read by `convert`; `default` if it is absent. -/
def field {α : Type} (fields : List (Option JsonValue)) (index : Nat) (default : α)
    (convert : JsonValue → Option α) : Option α :=
  match fields[index]? with
  | some (some value) => convert value
  | _ => some default

end JsonValue

end MessageBroker
