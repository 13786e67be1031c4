import MessageBroker.Octets
import MessageBroker.Symbol

/-!
# Values

The values of the wire's type system: scalars, texts, compounds, and values described by a
further name.  The views at the end read a value as a value of one of those types; the views as
an unsigned number accept every unsigned type that holds a number in range.
-/

namespace MessageBroker

/-- A value of the wire's type system. -/
inductive Value where
  /-- The absent value. -/
  | null
  /-- A truth value. -/
  | bool (flag : Bool)
  /-- An unsigned number of 8 bits. -/
  | ubyte (number : UInt8)
  /-- An unsigned number of 16 bits. -/
  | ushort (number : UInt16)
  /-- An unsigned number of 32 bits. -/
  | uint (number : UInt32)
  /-- An unsigned number of 64 bits. -/
  | ulong (number : UInt64)
  /-- A signed number of 8 bits. -/
  | byte (number : Int8)
  /-- A signed number of 16 bits. -/
  | short (number : Int16)
  /-- A signed number of 32 bits. -/
  | int (number : Int32)
  /-- A signed number of 64 bits. -/
  | long (number : Int64)
  /-- A point in time, in milliseconds since 1970. -/
  | timestamp (milliseconds : Int64)
  /-- A universally unique identifier. -/
  | uuid (bits : BitVec 128)
  /-- A byte string. -/
  | binary (bytes : Bytes)
  /-- A text. -/
  | string (text : String)
  /-- A symbolic name. -/
  | symbol (name : Symbol)
  /-- Values one after another. -/
  | list (items : List Value)
  /-- Keys, each with its value, in order. -/
  | map (pairs : List (Value × Value))
  /-- Values of one type, one after another. -/
  | array (items : List Value)
  /-- A value with a name for its meaning. -/
  | described (descriptor : Descriptor) (value : Value)
  deriving Inhabited

namespace Value

/-- A value described by a number. -/
def describedBy (code : UInt64) (value : Value) : Value :=
  .described (.code code) value

/-- Whether a value is the absent value. -/
def isNull : Value → Bool
  | .null => true
  | _ => false

/-! ### Views -/

/-- The truth value. -/
def toBool? : Value → Option Bool
  | .bool flag => some flag
  | _ => none

/-- The unsigned number, of whichever width. -/
def toUnsigned? : Value → Option UInt64
  | .ubyte n => some n.toUInt64
  | .ushort n => some n.toUInt64
  | .uint n => some n.toUInt64
  | .ulong n => some n
  | _ => none

/-- The unsigned number, if it fits in 8 bits. -/
def toUByte? (value : Value) : Option UInt8 :=
  match value.toUnsigned? with
  | some n => if n.toNat < UInt8.size then some n.toUInt8 else none
  | none => none

/-- The unsigned number, if it fits in 16 bits. -/
def toUShort? (value : Value) : Option UInt16 :=
  match value.toUnsigned? with
  | some n => if n.toNat < UInt16.size then some n.toUInt16 else none
  | none => none

/-- The unsigned number, if it fits in 32 bits. -/
def toUInt? (value : Value) : Option UInt32 :=
  match value.toUnsigned? with
  | some n => if n.toNat < UInt32.size then some n.toUInt32 else none
  | none => none

/-- The signed number or point in time, of whichever width. -/
def toSigned? : Value → Option Int64
  | .byte n => some n.toInt64
  | .short n => some n.toInt64
  | .int n => some n.toInt64
  | .long n => some n
  | .timestamp n => some n
  | _ => none

/-- The text; a symbol is none. -/
def toText? : Value → Option String
  | .string text => some text
  | _ => none

/-- The text of a string or of a symbol. -/
def toName? : Value → Option String
  | .string text => some text
  | .symbol name => some name.text
  | _ => none

/-- The symbol. -/
def toSymbol? : Value → Option Symbol
  | .symbol name => some name
  | _ => none

/-- The symbols of one symbol, or of an array or list of symbols. -/
def toSymbols? : Value → Option (List Symbol)
  | .symbol name => some [name]
  | .array items => items.mapM toSymbol?
  | .list items => items.mapM toSymbol?
  | _ => none

/-- The byte string. -/
def toBinary? : Value → Option Bytes
  | .binary bytes => some bytes
  | _ => none

/-- The members of a list. -/
def toItems? : Value → Option (List Value)
  | .list items => some items
  | _ => none

/-- The descriptor of a described value. -/
def descriptor? : Value → Option Descriptor
  | .described descriptor _ => some descriptor
  | _ => none

/-- The numeric descriptor of a described value. -/
def descriptorCode? : Value → Option UInt64
  | .described (.code code) _ => some code
  | _ => none

end Value

end MessageBroker
