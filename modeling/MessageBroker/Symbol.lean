import MessageBroker.Text.Hex

/-!
# Symbols and descriptors

A symbol is a short name such as `amqp:accepted:list`.  A descriptor names the type of a described
value, by a number or by a symbol.
-/

namespace MessageBroker

/-- A symbolic name. -/
structure Symbol where
  /-- The characters of the name. -/
  text : String
  deriving DecidableEq, Repr, Inhabited

/-- The name of a described type. -/
inductive Descriptor where
  /-- A numeric name. -/
  | code (number : UInt64)
  /-- A symbolic name. -/
  | symbol (name : Symbol)
  deriving DecidableEq, Repr, Inhabited

/-- A descriptor as text: a number in hexadecimal with at least `width` digits, a symbol as it
stands. -/
def Descriptor.text (width : Nat) : Descriptor → String
  | .code number => hexNumber width number.toNat
  | .symbol name => name.text

end MessageBroker
