import MessageBroker.Catalogue
import MessageBroker.Descriptors

/-!
# Transaction controls

The two messages that a coordinator takes: one begins a transaction, the other ends it.
-/

namespace MessageBroker

/-- A message for the coordinator. -/
inductive TransactionControl where
  /-- Begins a transaction, which may be part of a global one. -/
  | declare (globalId : Option Value)
  /-- Ends a transaction, in failure or else in success. -/
  | discharge (transaction : Bytes) (fail : Bool)

namespace TransactionControl

/-- The name of a control. -/
def name : TransactionControl → String
  | .declare _ => "declare"
  | .discharge _ _ => "discharge"

/-- The value of a control. -/
def toValue : TransactionControl → Value
  | .declare globalId => composite Descriptor.declareCode [fieldOf id globalId]
  | .discharge transaction fail =>
    composite Descriptor.dischargeCode [.binary transaction, flagField fail]

/-- The declare with the given fields. -/
def declareOfFields (f : Fields) : Except DecodeError TransactionControl :=
  .declare <$> f.nested 0 .ok

/-- The discharge with the given fields. -/
def dischargeOfFields (f : Fields) : Except DecodeError TransactionControl := do
  let transaction ← f.required 0 "txn-id" Value.toBinary?
  let fail ← f.flag 1 "fail"
  return .discharge transaction fail

/-- The two controls. -/
def catalogue : Catalogue TransactionControl :=
  [⟨Descriptor.declareCode, "amqp:declare:list", "declare", declareOfFields⟩,
    ⟨Descriptor.dischargeCode, "amqp:discharge:list", "discharge", dischargeOfFields⟩]

end TransactionControl

end MessageBroker
