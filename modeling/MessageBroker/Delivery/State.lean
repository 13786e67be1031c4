import MessageBroker.Delivery.Report

/-!
# Delivery states

What one end of a link tells the other about a delivery: how far it was received, its outcome,
the transaction that was declared by it, or the transaction in which an outcome is to be taken.
-/

namespace MessageBroker

/-- The state of a delivery. -/
inductive DeliveryState where
  /-- The delivery was received up to this place. -/
  | received (sectionNumber : UInt32) (sectionOffset : UInt64)
  /-- The message was taken. -/
  | accepted
  /-- The message is invalid. -/
  | rejected (report : Option ErrorReport)
  /-- The message was not taken. -/
  | released
  /-- The message was not taken, and is not as it was. -/
  | modified (deliveryFailed undeliverableHere : Bool)
  /-- The message declared a transaction. -/
  | declared (transaction : Bytes)
  /-- The delivery is part of a transaction. -/
  | transactional (transaction : Bytes)
  /-- The delivery is part of a transaction, at the end of which it has this outcome. -/
  | provisional (transaction : Bytes) (outcome : DeliveryState)
  deriving DecidableEq, Repr

namespace DeliveryState

/-- Whether a state ends the sender's part in a delivery. -/
def isTerminal : DeliveryState → Bool
  | .received _ _ => false
  | _ => true

/-- The transaction that a delivery in this state is part of. -/
def transaction? : DeliveryState → Option Bytes
  | .transactional transaction => some transaction
  | .provisional transaction _ => some transaction
  | _ => none

/-- The name of the composite of a state. -/
def name : DeliveryState → String
  | .received _ _ => "received"
  | .accepted => "accepted"
  | .rejected _ => "rejected"
  | .released => "released"
  | .modified _ _ => "modified"
  | .declared _ => "declared"
  | .transactional _ => "transactional-state"
  | .provisional _ _ => "transactional-state"

/-- The value of a state. -/
def toValue : DeliveryState → Value
  | .received sectionNumber sectionOffset =>
    composite Descriptor.receivedCode [.uint sectionNumber, .ulong sectionOffset]
  | .accepted => composite Descriptor.acceptedCode []
  | .rejected report => composite Descriptor.rejectedCode [fieldOf ErrorReport.toValue report]
  | .released => composite Descriptor.releasedCode []
  | .modified deliveryFailed undeliverableHere =>
    composite Descriptor.modifiedCode [.bool deliveryFailed, .bool undeliverableHere]
  | .declared transaction => composite Descriptor.declaredCode [.binary transaction]
  | .transactional transaction =>
    composite Descriptor.transactionalStateCode [.binary transaction]
  | .provisional transaction outcome =>
    composite Descriptor.transactionalStateCode [.binary transaction, outcome.toValue]

/-- The state with the given descriptor and body that is not part of a transaction. -/
def ofSimple (code : UInt64) (body : Value) : Except DecodeError DeliveryState :=
  if code = Descriptor.receivedCode then do
    let fields ← Fields.ofValue "received" body
    let sectionNumber ← fields.required 0 "section-number" Value.toUInt?
    let sectionOffset ← fields.required 1 "section-offset" Value.toUnsigned?
    return .received sectionNumber sectionOffset
  else if code = Descriptor.acceptedCode then .ok .accepted
  else if code = Descriptor.rejectedCode then do
    let fields ← Fields.ofValue "rejected" body
    return .rejected (← fields.nested 0 ErrorReport.ofValue)
  else if code = Descriptor.releasedCode then .ok .released
  else if code = Descriptor.modifiedCode then do
    let fields ← Fields.ofValue "modified" body
    let deliveryFailed ← fields.flag 0 "delivery-failed"
    let undeliverableHere ← fields.flag 1 "undeliverable-here"
    return .modified deliveryFailed undeliverableHere
  else if code = Descriptor.declaredCode then do
    let fields ← Fields.ofValue "declared" body
    return .declared (← fields.required 0 "txn-id" Value.toBinary?)
  else .error (.unknownDescriptor (.code code))

/-- The state that a value holds.  A state in a transaction nests its outcome, in the second of
its fields. -/
def ofValue : Value → Except DecodeError DeliveryState
  | .described (.code code) body =>
    if code = Descriptor.transactionalStateCode then do
      let fields ← Fields.ofValue "transactional-state" body
      let transaction ← fields.required 0 "txn-id" Value.toBinary?
      match body with
      | .list (_ :: .null :: _) => return .transactional transaction
      | .list (_ :: outcome :: _) => return .provisional transaction (← ofValue outcome)
      | _ => return .transactional transaction
    else ofSimple code body
  | value => do
    let (code, body) ← value.expectDescribed "delivery-state"
    ofSimple code body

end DeliveryState

end MessageBroker
