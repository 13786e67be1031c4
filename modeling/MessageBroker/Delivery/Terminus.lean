import MessageBroker.Delivery.State

/-!
# Termini

The two ends of a link: the source that messages come from and the target that they go to.  The
target can be the coordinator, which takes messages that control transactions.
-/

namespace MessageBroker

/-! ### Outcomes and distribution modes by name -/

/-- The name of the outcome rejected, as a source declares it. -/
def rejectedOutcome : String :=
  "amqp:rejected:list"

/-- The distribution mode in which messages are copied and stay where they are. -/
def copyMode : String :=
  "copy"

/-! ### Sources -/

/-- The end of a link that messages come from. -/
structure Source where
  /-- The name of the node. -/
  address : Option String
  /-- What of the terminus is kept when its peer is lost. -/
  durable : Option UInt32
  /-- When the terminus expires. -/
  expiryPolicy : Option Symbol
  /-- How long the terminus outlives its expiry, in seconds. -/
  timeout : Option UInt32
  /-- Whether the node is created on demand. -/
  dynamic : Bool
  /-- Whether messages are moved or copied. -/
  distributionMode : Option Symbol
  /-- Which messages are wanted. -/
  filter : Value
  /-- The outcome of deliveries that are settled without one. -/
  defaultOutcome : Option DeliveryState
  /-- The outcomes that can be chosen. -/
  outcomes : Option (List Symbol)
  /-- The extensions that are supported. -/
  capabilities : Option (List Symbol)

namespace Source

/-- Whether an outcome can be chosen. -/
def supports (source : Source) (outcome : String) : Bool :=
  match source.outcomes with
  | some outcomes => outcomes.any fun symbol => symbol.text = outcome
  | none => false

/-- Whether the outcome rejected can be chosen. -/
def supportsRejected (source : Source) : Bool :=
  source.supports rejectedOutcome

/-- Whether messages are copied and stay where they are. -/
def isBrowser (source : Source) : Bool :=
  match source.distributionMode with
  | some mode => mode.text = copyMode
  | none => false

/-- The value of a source. -/
def toValue (source : Source) : Value :=
  composite Descriptor.sourceCode
    [fieldOf .string source.address,
      fieldOf .uint source.durable,
      fieldOf .symbol source.expiryPolicy,
      fieldOf .uint source.timeout,
      flagField source.dynamic,
      .null,
      fieldOf .symbol source.distributionMode,
      source.filter,
      fieldOf DeliveryState.toValue source.defaultOutcome,
      fieldOf symbolArray source.outcomes,
      fieldOf symbolArray source.capabilities]

/-- The source with the given fields. -/
def ofFields (fields : Fields) : Except DecodeError Source := do
  let address ← fields.optional 0 "address" Value.toName?
  let durable ← fields.optional 1 "durable" Value.toUInt?
  let expiryPolicy ← fields.optional 2 "expiry-policy" Value.toSymbol?
  let timeout ← fields.optional 3 "timeout" Value.toUInt?
  let dynamic ← fields.flag 4 "dynamic"
  let distributionMode ← fields.optional 6 "distribution-mode" Value.toSymbol?
  let defaultOutcome ← fields.nested 8 DeliveryState.ofValue
  let outcomes ← fields.optional 9 "outcomes" Value.toSymbols?
  let capabilities ← fields.optional 10 "capabilities" Value.toSymbols?
  return { address, durable, expiryPolicy, timeout, dynamic, distributionMode,
           filter := fields.get 7, defaultOutcome, outcomes, capabilities }

end Source

/-! ### Targets -/

/-- The node that messages go to. -/
structure TargetNode where
  /-- The name of the node. -/
  address : Option String
  /-- What of the terminus is kept when its peer is lost. -/
  durable : Option UInt32
  /-- When the terminus expires. -/
  expiryPolicy : Option Symbol
  /-- How long the terminus outlives its expiry, in seconds. -/
  timeout : Option UInt32
  /-- Whether the node is created on demand. -/
  dynamic : Bool
  /-- The extensions that are supported. -/
  capabilities : Option (List Symbol)

/-- The end of a link that messages go to. -/
inductive Target where
  /-- A node. -/
  | node (n : TargetNode)
  /-- The coordinator of transactions, with the extensions that are supported. -/
  | coordinator (capabilities : Option (List Symbol))

namespace Target

/-- The name of the node; the coordinator has none. -/
def address? : Target → Option String
  | .node n => n.address
  | .coordinator _ => none

/-- The value of a target. -/
def toValue : Target → Value
  | .node n =>
    composite Descriptor.targetCode
      [fieldOf .string n.address,
        fieldOf .uint n.durable,
        fieldOf .symbol n.expiryPolicy,
        fieldOf .uint n.timeout,
        flagField n.dynamic,
        .null,
        fieldOf symbolArray n.capabilities]
  | .coordinator capabilities =>
    composite Descriptor.coordinatorCode [fieldOf symbolArray capabilities]

/-- The node with the given fields. -/
def nodeOfFields (fields : Fields) : Except DecodeError TargetNode := do
  let address ← fields.optional 0 "address" Value.toName?
  let durable ← fields.optional 1 "durable" Value.toUInt?
  let expiryPolicy ← fields.optional 2 "expiry-policy" Value.toSymbol?
  let timeout ← fields.optional 3 "timeout" Value.toUInt?
  let dynamic ← fields.flag 4 "dynamic"
  let capabilities ← fields.optional 6 "capabilities" Value.toSymbols?
  return { address, durable, expiryPolicy, timeout, dynamic, capabilities }

/-- The target that a value holds. -/
def ofValue (value : Value) : Except DecodeError Target := do
  let (code, body) ← value.expectDescribed "target"
  if code = Descriptor.targetCode then
    return .node (← nodeOfFields (← Fields.ofValue "target" body))
  else if code = Descriptor.coordinatorCode then
    let fields ← Fields.ofValue "coordinator" body
    return .coordinator (← fields.optional 0 "capabilities" Value.toSymbols?)
  else throw (.unknownDescriptor (.code code))

end Target

end MessageBroker
