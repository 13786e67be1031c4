import MessageBroker.Composite
import MessageBroker.Descriptors
import MessageBroker.Fault.Report

/-!
# Error reports on the wire

An error report is a composite of its condition and its description.
-/

namespace MessageBroker.ErrorReport

/-- The value of an error report. -/
def toValue (report : ErrorReport) : Value :=
  composite Descriptor.errorCode
    [.symbol report.condition, fieldOf .string report.description]

/-- The error report that a value holds. -/
def ofValue (value : Value) : Except DecodeError ErrorReport := do
  let (code, body) ← value.expectDescribed "error"
  if code ≠ Descriptor.errorCode then throw (.unknownDescriptor (.code code))
  let fields ← Fields.ofValue "error" body
  let condition ← fields.required 0 "condition" Value.toSymbol?
  let description ← fields.optional 1 "description" Value.toName?
  return ⟨condition, description⟩

end MessageBroker.ErrorReport
