import MessageBroker.Fault.Decoding
import MessageBroker.Value.Basic

/-!
# Descriptors of the known composites

The numbers that name the composites which the broker reads and writes, and the reading of a
value that has to be described by one of them.
-/

namespace MessageBroker.Descriptor

/-! ### Performatives -/

def openCode : UInt64 := 0x10
def beginCode : UInt64 := 0x11
def attachCode : UInt64 := 0x12
def flowCode : UInt64 := 0x13
def transferCode : UInt64 := 0x14
def dispositionCode : UInt64 := 0x15
def detachCode : UInt64 := 0x16
def endCode : UInt64 := 0x17
def closeCode : UInt64 := 0x18

/-! ### Errors, delivery states and termini -/

def errorCode : UInt64 := 0x1d
def receivedCode : UInt64 := 0x23
def acceptedCode : UInt64 := 0x24
def rejectedCode : UInt64 := 0x25
def releasedCode : UInt64 := 0x26
def modifiedCode : UInt64 := 0x27
def sourceCode : UInt64 := 0x28
def targetCode : UInt64 := 0x29

/-! ### Transactions -/

def coordinatorCode : UInt64 := 0x30
def declareCode : UInt64 := 0x31
def dischargeCode : UInt64 := 0x32
def declaredCode : UInt64 := 0x33
def transactionalStateCode : UInt64 := 0x34

/-! ### Message sections -/

def headerCode : UInt64 := 0x70
def deliveryAnnotationsCode : UInt64 := 0x71
def messageAnnotationsCode : UInt64 := 0x72
def propertiesCode : UInt64 := 0x73
def applicationPropertiesCode : UInt64 := 0x74
def dataCode : UInt64 := 0x75
def sequenceCode : UInt64 := 0x76
def valueCode : UInt64 := 0x77
def footerCode : UInt64 := 0x78

end MessageBroker.Descriptor

namespace MessageBroker.Value

/-- The numeric descriptor and the body of a value that has to have them; `what` says what the
value should be. -/
def expectDescribed (what : String) : Value → Except DecodeError (UInt64 × Value)
  | .described (.code code) body => .ok (code, body)
  | .described (.symbol name) _ => .error (.unknownDescriptor (.symbol name))
  | _ => .error (.malformed (.notDescribed what))

end MessageBroker.Value
