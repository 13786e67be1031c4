import MessageBroker.Catalogue
import MessageBroker.Performative.Basic

/-!
# Decoding of performatives

The reading of each performative from its fields, and the catalogue of all nine.  Fields that the
broker does not use are passed over.
-/

namespace MessageBroker

/-- A settle mode of a sender. -/
def Value.toSenderSettleMode? (value : Value) : Option SenderSettleMode :=
  value.toUByte?.bind SenderSettleMode.ofCode?

/-- A settle mode of a receiver. -/
def Value.toReceiverSettleMode? (value : Value) : Option ReceiverSettleMode :=
  value.toUByte?.bind ReceiverSettleMode.ofCode?

/-- The open with the given fields. -/
def Open.ofFields (f : Fields) : Except DecodeError Open := do
  let containerId ← f.required 0 "container-id" Value.toText?
  let hostname ← f.optional 1 "hostname" Value.toName?
  let maxFrameSize ← f.optional 2 "max-frame-size" Value.toUInt?
  let channelMax ← f.optional 3 "channel-max" Value.toUShort?
  let idleTimeOut ← f.optional 4 "idle-time-out" Value.toUInt?
  return { containerId, hostname, maxFrameSize, channelMax, idleTimeOut }

/-- The begin with the given fields. -/
def Begin.ofFields (f : Fields) : Except DecodeError Begin := do
  let remoteChannel ← f.optional 0 "remote-channel" Value.toUShort?
  let nextOutgoingId ← f.required 1 "next-outgoing-id" Value.toUInt?
  let incomingWindow ← f.required 2 "incoming-window" Value.toUInt?
  let outgoingWindow ← f.required 3 "outgoing-window" Value.toUInt?
  let handleMax ← f.optional 4 "handle-max" Value.toUInt?
  return { remoteChannel, nextOutgoingId, incomingWindow, outgoingWindow, handleMax }

/-- The source that a field of an attach holds. -/
def Attach.sourceOfValue (value : Value) : Except DecodeError Source := do
  let (code, body) ← value.expectDescribed "source"
  if code ≠ Descriptor.sourceCode then throw (.invalidField "attach" "source")
  Source.ofFields (← Fields.ofValue "source" body)

/-- The attach with the given fields. -/
def Attach.ofFields (f : Fields) : Except DecodeError Attach := do
  let name ← f.required 0 "name" Value.toText?
  let handle ← f.required 1 "handle" Value.toUInt?
  let isReceiver ← f.required 2 "role" Value.toBool?
  let sndSettleMode ← f.optional 3 "snd-settle-mode" Value.toSenderSettleMode?
  let rcvSettleMode ← f.optional 4 "rcv-settle-mode" Value.toReceiverSettleMode?
  let source ← f.nested 5 Attach.sourceOfValue
  let target ← f.nested 6 Target.ofValue
  let initialDeliveryCount ← f.optional 9 "initial-delivery-count" Value.toUInt?
  let maxMessageSize ← f.optional 10 "max-message-size" Value.toUnsigned?
  return { name, handle, role := .ofIsReceiver isReceiver,
           sndSettleMode := sndSettleMode.getD .mixed,
           rcvSettleMode := rcvSettleMode.getD .first,
           source, target, initialDeliveryCount, maxMessageSize }

/-- The flow with the given fields. -/
def Flow.ofFields (f : Fields) : Except DecodeError Flow := do
  let nextIncomingId ← f.optional 0 "next-incoming-id" Value.toUInt?
  let incomingWindow ← f.required 1 "incoming-window" Value.toUInt?
  let nextOutgoingId ← f.required 2 "next-outgoing-id" Value.toUInt?
  let outgoingWindow ← f.required 3 "outgoing-window" Value.toUInt?
  let handle ← f.optional 4 "handle" Value.toUInt?
  let deliveryCount ← f.optional 5 "delivery-count" Value.toUInt?
  let linkCredit ← f.optional 6 "link-credit" Value.toUInt?
  let available ← f.optional 7 "available" Value.toUInt?
  let drain ← f.flag 8 "drain"
  let echo ← f.flag 9 "echo"
  return { nextIncomingId, incomingWindow, nextOutgoingId, outgoingWindow, handle, deliveryCount,
           linkCredit, available, drain, echo }

/-- The transfer with the given fields. -/
def Transfer.ofFields (f : Fields) : Except DecodeError Transfer := do
  let handle ← f.required 0 "handle" Value.toUInt?
  let deliveryId ← f.optional 1 "delivery-id" Value.toUInt?
  let deliveryTag ← f.optional 2 "delivery-tag" Value.toBinary?
  let messageFormat ← f.optional 3 "message-format" Value.toUInt?
  let settled ← f.optional 4 "settled" Value.toBool?
  let more ← f.flag 5 "more"
  let rcvSettleMode ← f.optional 6 "rcv-settle-mode" Value.toReceiverSettleMode?
  let state ← f.nested 7 DeliveryState.ofValue
  let resume ← f.flag 8 "resume"
  let aborted ← f.flag 9 "aborted"
  let batchable ← f.flag 10 "batchable"
  return { handle, deliveryId, deliveryTag, messageFormat, settled, more, rcvSettleMode, state,
           resume, aborted, batchable }

/-- The disposition with the given fields. -/
def Disposition.ofFields (f : Fields) : Except DecodeError Disposition := do
  let isReceiver ← f.required 0 "role" Value.toBool?
  let first ← f.required 1 "first" Value.toUInt?
  let last ← f.optional 2 "last" Value.toUInt?
  let settled ← f.flag 3 "settled"
  let state ← f.nested 4 DeliveryState.ofValue
  let batchable ← f.flag 5 "batchable"
  return { role := .ofIsReceiver isReceiver, first, last, settled, state, batchable }

/-- The detach with the given fields. -/
def Detach.ofFields (f : Fields) : Except DecodeError Detach := do
  let handle ← f.required 0 "handle" Value.toUInt?
  let closed ← f.flag 1 "closed"
  let error ← f.nested 2 ErrorReport.ofValue
  return { handle, closed, error }

namespace Performative

/-- The nine performatives. -/
def catalogue : Catalogue Performative :=
  [⟨Descriptor.openCode, "amqp:open:list", "open",
      fun f => .openConnection <$> Open.ofFields f⟩,
    ⟨Descriptor.beginCode, "amqp:begin:list", "begin",
      fun f => .beginSession <$> Begin.ofFields f⟩,
    ⟨Descriptor.attachCode, "amqp:attach:list", "attach",
      fun f => .attach <$> Attach.ofFields f⟩,
    ⟨Descriptor.flowCode, "amqp:flow:list", "flow",
      fun f => .flow <$> Flow.ofFields f⟩,
    ⟨Descriptor.transferCode, "amqp:transfer:list", "transfer",
      fun f => .transfer <$> Transfer.ofFields f⟩,
    ⟨Descriptor.dispositionCode, "amqp:disposition:list", "disposition",
      fun f => .disposition <$> Disposition.ofFields f⟩,
    ⟨Descriptor.detachCode, "amqp:detach:list", "detach",
      fun f => .detach <$> Detach.ofFields f⟩,
    ⟨Descriptor.endCode, "amqp:end:list", "end",
      fun f => .endSession <$> f.nested 0 ErrorReport.ofValue⟩,
    ⟨Descriptor.closeCode, "amqp:close:list", "close",
      fun f => .closeConnection <$> f.nested 0 ErrorReport.ofValue⟩]

end Performative

end MessageBroker
