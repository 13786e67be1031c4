import MessageBroker.Performative.Basic
import MessageBroker.Value.Encoding

/-!
# Encoding of performatives

Every performative is a composite.  Flags are written only if they are set, settle modes of a
link always, and fields that the broker does not use as null.
-/

namespace MessageBroker

/-- The value of an open. -/
def Open.toValue (p : Open) : Value :=
  composite Descriptor.openCode
    [.string p.containerId,
      fieldOf .string p.hostname,
      fieldOf .uint p.maxFrameSize,
      fieldOf .ushort p.channelMax,
      fieldOf .uint p.idleTimeOut]

/-- The value of a begin. -/
def Begin.toValue (p : Begin) : Value :=
  composite Descriptor.beginCode
    [fieldOf .ushort p.remoteChannel,
      .uint p.nextOutgoingId,
      .uint p.incomingWindow,
      .uint p.outgoingWindow,
      fieldOf .uint p.handleMax]

/-- The value of an attach. -/
def Attach.toValue (p : Attach) : Value :=
  composite Descriptor.attachCode
    [.string p.name,
      .uint p.handle,
      .bool p.role.isReceiver,
      .ubyte p.sndSettleMode.code,
      .ubyte p.rcvSettleMode.code,
      fieldOf Source.toValue p.source,
      fieldOf Target.toValue p.target,
      .null,
      .null,
      fieldOf .uint p.initialDeliveryCount,
      fieldOf .ulong p.maxMessageSize]

/-- The value of a flow. -/
def Flow.toValue (p : Flow) : Value :=
  composite Descriptor.flowCode
    [fieldOf .uint p.nextIncomingId,
      .uint p.incomingWindow,
      .uint p.nextOutgoingId,
      .uint p.outgoingWindow,
      fieldOf .uint p.handle,
      fieldOf .uint p.deliveryCount,
      fieldOf .uint p.linkCredit,
      fieldOf .uint p.available,
      flagField p.drain,
      flagField p.echo]

/-- The value of a transfer. -/
def Transfer.toValue (p : Transfer) : Value :=
  composite Descriptor.transferCode
    [.uint p.handle,
      fieldOf .uint p.deliveryId,
      fieldOf .binary p.deliveryTag,
      fieldOf .uint p.messageFormat,
      fieldOf .bool p.settled,
      flagField p.more,
      fieldOf (.ubyte ∘ ReceiverSettleMode.code) p.rcvSettleMode,
      fieldOf DeliveryState.toValue p.state,
      flagField p.resume,
      flagField p.aborted,
      flagField p.batchable]

/-- The value of a disposition. -/
def Disposition.toValue (p : Disposition) : Value :=
  composite Descriptor.dispositionCode
    [.bool p.role.isReceiver,
      .uint p.first,
      fieldOf .uint p.last,
      flagField p.settled,
      fieldOf DeliveryState.toValue p.state,
      flagField p.batchable]

/-- The value of a detach. -/
def Detach.toValue (p : Detach) : Value :=
  composite Descriptor.detachCode
    [.uint p.handle,
      flagField p.closed,
      fieldOf ErrorReport.toValue p.error]

namespace Performative

/-- The value of a performative. -/
def toValue : Performative → Value
  | .openConnection p => p.toValue
  | .beginSession p => p.toValue
  | .attach p => p.toValue
  | .flow p => p.toValue
  | .transfer p => p.toValue
  | .disposition p => p.toValue
  | .detach p => p.toValue
  | .endSession error => composite Descriptor.endCode [fieldOf ErrorReport.toValue error]
  | .closeConnection error => composite Descriptor.closeCode [fieldOf ErrorReport.toValue error]

/-- The encoding of a performative. -/
def encode (p : Performative) : Bytes :=
  p.toValue.encode

end Performative

end MessageBroker
