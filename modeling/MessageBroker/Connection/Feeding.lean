import MessageBroker.Connection.Basic
import MessageBroker.Session.Handling

/-!
# Input of connections

What a connection does with the octets of the peer.  Nothing that the peer sends makes this fail:
a fault is answered by ending the session or closing the connection that it concerns, and what
arrives after that is passed over.
-/

namespace MessageBroker

namespace Hosting

/-- Changes the connection alone. -/
def onConnection (h : Hosting) (change : Connection → Connection) : Hosting :=
  { h with connection := change h.connection }

/-! ### Ends -/

/-- Ends the sessions of channels, in order. -/
def finishAll (channels : Table UInt16 SessionChannel) (store : QueueStore) : QueueStore :=
  channels.rows.foldl (fun store channel => (Serving.finish ⟨channel.session, store⟩).store) store

/-- Ends every session without telling the peer, because the peer is gone. -/
def shutdown (h : Hosting) : Hosting :=
  ⟨{ h.connection with channels := [], phase := .closed },
    finishAll h.connection.channels h.store⟩

/-- Ends every session and closes the connection. -/
def close (error : Option ErrorReport) (h : Hosting) : Hosting :=
  if h.connection.isClosed then h
  else
    let h := shutdown (h.onConnection Connection.collect)
    h.onConnection (·.send 0 (.closeConnection error))

/-- Ends a session and tells the peer, after what the session has to send. -/
def finishSession (channel : UInt16) (slot : SessionChannel) (error : Option ErrorReport)
    (h : Hosting) : Hosting :=
  let ended := Serving.finish ⟨slot.session, h.store⟩
  let connection :=
    { h.connection with channels := h.connection.channels.erase channel }
  ⟨(connection.sendAll slot.outgoing ended.session.takeOutput.1).send slot.outgoing
    (.endSession error), ended.store⟩

/-- Answers a fault of a session, or of the connection if the session is unknown. -/
def failSession (channel : UInt16) (report : ErrorReport) (h : Hosting) : Hosting :=
  match h.connection.channels.get? channel with
  | some slot => finishSession channel slot (some report) h
  | none => close (some report) h

/-- Answers a fault that arose on a channel, or before there was one. -/
def fail (channel : Option UInt16) (fault : Fault) (h : Hosting) : Hosting :=
  match fault, channel with
  | .session report, some channel => failSession channel report h
  | .session report, none => close (some report) h
  | .connection report, _ => close (some report) h
  | .decode error, _ => close (some (.of .decodeError error.message)) h
  | fault, _ => close (some (.of .internalError fault.message)) h

/-! ### Performatives -/

/-- The peer opens the connection: the limits of both ends hold from now on. -/
def onOpen (terms : Open) (h : Hosting) : Hosting :=
  h.onConnection fun connection =>
    let config := connection.config
    let maxFrameSize :=
      max (min (terms.maxFrameSize.getD 4294967295) config.maxFrameSize) leastMaxFrameSize
    let channelMax := min (terms.channelMax.getD 65535) config.channelMax
    let reply : Open :=
      { containerId := config.containerId
        hostname := none
        maxFrameSize := some config.maxFrameSize
        channelMax := some channelMax
        idleTimeOut := none }
    { connection.send 0 (.openConnection reply) with
      maxFrameSize
      channelMax
      peer := some terms.containerId
      phase := .opened }

/-- The peer begins a session on a channel. -/
def onBegin (channel : UInt16) (terms : Begin) (h : Hosting) : Except Fault Hosting :=
  let connection := h.connection
  if connection.channels.has channel then
    .error (.onConnection .illegalState s!"channel {channel} already has a session")
  else if channel > connection.channelMax then
    .error (.onConnection .framingError
      s!"channel {channel} exceeds channel-max {connection.channelMax}")
  else
    let outgoing := connection.freeChannel
    let session :=
      Session.ofBegin terms (connection.config.sessionLimits connection.maxFrameSize)
    let connection := connection.send outgoing (.beginSession (session.localBegin channel))
    .ok { h with
      connection := { connection with
        channels := connection.channels.put channel ⟨outgoing, session⟩ } }

/-- The peer ends the session on a channel. -/
def onEnd (channel : UInt16) (h : Hosting) : Except Fault Hosting :=
  match h.connection.channels.get? channel with
  | some slot => .ok (finishSession channel slot none h)
  | none => .error (.onConnection .illegalState s!"end on channel {channel} with no session")

/-- Does an operation of a session; the fault that it ends in, if it does. -/
def operate (channel : UInt16) (slot : SessionChannel) (operation : Operation Unit)
    (h : Hosting) : Option Fault × Hosting :=
  let put (s : Serving) : Hosting :=
    ⟨{ h.connection with
        channels := h.connection.channels.put channel { slot with session := s.session } },
      s.store⟩
  match operation ⟨slot.session, h.store⟩ with
  | .ok () s => (none, put s)
  | .error fault s => (some fault, put s)

/-- The peer has sent a performative to the session on a channel. -/
def onSessionPerformative (channel : UInt16) (p : Performative) (payload : Bytes)
    (h : Hosting) : Option Fault × Hosting :=
  match h.connection.channels.get? channel with
  | some slot => operate channel slot (Operation.handle p payload) h
  | none =>
    (some (.onConnection .illegalState s!"{p.name} on channel {channel} with no session"), h)

/-- The result of an operation that changes nothing if it is at fault. -/
def unlessFault (h : Hosting) : Except Fault Hosting → Option Fault × Hosting
  | .ok h => (none, h)
  | .error fault => (some fault, h)

/-- The peer has sent a performative on a channel: the fault, if there is one, and the connection
after it. -/
def process (channel : UInt16) (p : Performative) (payload : Bytes) (h : Hosting) :
    Option Fault × Hosting :=
  match h.connection.phase, p with
  | .awaitingOpen, .openConnection terms => (none, onOpen terms h)
  | .awaitingOpen, _ =>
    (some (.onConnection .illegalState s!"expected open, received {p.name}"), h)
  | _, .openConnection _ =>
    (some (.onConnection .illegalState "connection is already open"), h)
  | _, .closeConnection _ => (none, close none h)
  | _, .beginSession terms => h.unlessFault (onBegin channel terms h)
  | _, .endSession _ => h.unlessFault (onEnd channel h)
  | _, _ => onSessionPerformative channel p payload h

/-! ### Frames -/

/-- The peer has sent a frame.  Heartbeats, and frames after the end, are passed over. -/
def onFrame (h : Hosting) (frame : Frame) : Hosting :=
  if h.connection.isClosed || frame.isHeartbeat then h
  else
    let channel := frame.header.channel
    match decodeBody frame.body with
    | .error error => fail (some channel) (.decode error) h
    | .ok (p, payload) =>
      match process channel p payload h with
      | (none, h) => h
      | (some fault, h) => fail (some channel) fault h

/-- Sends what waits in the queues on every session, in the order of the peer's channels. -/
def pumpSessions (h : Hosting) : Hosting :=
  h.connection.channels.keys.foldl
    (fun h channel =>
      match h.connection.channels.get? channel with
      | some slot => (operate channel slot (modify Serving.pumpAll) h).2
      | none => h)
    h

/-- Sends what waits in the queues, if the connection is open. -/
def pump (h : Hosting) : Hosting :=
  if h.connection.phase = .opened then h.pumpSessions.onConnection Connection.collect else h

/-- The peer has sent octets after its protocol header. -/
def feedFrames (octets : Bytes) (h : Hosting) : Hosting :=
  if h.connection.isClosed || octets.isEmpty then h
  else
    match h.connection.frames.push octets with
    | (.error fault, frames) => fail none fault (h.onConnection ({ · with frames }))
    | (.ok arrived, frames) =>
      (arrived.foldl onFrame (h.onConnection ({ · with frames }))).pump

/-- The peer has sent octets. -/
def feed (octets : Bytes) (h : Hosting) : Hosting :=
  if h.connection.phase = .awaitingHeader then
    let wanted := protocolHeader.length - h.connection.header.length
    let header := h.connection.header ++ octets.take wanted
    if header.length < protocolHeader.length then h.onConnection ({ · with header })
    else
      let phase := if header = protocolHeader then .awaitingOpen else .closed
      feedFrames (octets.drop wanted)
        (h.onConnection fun connection =>
          { connection with header, phase, output := connection.output ++ [.header] })
  else feedFrames octets h

/-! ### Recovery -/

/-- Takes back what the peer has not settled on the session of a channel; tells what became of
each message, or nothing if there is no such session. -/
def recover (channel : UInt16) (h : Hosting) : Option (List ReleaseOutcome) × Hosting :=
  match h.connection.channels.get? channel with
  | none => (none, h)
  | some slot =>
    let (outcomes, s) := Serving.recover ⟨slot.session, h.store⟩
    (some outcomes,
      ⟨{ h.connection with
          channels := h.connection.channels.put channel { slot with session := s.session } },
        s.store⟩)

end Hosting

end MessageBroker
