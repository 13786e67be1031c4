import MessageBroker.Frame.Buffer
import MessageBroker.Frame.Codec
import MessageBroker.Session.Basic

/-!
# Connections

A connection carries sessions between the broker and one peer.  Both send the protocol header and
an open first, and a close last.  A session is found by the channel on which the peer sends; the
broker sends on a channel of its own, the least that is free.  What is to be sent is gathered as
emissions and becomes octets when it is taken.
-/

namespace MessageBroker

/-- How far a connection has come. -/
inductive ConnectionPhase where
  /-- The protocol header of the peer has not arrived. -/
  | awaitingHeader
  /-- The open of the peer has not arrived. -/
  | awaitingOpen
  /-- Sessions can be begun. -/
  | opened
  /-- Nothing is sent or taken any more. -/
  | closed
  deriving DecidableEq, Repr

/-- The name of a phase. -/
def ConnectionPhase.name : ConnectionPhase → String
  | .awaitingHeader => "AwaitingHeader"
  | .awaitingOpen => "AwaitingOpen"
  | .opened => "Opened"
  | .closed => "Closed"

/-- A session and the channel on which the broker sends for it. -/
structure SessionChannel where
  /-- The channel on which the broker sends. -/
  outgoing : UInt16
  /-- The session. -/
  session : Session

/-- Something to be sent on a connection. -/
inductive Emission where
  /-- The protocol header. -/
  | header
  /-- A frame. -/
  | frame (channel : UInt16) (content : Outgoing)

/-- The octets of an emission. -/
def Emission.octets : Emission → Bytes
  | .header => protocolHeader
  | .frame channel content =>
    (encodeFrame channel content.performative content.payload).flatten

/-- A connection. -/
structure Connection where
  /-- What the broker is told about itself. -/
  config : BrokerConfig
  /-- How far the connection has come. -/
  phase : ConnectionPhase
  /-- The octets of the peer's protocol header that have arrived. -/
  header : Bytes
  /-- The octets that have arrived after it. -/
  frames : FrameBuffer
  /-- The size of the largest frame that the broker sends. -/
  maxFrameSize : UInt32
  /-- The greatest channel number that the peer may use. -/
  channelMax : UInt16
  /-- The name of the peer. -/
  peer : Option String
  /-- The sessions, by the channel on which the peer sends. -/
  channels : Table UInt16 SessionChannel
  /-- What is to be sent, in order, but for what the sessions have to send. -/
  output : List Emission

namespace Connection

/-- A connection on which nothing has arrived. -/
def start (config : BrokerConfig) : Connection where
  config
  phase := .awaitingHeader
  header := []
  frames := .empty config.maxFrameSize
  maxFrameSize := config.maxFrameSize
  channelMax := config.channelMax
  peer := none
  channels := []
  output := []

/-- Whether nothing is sent or taken any more. -/
def isClosed (connection : Connection) : Bool :=
  connection.phase = .closed

/-- The session on a channel of the peer. -/
def session? (connection : Connection) (channel : UInt16) : Option Session :=
  (connection.channels.get? channel).map (·.session)

/-- Puts a number in its place among numbers in ascending order. -/
def place (number : UInt16) : List UInt16 → List UInt16
  | [] => [number]
  | first :: others =>
    if number ≤ first then number :: first :: others else first :: place number others

/-- The channels on which the broker sends, in ascending order. -/
def ascending (connection : Connection) : List UInt16 :=
  (connection.channels.rows.map (·.outgoing)).foldr place []

/-- Counts along with numbers in ascending order, from `candidate` on: the first number that is
left out. -/
def firstGap (candidate : UInt16) : List UInt16 → UInt16
  | [] => candidate
  | number :: numbers =>
    if number = candidate then firstGap (candidate + 1) numbers else candidate

/-- The least channel on which the broker does not send. -/
def freeChannel (connection : Connection) : UInt16 :=
  firstGap 0 connection.ascending

/-! ### Output -/

/-- Sends a performative without payload on a channel. -/
def send (connection : Connection) (channel : UInt16) (p : Performative) : Connection :=
  { connection with output := connection.output ++ [.frame channel ⟨p, none⟩] }

/-- Sends what a session has to send. -/
def sendAll (connection : Connection) (channel : UInt16) (contents : List Outgoing) :
    Connection :=
  { connection with output := connection.output ++ contents.map (.frame channel) }

/-- Gathers what every session has to send, in the order of the peer's channels. -/
def collect (connection : Connection) : Connection :=
  { connection with
    channels := connection.channels.map fun (number, channel) =>
      (number, { channel with session := channel.session.takeOutput.2 })
    output := connection.output ++ connection.channels.flatMap fun (_, channel) =>
      channel.session.takeOutput.1.map (.frame channel.outgoing) }

/-- Takes what is to be sent. -/
def takeOutput (connection : Connection) : List Emission × Connection :=
  let connection := connection.collect
  (connection.output, { connection with output := [] })

end Connection

/-! ### Connections at work -/

/-- A connection and the queues of its broker, on which its sessions work. -/
structure Hosting where
  /-- The connection. -/
  connection : Connection
  /-- The queues. -/
  store : QueueStore

end MessageBroker
