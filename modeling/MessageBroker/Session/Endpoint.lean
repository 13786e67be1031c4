import MessageBroker.Link.Basic
import MessageBroker.Queue.Consumer
import MessageBroker.Session.Assembly

/-!
# Endpoints

An endpoint is the broker's end of a link and what stands behind it: a queue that messages go to
or come from, a browser of a queue, the coordinator of transactions, or nothing if the attach was
refused.
-/

namespace MessageBroker

/-- What stands behind the broker's end of a link. -/
inductive EndpointKind where
  /-- Messages from the peer go to a queue. -/
  | receiving (queue : QueueId)
  /-- Messages from the peer control transactions. -/
  | coordinator
  /-- Messages of a queue go to the peer. -/
  | consuming (queue : QueueId)
  /-- Copies of the messages of a queue go to the peer. -/
  | browsing (browser : Browser)
  /-- Nothing: the attach was refused. -/
  | refused
  deriving DecidableEq, Repr

/-- The broker's end of a link. -/
structure Endpoint where
  /-- The link. -/
  link : Link
  /-- What stands behind it. -/
  kind : EndpointKind
  /-- The delivery whose last transfer has not arrived. -/
  assembly : Option Assembly

namespace EndpointKind

/-- The queue at an address. -/
def queueAt (store : QueueStore) : Option String → Except ErrorReport QueueId
  | none => .error (.of .notFound "attach names no node address")
  | some address =>
    match store.find? address with
    | some queue => .ok queue
    | none => .error (.of .notFound s!"node '{address}' not found")

/-- What the peer's attach asks for. -/
def ofAttach (store : QueueStore) (attach : Attach) : Except ErrorReport EndpointKind :=
  match attach.role with
  | .sender =>
    match attach.target with
    | some (.coordinator _) => .ok .coordinator
    | some (.node node) => .receiving <$> queueAt store node.address
    | none => .error (.of .notFound "attach has no target")
  | .receiver => do
    let queue ← queueAt store (attach.source.bind (·.address))
    if attach.source.any Source.isBrowser then return .browsing (.new queue)
    else return .consuming queue

/-- Whether messages go to the peer. -/
def isSending : EndpointKind → Bool
  | .consuming _ => true
  | .browsing _ => true
  | _ => false

/-- Whether messages come from the peer. -/
def isReceiving : EndpointKind → Bool
  | .receiving _ => true
  | .coordinator => true
  | _ => false

/-- How many messages wait to go to the peer; a browser only tells whether one does. -/
def waiting (store : QueueStore) : EndpointKind → Option UInt32
  | .consuming queue => some (.ofNat (min (store.available queue) (UInt32.size - 1)))
  | .browsing browser => some (if browser.hasNext store then 1 else 0)
  | _ => none

end EndpointKind

namespace Endpoint

/-- An endpoint with its link changed. -/
def onLink (endpoint : Endpoint) (change : Link → Link) : Endpoint :=
  { endpoint with link := change endpoint.link }

/-- Settles a delivery. -/
def settle (endpoint : Endpoint) (id : UInt32) : Endpoint :=
  endpoint.onLink (·.settle id)

/-- The outcome of deliveries that the peer settles without one. -/
def defaultOutcome (endpoint : Endpoint) : DeliveryState :=
  (endpoint.link.source.bind (·.defaultOutcome)).getD .accepted

/-! ### Sending -/

/-- A message chosen to be sent, and what choosing it changes. -/
structure Pick where
  /-- The message. -/
  entry : QueueEntry
  /-- The queue of the message. -/
  queue : QueueId
  /-- Whether the message stays available in its queue. -/
  copied : Bool
  /-- What stands behind the endpoint now. -/
  kind : EndpointKind
  /-- The queues now. -/
  store : QueueStore

/-- The next message to be sent, if one waits. -/
def pick? (endpoint : Endpoint) (store : QueueStore) : Option Pick :=
  match endpoint.kind with
  | .consuming queue =>
    match store.acquire queue with
    | (some entry, store) => some ⟨entry, queue, false, endpoint.kind, store⟩
    | (none, _) => none
  | .browsing browser =>
    match browser.next store with
    | (some entry, browser) => some ⟨entry, browser.queue, true, .browsing browser, store⟩
    | (none, _) => none
  | _ => none

/-! ### Receiving -/

/-- Begins a delivery with its first transfer: the assembly, or why there is none, and the link
as it is then. -/
def startDelivery (link : Link) (transfer : Transfer) : Except Fault Assembly × Link :=
  match transfer.deliveryId, transfer.deliveryTag with
  | some id, some tag =>
    match link.credit.onTransfer link.handle with
    | .error fault => (.error fault, link)
    | .ok credit =>
      let link := { link with credit }
      match link.settleMode transfer.rcvSettleMode with
      | .error report => (.error (.link link.handle report), link)
      | .ok settleMode =>
        let settled := transfer.settled.getD false
        let assembly := Assembly.start id tag settled settleMode transfer.state
        if settled then (.ok assembly, link)
        else
          match link.unsettled.insert tag id with
          | .error report => (.error (.link link.handle report), link)
          | .ok unsettled => (.ok assembly, { link with unsettled })
  | _, _ =>
    (.error (.onConnection .decodeError
      "first transfer of a delivery must carry delivery-id and delivery-tag"), link)

/-- Takes the assembly of the delivery that a transfer belongs to, which may begin with it, out of
the endpoint. -/
def takeAssembly (endpoint : Endpoint) (transfer : Transfer) :
    Except Fault Assembly × Endpoint :=
  match endpoint.assembly with
  | some assembly => (.ok (assembly.resume transfer), { endpoint with assembly := none })
  | none =>
    match startDelivery endpoint.link transfer with
    | (result, link) => (result, { endpoint with link })

end Endpoint

end MessageBroker
