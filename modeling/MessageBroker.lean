import MessageBroker.Broker.Basic
import MessageBroker.Config.Text
import MessageBroker.Message.Draft
import MessageBroker.Proofs.World.Intake
import MessageBroker.Proofs.World.Atomicity
import MessageBroker.Proofs.ShortString
import MessageBroker.Proofs.Connection.Basic
import MessageBroker.Proofs.Connection.Ending
import MessageBroker.Proofs.Broker
import MessageBroker.Proofs.Composite
import MessageBroker.Proofs.Frame.RoundTrip
import MessageBroker.Proofs.Queue.Conservation
import MessageBroker.Proofs.World.Redelivery
import MessageBroker.Proofs.World.Crediting
import MessageBroker.Proofs.World.Provisional
import MessageBroker.Proofs.Connection.Reading
import MessageBroker.Proofs.World.Parting
import MessageBroker.Proofs.Frame.Readers
import MessageBroker.Proofs.Connection.Output
import MessageBroker.Proofs.Broker.Waking
import MessageBroker.Proofs.World.Reassembly
import MessageBroker.Proofs.Value.Streaming
import MessageBroker.Proofs.Session.Runs
import MessageBroker.Proofs.World.Tags
import MessageBroker.Proofs.Connection.Sizes
import MessageBroker.Proofs.Value.Forms
import MessageBroker.Proofs.World.Replenishing
import MessageBroker.Proofs.World.Defaults
import MessageBroker.Proofs.World.Continuing
import MessageBroker.Proofs.Session.Coalescing
import MessageBroker.Proofs.World.Draining
import MessageBroker.Proofs.World.Recovery
import MessageBroker.Proofs.World.Refusals
import MessageBroker.Proofs.Connection.Channels
import MessageBroker.Proofs.World.Initial
import MessageBroker.Proofs.World.Pairing
import MessageBroker.Proofs.World.Browsing
import MessageBroker.Proofs.Message
import MessageBroker.Proofs.Value.Bounds
import MessageBroker.Proofs.Link.Indexes
import MessageBroker.Proofs.World.Admission
