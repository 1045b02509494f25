import MessageBroker.LocalNetwork
import MessageBroker.Log.Journal
import MessageBroker.Main
import MessageBroker.Net.Loopback
import MessageBroker.Proofs.Broker.Admission
import MessageBroker.Proofs.Broker.Attendance
import MessageBroker.Proofs.Broker.Digest
import MessageBroker.Proofs.Broker.Inlets
import MessageBroker.Proofs.Broker.Joining
import MessageBroker.Proofs.Broker.LastWill
import MessageBroker.Proofs.Broker.Leftovers
import MessageBroker.Proofs.Broker.Ordering
import MessageBroker.Proofs.Broker.Outbox
import MessageBroker.Proofs.Broker.Refusals
import MessageBroker.Proofs.Broker.Replies
import MessageBroker.Proofs.Broker.Segmentation
import MessageBroker.Proofs.Broker.Tending
import MessageBroker.Proofs.Broker.Transcript
import MessageBroker.Proofs.Broker.Transparency
import MessageBroker.Proofs.Broker.Views
import MessageBroker.Proofs.Client.Matching
import MessageBroker.Proofs.Connection.Allowance
import MessageBroker.Proofs.Connection.Framing
import MessageBroker.Proofs.Connection.Passes
import MessageBroker.Proofs.Connection.Residue
import MessageBroker.Proofs.Net.Firing
import MessageBroker.Proofs.Net.Levels
import MessageBroker.Proofs.Store.Expiry
import MessageBroker.Proofs.Subscription.Callbacks
import MessageBroker.Proofs.Subscription.Seniority
import MessageBroker.Proofs.Text.Expressions
import MessageBroker.Proofs.Wire.BlockingInput
import MessageBroker.Proofs.Wire.Reissue
import MessageBroker.Proofs.WorkerPool.Safety
import MessageBroker.WorkerPool.Settled
