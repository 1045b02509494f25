import MessageBroker.Net.Multiplexer
import MessageBroker.Registry
import MessageBroker.Settings.Basic
import MessageBroker.Store

/-!
# The broker

The broker's state: the registry, the store, the number of the next message, the multiplexer that
watches the streams of the connections, and the tasks that wait for a worker. Publishing is here;
what clients ask for, and how connections are served and ended, is in the modules beside this one.

Model of `ServerContext` and of its `publish` (specification §10.6.6). `sweep`, `remove` and `clear`
are what its store and its registry offer to whoever runs the broker; `stopEvents`, `stopPool` and
`execute` are operations of the multiplexer and the pool, as far as a broker sees them.

Out of scope: tasks side by side. A task runs as a whole, one after the other, and the pool with its
workers has a model of its own (`WorkerPool`). Message numbers are natural numbers, where
`next_message_id` is a word of 64 bits that begins again at zero: runs in which 2^64 messages are
published are out of scope here and in every theorem about message numbers.
-/

namespace MessageBroker

/-- Work on a connection. -/
inductive Task
  /-- Reads what is there. -/
  | serve (id : ConnectionId)
  /-- Ends the connection, because its stream failed. -/
  | abort (id : ConnectionId)
deriving DecidableEq, Repr

/-- What is stopped while a stream is being read. -/
structure Halt where
  events : Bool := false
  pool : Bool := false
deriving DecidableEq, Repr

/-- The state of a broker. -/
structure Broker where
  settings : Settings
  registry : Registry
  store : Store := ∅
  /-- The number of the next message; it only grows. -/
  nextId : MessageId := 1
  multiplexer : Net.Multiplexer ConnectionId := {}
  /-- Work that waits for a worker, first come first served. -/
  tasks : List Task := []
  /-- The pool of workers takes no tasks any more. -/
  poolStopped : Bool := false
  /-- Streams of connections that were closed here. -/
  departed : Table ConnectionId Net.Stream := ∅
  /-- Connections whose number was taken from them for a stream that was refused then. They may
  still be under watch, but nothing reaches them any more. -/
  displaced : Table ConnectionId Connection := ∅
  /-- What will be stopped while a stream is read the next time. -/
  halts : Table ConnectionId Halt := ∅
  clock : Timestamp := 0
  /-- What has been reported. -/
  notices : List Notice := []

namespace Broker

/-- A broker that has just started. -/
def new (settings : Settings) (clock : Timestamp) : Broker :=
  { settings, registry := { lockTimeout := settings.broker.lockTimeout }, clock }

/-- Reports something. -/
def report (b : Broker) (n : Notice) : Broker := { b with notices := b.notices ++ [n] }

/-- Goes on with a registry that has something to report. -/
def withRegistry (b : Broker) (notices : List Notice) (registry : Registry) : Broker :=
  { b with registry, notices := b.notices ++ notices }

def connection? (b : Broker) (id : ConnectionId) : Option Connection :=
  b.registry.connections.get? id

/-- Puts a connection in place of itself. -/
def putConnection (b : Broker) (c : Connection) : Broker :=
  { b with registry := { b.registry with connections := b.registry.connections.insert c.id c } }

/-- A message with its number in its headers. -/
def stamped (m : Message) (id : MessageId) : Message :=
  m.withHeader Header.messageId.name (Text.decimal id)

/-- Whether a message that was routed has to be kept: somebody took it, and the destination waits
for acknowledgements. -/
def mustKeep (d : Delivery) : Bool := d.qos == some .atLeastOnce && d.delivered != 0

/-- Gives a message the next number, stores it and routes it; it stays in the store if it has to be
kept. -/
def publish (b : Broker) (m : Message) : Except BrokerError (MessageId × Delivery) × Broker :=
  match m.address? with
  | none => (.error (.protocol .publishWithoutDestination), b)
  | some _ =>
    let id := b.nextId
    let m := stamped m id
    let b := { b with nextId := id + 1, store := b.store.insert id m b.clock }
    let (outcome, notices, registry) := b.registry.deliver m
    let b := b.withRegistry notices registry
    match outcome with
    | .error e => (.error e, b)
    | .ok d => (.ok (id, d), if mustKeep d then b else { b with store := b.store.erase id })

/-- Drops the stored messages that have expired, and says how many. -/
def sweep (b : Broker) (expiry : Duration) : Nat × Broker :=
  let (n, store) := b.store.removeExpired b.clock expiry
  (n, { b with store })

/-- Drops a destination, and says whether there was one. -/
def remove (b : Broker) (name : String) : Bool × Broker :=
  let (s, notices, registry) := b.registry.remove name
  (s.isSome, b.withRegistry notices registry)

/-- Drops every destination. -/
def clear (b : Broker) : Broker :=
  let (notices, registry) := b.registry.clear
  b.withRegistry notices registry

/-- Watches no stream any more. -/
def stopEvents (b : Broker) : Broker := { b with multiplexer := b.multiplexer.stop }

/-- Takes no tasks any more; those that wait are dropped. -/
def stopPool (b : Broker) : Broker := { b with poolStopped := true, tasks := [] }

/-- Queues a task. -/
def execute (b : Broker) (t : Task) : Except PoolError Broker :=
  if b.poolStopped then .error .stopped else .ok { b with tasks := b.tasks ++ [t] }

end Broker

end MessageBroker
