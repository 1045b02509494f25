import MessageBroker.Broker.Handling

/-!
# Serving connections

A stream that has something to tell puts a task into the queue. The task reads a pass, handles its
frames in order, and then arms the watch again, queues another task if the pass stopped early, or
ends the connection. Ending a connection takes it out of everything it was in; if it ends
abnormally, its last will is published afterwards.

Model of `add_connection` (`accept`), `on_event` (`onEvent`), `on_readable` (`serve`, its loop over
the frames `handleAll`, what follows them `goOn`), `teardown` (`tearDown`; specification §5,
§10.6.7) and the part of the server's `stop` that is about the broker (`shutDown`). `displaced` has
the connections whose number went to a stream that was refused then, and `departed` the streams of
those that ended.

Out of scope: other threads inside a task. Two things that they can do there are kept all the same:
a delivery elsewhere holds the lock of its subscription, and `halts` says beforehand what is stopped
while a stream is read. `signal` is one cycle of the multiplexer with one event; `settle` performs
the tasks in their order.
-/

namespace MessageBroker.Broker

/-- Publishes the last will of a connection that has gone. -/
def publishWill (b : Broker) (c : Connection) : Broker :=
  match c.session.lastWill with
  | none => b
  | some will =>
    match b.publish will.toMessage with
    | (.ok _, b) => b
    | (.error e, b) => b.report (.willFailed c.name will.destination e)

/-- Takes a closed connection out of the multiplexer, the registry and the destinations. -/
def withdraw (b : Broker) (c : Connection) : Broker :=
  let b := { b with multiplexer := b.multiplexer.forget c.id }
  let (_, notices, registry) := b.registry.removeConnection c.id
  { b.withRegistry notices registry with departed := b.departed.insert c.id c.stream }

/-- Publishes the last will of a connection that has gone abnormally, and reports its end. -/
def conclude (b : Broker) (c : Connection) (abnormal : Bool) : Broker :=
  let b := if abnormal then b.publishWill c else b
  if c.isConnected then b.report (.disconnected c.name) else b

/-- Ends a connection that has been displaced, if there is one with that number. -/
def dismiss (b : Broker) (id : ConnectionId) (abnormal : Bool) : Broker :=
  match b.displaced.get? id with
  | none => b
  | some c =>
    let b := { b with
      displaced := b.displaced.erase id
      multiplexer := b.multiplexer.forget id }
    b.conclude c abnormal

/-- Ends a connection; one that has ended already is left alone. -/
def tearDown (b : Broker) (id : ConnectionId) (abnormal : Bool) : Broker :=
  match b.connection? id with
  | none => b.dismiss id abnormal
  | some c =>
    match c.close with
    | (false, _) => b
    | (true, c) => ((b.putConnection c).withdraw c).conclude c abnormal

/-- Remembers the connection with that number, which is about to lose it. -/
def displace (b : Broker) (id : ConnectionId) : Broker :=
  match b.connection? id with
  | none => b
  | some c => { b with displaced := b.displaced.insert id c }

/-- Accepts a stream under a number: registers the connection and watches the stream. -/
def accept (b : Broker) (id : ConnectionId) (stream : Net.Stream) :
    Except BrokerError Unit × Broker :=
  let c := Connection.new id stream b.settings.listener.maxPacketSize.toWord32
  let b := b.displace id
  let b := { b with
    registry := b.registry.addConnection c
    departed := b.departed.erase id
    halts := b.halts.erase id }
  let registers := b.multiplexer.registering id false stream.registers
  match b.multiplexer.watch id registers id .oneShot with
  | .ok multiplexer => (.ok (), { b with multiplexer, displaced := b.displaced.erase id })
  | .error e =>
    let (_, notices, registry) := b.registry.removeConnection id
    (.error (.net e),
      { b.withRegistry notices registry with departed := b.departed.insert id stream.close })

/-- Handles frames in order. Says whether the connection goes on; if not, it has been ended. -/
def handleAll (id : ConnectionId) : List Message → Broker → Bool × Broker
  | [], b => (true, b)
  | m :: ms, b =>
    match b.connection? id with
    | none => (false, b)
    | some c =>
      match b.handle c m with
      | (.ok .continue, b) => handleAll id ms b
      | (.ok .disconnect, b) => (false, b.tearDown id false)
      | (.error e, b) =>
        let who := match b.connection? id with
          | some c => c.name
          | none => c.name
        if e.isFatal then (false, (b.report (.ended who e)).tearDown id true)
        else handleAll id ms (b.report (.refused who e))

/-- Stops what is to be stopped while the stream is read. -/
def applyHalt (b : Broker) (id : ConnectionId) : Broker :=
  match b.halts.get? id with
  | none => b
  | some h =>
    let b := { b with halts := b.halts.erase id }
    let b := if h.events then b.stopEvents else b
    if h.pool then b.stopPool else b

/-- What follows a pass whose frames have been handled and after which the connection goes on. -/
def goOn (b : Broker) (c : Connection) (pass : ReadPass) : Broker :=
  match pass.error with
  | some e => (b.report (.ended c.name e)).tearDown c.id true
  | none =>
    if pass.ended then b.tearDown c.id true
    else if pass.more then
      match b.execute (.serve c.id) with
      | .ok b => b
      | .error e => (b.report (.notRequeued c.name e)).tearDown c.id (!b.multiplexer.stopped)
    else
      match b.multiplexer.watch c.id c.stream.registers c.id .oneShot with
      | .ok multiplexer => { b with multiplexer }
      | .error e => (b.report (.notRearmed c.name e)).tearDown c.id (!b.multiplexer.stopped)

/-- Reads what a connection has sent and handles it. -/
def serve (b : Broker) (id : ConnectionId) : Broker :=
  match b.connection? id with
  | none => b
  | some c =>
    if c.isClosed then b
    else
      let (pass, c) := c.readPass
      let (goes, b) := handleAll id pass.messages ((b.applyHalt id).putConnection c)
      if goes then
        match b.connection? id with
        | none => b
        | some c => b.goOn c pass
      else b

/-- Performs a task. -/
def perform (b : Broker) : Task → Broker
  | .serve id => b.serve id
  | .abort id => b.tearDown id true

/-- The task that an event asks for. -/
def taskFor (id : ConnectionId) (flags : Net.Flags) : Task :=
  if flags.error && !flags.data then .abort id else .serve id

/-- What the multiplexer's handler does about an event: it queues a task, or lets the watch go if
there are no workers any more. -/
def onEvent : Net.Handler Broker ConnectionId := fun b flags id =>
  match b.execute (taskFor id flags) with
  | .ok b => ⟨b, [], .continue⟩
  | .error e =>
    let who := ((b.connection? id).map Connection.name).getD ""
    ⟨b.report (.eventLost who e), [], .forget⟩

/-- The primitive reports an event of a stream. A stream that was refused is not registered with it,
whatever is under watch with its number. -/
def signal (b : Broker) (id : ConnectionId) (flags : Net.Flags) : Broker :=
  if b.displaced.contains id then b
  else
    let (_, b, multiplexer) :=
      Net.Multiplexer.poll onEvent (fun _ => false) (.ok [(id, flags)]) b b.multiplexer
    { b with multiplexer }

/-- Changes the stream of a connection. -/
def modifyStream (b : Broker) (id : ConnectionId) (f : Net.Stream → Net.Stream) : Broker :=
  match b.connection? id with
  | some c => b.putConnection { c with stream := f c.stream }
  | none => { b with departed := b.departed.modify id f }

/-- How much work there is at most: the tasks that wait, and what there is to read. -/
def workload (b : Broker) : Nat :=
  b.registry.connections.values.foldl (fun n c => n + c.stream.load) b.tasks.length

/-- Performs at most so many tasks. -/
def work : Nat → Broker → Broker
  | 0, b => b
  | n + 1, b =>
    match b.tasks with
    | [] => b
    | t :: ts => work n ({ b with tasks := ts }.perform t)

/-- Performs tasks until none is left. -/
def settle (b : Broker) : Broker := work b.workload b

/-- Delivers to a destination through a sink that runs `around` for every member while the delivery
holds the subscription's lock. Gives the number of members. -/
def deliverAround (b : Broker) (name : String) (around : Broker → Broker) :
    Option (Except BrokerError Nat × Broker) :=
  (b.registry.subscription? name).map fun s =>
    match s.begin with
    | .error e => (.error (.lockTimeout e), b)
    | .ok (targets, held) =>
      let b := { b with registry := b.registry.putSubscription name held }
      let b := targets.foldl (fun b _ => around b) b
      (.ok targets.length, { b with registry := b.registry.finishDelivery name })

/-- Stops the broker: no more events, every connection ended, every destination dropped, no more
work. -/
def shutDown (b : Broker) : Broker :=
  let b := b.stopEvents
  let b := b.registry.connections.keys.foldl (fun b id => b.tearDown id false) b
  b.clear.stopPool

end MessageBroker.Broker
