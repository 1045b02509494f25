import MessageBroker.Broker.Service

/-!
# The server

A server is a broker behind a listener. The listener numbers the streams it accepts from one on and
refuses those for which there is no room; a sweeper drops stored messages that have expired; and
stopping the server ends every connection, once.

Model of `SmqServer`: `start`, `on_accept` (`accept`), the sweeper (`sweep`) and `stop`. Out of
scope: the listener's socket and the threads that accept and sweep; a stream that arrives and a look
of the sweeper are one step each.
-/

namespace MessageBroker

/-- A server that was started. -/
structure Server where
  broker : Broker
  /-- The number of the next stream. -/
  nextConnection : ConnectionId := 1
  stopped : Bool := false

namespace Server

/-- Starts a server, if its address can be listened on. -/
def start (settings : Settings) (clock : Timestamp) (listens : Except IoFailure Unit) :
    Except NetError Server :=
  match listens with
  | .error cause => .error (.io cause)
  | .ok () => .ok { broker := .new settings clock }

/-- Whether there are as many connections as there may be. -/
def isFull (s : Server) : Bool :=
  let limit := s.broker.settings.listener.maxConnections
  limit != 0 && decide (limit ≤ s.broker.registry.connections.size)

/-- A stream arrives. It is closed at once if there is no room or it cannot be watched; gives its
number. -/
def accept (s : Server) (stream : Net.Stream) : ConnectionId × Server :=
  let id := s.nextConnection
  let s := { s with nextConnection := id + 1 }
  if s.isFull then
    let limit := s.broker.settings.listener.maxConnections
    (id, { s with broker := s.broker.report (.turnedAway limit stream.peer) })
  else
    match s.broker.accept id stream with
    | (.ok (), broker) => (id, { s with broker })
    | (.error e, broker) => (id, { s with broker := broker.report (.notAccepted e) })

/-- Whether stored messages expire at all. -/
def sweeps (s : Server) : Bool :=
  let settings := s.broker.settings.broker
  !settings.messageExpiry.isZero && !settings.sweepInterval.isZero

/-- The sweeper looks at the store. -/
def sweep (s : Server) : Server :=
  if s.sweeps then
    { s with broker := (s.broker.sweep s.broker.settings.broker.messageExpiry).2 }
  else s

/-- Time passes. -/
def passTime (s : Server) (span : Duration) : Server :=
  { s with broker := { s.broker with clock := s.broker.clock + Int64.ofNat span.millis } }

/-- Stops the server; one that was stopped is left alone. -/
def stop (s : Server) : Server :=
  if s.stopped then s else { s with broker := s.broker.shutDown, stopped := true }

end Server

end MessageBroker
