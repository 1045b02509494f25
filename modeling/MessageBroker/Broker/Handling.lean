import MessageBroker.Broker.Basic

/-!
# What clients ask for

A frame is handled by its type: logging in, joining and leaving destinations, publishing,
acknowledging. Until its login has been accepted a client may do nothing else. A frame that was
handled is answered with its acknowledgement, unless answers are turned off; a ping always is.

Model of `handle` (specification §10.6.1, §10.6.3 to §10.6.6) and of what it calls: `on_connect`
(`connect`), `on_subscribe` (`subscribe`, its loop `joinAll`), `on_unsubscribe` (`unsubscribe`, its
loop `leaveAll`), `on_ack` (`acknowledge`), `publish` and `reply`. `handle` without its last line is
`carryOut`. The clock that a client id is made up from is that of the broker. Out of scope: lines of
the debug log, and what another thread does between two destinations of one request.
-/

namespace MessageBroker

/-- How a connection goes on after a frame. -/
inductive Flow
  | «continue»
  | disconnect
deriving DecidableEq, Repr

namespace Broker

/-- Whether a login has the name and the password that are asked for. -/
def authorizes (s : BrokerSettings) (m : Message) : Bool :=
  s.allowsAnonymous ||
    m.header? Header.username.name == some s.username &&
      m.header? Header.password.name == some s.password

/-- The client id that a login asks for, or one made up. -/
def clientIdOf (b : Broker) (id : ConnectionId) (m : Message) : String :=
  match (m.header? Header.clientId.name).filter fun x => !x.isEmpty with
  | some clientId => clientId
  | none => "smq-" ++ Text.decimal id ++ "-" ++ Text.integer b.clock.toInt

/-- The last will that a login leaves. -/
def lastWillOf (m : Message) : Option LastWill :=
  ((m.header? Header.lastWillDestination.name).filter fun d => !d.isEmpty).map fun destination =>
    { destination, text := (m.header? Header.lastWillMessage.name).getD "" }

/-- The session that a login opens. -/
def sessionOf (clientId : String) (m : Message) : Session :=
  { clientId := some clientId
    username := m.header? Header.username.name
    lastWill := lastWillOf m }

/-- Logs a client in. -/
def connect (b : Broker) (c : Connection) (m : Message) : Except BrokerError Unit × Broker :=
  if c.isConnected then (.error (.protocol .duplicateConnect), b)
  else if authorizes b.settings.broker m then
    let clientId := b.clientIdOf c.id m
    match b.registry.claim c.id clientId with
    | .error e => (.error e, b)
    | .ok registry =>
      let c := { c with session := sessionOf clientId m }
      (.ok (), ({ b with registry }.putConnection c).report (.connected c.name c.stream.peer))
  else
    (.error .notAuthorized, b.report (.loginFailed c.name (m.header? Header.username.name)))

/-- Joins destinations in turn, until one cannot be joined. -/
def joinAll (id : ConnectionId) (type : DestinationType) (qos : QoS) :
    List String → Broker → Except BrokerError Unit × Broker
  | [], b => (.ok (), b)
  | name :: names, b =>
    match b.registry.subscribe id name type qos with
    | (.ok _, notices, registry) => joinAll id type qos names (b.withRegistry notices registry)
    | (.error e, notices, registry) => (.error e, b.withRegistry notices registry)

/-- The type of destination that a request names, a topic if it names none. -/
def requestedType (m : Message) : Except ProtocolError DestinationType :=
  match m.header? Header.destinationType.name with
  | some text => DestinationType.read text
  | none => .ok .topic

/-- The level that a request names, the lower one if it names none. -/
def requestedQoS (m : Message) : Except ProtocolError QoS :=
  match m.header? Header.qos.name with
  | some text => QoS.read text
  | none => .ok .atMostOnce

/-- Makes a client a member of the destinations that it names. -/
def subscribe (b : Broker) (c : Connection) (m : Message) : Except BrokerError Unit × Broker :=
  match m.address? with
  | none => (.error (.protocol .subscribeWithoutDestination), b)
  | some names =>
    match requestedType m, requestedQoS m with
    | .error e, _ => (.error (.protocol e), b)
    | .ok _, .error e => (.error (.protocol e), b)
    | .ok type, .ok qos => b.joinAll c.id type qos (Text.commaNames names)

/-- Leaves destinations in turn, until one cannot be left. -/
def leaveAll (id : ConnectionId) : List String → Broker → Except BrokerError Unit × Broker
  | [], b => (.ok (), b)
  | name :: names, b =>
    match b.registry.unsubscribe id name with
    | (.ok _, registry) => leaveAll id names { b with registry }
    | (.error e, registry) => (.error (.lockTimeout e), { b with registry })

/-- Takes a client off the destinations that it names, or off all of them if it names none. -/
def unsubscribe (b : Broker) (c : Connection) (m : Message) : Except BrokerError Unit × Broker :=
  leaveAll c.id (match m.address? with
    | some names => Text.commaNames names
    | none => c.destinations.keys) b

/-- Erases the message that a client acknowledges. -/
def acknowledge (b : Broker) (c : Connection) (m : Message) : Broker :=
  match m.messageId? with
  | some id => { b with store := b.store.erase id }
  | none => b.report (.ackWithoutId c.name)

/-- Answers a request of a type. -/
def reply (b : Broker) (id : ConnectionId) (t : MessageType) : Except BrokerError Unit × Broker :=
  match t.answer with
  | none => (.ok (), b)
  | some answer =>
    if b.settings.broker.sendAcks || t == .ping then
      match b.connection? id with
      | none => (.error (.connectionGone id), b)
      | some c =>
        let (outcome, c) := c.send { type := answer }
        (outcome, b.putConnection c)
    else (.ok (), b)

/-- Does what a frame asks for, without the answer. -/
def carryOut (b : Broker) (c : Connection) (m : Message) : Except BrokerError Flow × Broker :=
  let going (r : Except BrokerError Unit × Broker) : Except BrokerError Flow × Broker :=
    (r.1.map fun _ => .continue, r.2)
  if m.type != .connect && !c.isConnected then (.error (.protocol (.beforeConnect m.type)), b)
  else
    match m.type with
    | .connect => going (b.connect c m)
    | .subscribe => going (b.subscribe c m)
    | .unsubscribe => going (b.unsubscribe c m)
    | .message =>
      let (outcome, b) := b.publish m
      (outcome.map fun _ => .continue, b)
    | .ack => (.ok .continue, b.acknowledge c m)
    | .ping => (.ok .continue, b)
    | .disconnect => (.ok .disconnect, b)
    | t => (.error (.protocol (.unexpectedFromClient t)), b)

/-- Handles a frame of a client and answers it. -/
def handle (b : Broker) (c : Connection) (m : Message) : Except BrokerError Flow × Broker :=
  match b.carryOut c m with
  | (.ok .continue, b) =>
    let (outcome, b) := b.reply c.id m.type
    (outcome.map fun _ => .continue, b)
  | r => r

end Broker

end MessageBroker
