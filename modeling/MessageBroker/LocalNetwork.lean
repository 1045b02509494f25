import MessageBroker.Client
import MessageBroker.Server

/-!
# Clients and a server on one host

Clients reach the server over the network of the host they share, if there is one. What a client
writes is served before anything else happens, and what the broker writes reaches its clients then,
so a wait either finds its answer or never will.
-/

namespace MessageBroker

/-- A client and the number under which the server accepted it. -/
structure Endpoint where
  connection : ConnectionId
  client : Client := {}

/-- A server with its clients, by name. -/
structure LocalNetwork where
  server : Server
  /-- Whether there is a way from a client to the server. -/
  reachable : Bool := true
  endpoints : Table String Endpoint := ∅

namespace LocalNetwork

/-- The stream of a connection, as long as the broker has known it. -/
def stream? (n : LocalNetwork) (id : ConnectionId) : Option Net.Stream :=
  match n.server.broker.connection? id with
  | some c => some c.stream
  | none => n.server.broker.departed.get? id

/-- Whether the broker has let a connection go. -/
def hasForgotten (n : LocalNetwork) (id : ConnectionId) : Bool :=
  (n.server.broker.connection? id).isNone

def modifyBroker (n : LocalNetwork) (f : Broker → Broker) : LocalNetwork :=
  { n with server := { n.server with broker := f n.server.broker } }

def modifyClient (n : LocalNetwork) (name : String) (f : Client → Client) : LocalNetwork :=
  { n with endpoints := n.endpoints.modify name fun e => { e with client := f e.client } }

/-- What the broker wrote to one client reaches it, and so does the end of its stream. -/
def collectFor (n : LocalNetwork) (name : String) (e : Endpoint) : LocalNetwork :=
  match n.stream? e.connection with
  | none => n.modifyClient name Client.hangUp
  | some stream =>
    let n := n.modifyBroker fun b => b.modifyStream e.connection fun s => s.collect.2
    n.modifyClient name fun c =>
      let c := c.feed stream.collect.1
      if stream.closed then c.hangUp else c

/-- What the broker wrote reaches its clients. -/
def exchange (n : LocalNetwork) : LocalNetwork :=
  n.endpoints.entries.foldl (fun n e => n.collectFor e.1 e.2) n

/-- Something happens to the stream of a connection: the broker serves it, and then the clients see
what it wrote. -/
def disturb (n : LocalNetwork) (id : ConnectionId) (f : Net.Stream → Net.Stream) : LocalNetwork :=
  (n.modifyBroker fun b => ((b.modifyStream id f).signal id .readable).settle).exchange

/-- Opens a connection without logging in. -/
def connect (n : LocalNetwork) (name : String) : Except ClientError Unit × LocalNetwork :=
  if !n.reachable then (.error (.io .unreachable), n)
  else if n.server.stopped then (.error (.io .connectionRefused), n)
  else
    let (connection, server) := n.server.accept {}
    (.ok (), { n with server, endpoints := n.endpoints.insert name { connection } }.exchange)

/-- A client writes bytes. -/
def writeRaw (n : LocalNetwork) (name : String) (data : Bytes) : LocalNetwork :=
  match n.endpoints.get? name with
  | none => n
  | some e => n.disturb e.connection fun s => s.feed data

/-- A client writes a message and waits for nothing. -/
def sendMessage (n : LocalNetwork) (name : String) (m : Message) :
    Except ClientError Unit × LocalNetwork :=
  match Wire.encodeOwn m with
  | .error e => (.error (.encode e), n)
  | .ok frame => (.ok (), n.writeRaw name frame)

/-- A client waits for its next acknowledgement, which has to be of the kind given. -/
def waitFor (n : LocalNetwork) (name : String) (expected : MessageType) :
    Except ClientError Message × LocalNetwork :=
  match n.endpoints.get? name with
  | none => (.error .closed, n)
  | some e =>
    let (result, client) := e.client.take expected
    (result, n.modifyClient name fun _ => client)

/-- A client asks for something and waits for the answer. -/
def request (n : LocalNetwork) (name : String) (r : Request) :
    Except ClientError Unit × LocalNetwork :=
  match n.sendMessage name r.message with
  | (.error e, n) => (.error e, n)
  | (.ok (), n) =>
    let (result, n) := n.waitFor name r.answer
    (result.map fun _ => (), n)

/-- A client drops its connection without taking its leave. -/
def drop (n : LocalNetwork) (name : String) : LocalNetwork :=
  match n.endpoints.get? name with
  | none => n
  | some e =>
    let n := n.disturb e.connection fun s => { s with ended := true }
    { n with endpoints := n.endpoints.erase name }

/-- Opens a connection and logs in; one whose login fails is dropped again. -/
def login (n : LocalNetwork) (name clientId username password : String) :
    Except ClientError Unit × LocalNetwork :=
  match n.connect name with
  | (.error e, n) => (.error e, n)
  | (.ok (), n) =>
    match n.request name (.login clientId username password) with
    | (.ok (), n) => (.ok (), n)
    | (.error e, n) => (.error e, n.drop name)

/-- Stops the server. -/
def stopServer (n : LocalNetwork) : LocalNetwork := { n with server := n.server.stop }.exchange

end LocalNetwork

end MessageBroker
