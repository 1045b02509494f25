import MessageBroker.Destination
import MessageBroker.Net.Error
import MessageBroker.Wire.Decoder

/-!
# The client

A client writes requests and reads what the broker sends. Messages go to its inbox; everything else
is an acknowledgement and goes to a queue of its own, from which a request takes the answer that it
waits for. An acknowledgement says which kind of request it answers and nothing more, so a request
takes whatever is in front of the queue and fails if that is of another kind.

Model of `SmqClient` (specification §10.6.11): its requests (`Request`), `read_loop` (`feed`, with
`receive` for one frame), `wait_for` (`take`) and `get_message` (`next`). Out of scope: time. A wait
finds an answer in the queue, or is over.

Headlines:
* **`inbox_receiveAll`**, **`acknowledgements_receiveAll`**: what arrives is sorted and keeps its
  order.
-/

namespace MessageBroker

/-- Why a request of a client fails. -/
inductive ClientError
  | encode (cause : EncodeError)
  | io (cause : IoFailure)
  /-- The broker has closed the connection. -/
  | closed
  /-- No acknowledgement came in time. -/
  | timeout (awaited : MessageType)
  /-- The next acknowledgement is of another kind. -/
  | unexpected (expected got : MessageType)
deriving DecidableEq, Repr

def ClientError.message : ClientError → String
  | encode cause => "Encoding error: " ++ cause.message
  | io cause => "io error, " ++ cause.message
  | closed => "Connection closed by broker"
  | timeout awaited => "Timed out waiting for " ++ awaited.name
  | unexpected expected got => "Expected " ++ expected.name ++ ", got " ++ got.name

/-- What a client asks for and waits to be answered. -/
inductive Request
  /-- Logs in with a message made before. -/
  | handshake (connect : Message)
  | subscribe (destination : String) (type : DestinationType) (qos : QoS)
  | unsubscribe (destination : String)
  | send (destination : String) (body : Bytes)
  | ping
deriving DecidableEq

namespace Request

/-- A login; without a user name it is anonymous. -/
def login (clientId username password : String) : Request :=
  let m := Message.connect clientId
  .handshake <|
    if username.isEmpty then m
    else (m.withHeader Header.username.name username).withHeader Header.password.name password

/-- The request as a message. -/
def message : Request → Message
  | handshake connect => connect
  | subscribe destination type qos =>
    ((Message.subscribe destination).withHeader Header.destinationType.name type.name).withHeader
      Header.qos.name (Text.decimal qos.level)
  | unsubscribe destination => .unsubscribe destination
  | send destination body => .publish destination body
  | ping => { type := .ping }

/-- The kind of acknowledgement that answers the request. -/
def answer : Request → MessageType
  | handshake _ => .connectAck
  | subscribe .. => .subscribeAck
  | unsubscribe _ => .unsubscribeAck
  | send .. => .publishAck
  | ping => .pingAck

end Request

/-- A client. -/
structure Client where
  decoder : Wire.Decoder := .new 0
  /-- Bytes that arrived and are no whole frame yet. -/
  buffer : Bytes := []
  /-- Messages that wait to be taken. -/
  inbox : List Message := []
  /-- Acknowledgements that nobody has waited for yet. -/
  acknowledgements : List Message := []
  /-- Nothing is read any more. -/
  closed : Bool := false

namespace Client

/-- Sorts a frame that arrived. -/
def receive (c : Client) (m : Message) : Client :=
  if m.type = .message then { c with inbox := c.inbox ++ [m] }
  else { c with acknowledgements := c.acknowledgements ++ [m] }

/-- Sorts frames in turn. -/
def receiveAll (c : Client) (ms : List Message) : Client := ms.foldl receive c

/-- Bytes arrive. What cannot be decoded ends the reading. -/
def feed (c : Client) (data : Bytes) : Client :=
  if c.closed then c
  else
    let d := c.decoder.drain false (c.buffer ++ data)
    { c.receiveAll d.messages with
      decoder := d.decoder
      buffer := d.rest
      closed := d.error.isSome }

/-- The broker closes the connection. -/
def hangUp (c : Client) : Client := { c with closed := true }

/-- Takes the answer that was waited for: what is in front of the queue, or the news that nothing
came. -/
def take (c : Client) (expected : MessageType) : Except ClientError Message × Client :=
  match c.acknowledgements with
  | m :: rest =>
    (if m.type = expected then .ok m else .error (.unexpected expected m.type),
      { c with acknowledgements := rest })
  | [] => (.error (if c.closed then .closed else .timeout expected), c)

/-- Takes the next message out of the inbox. -/
def next (c : Client) : Option Message × Client :=
  match c.inbox with
  | m :: rest => (some m, { c with inbox := rest })
  | [] => (none, c)

/-- Drops the acknowledgements that are there. -/
def discard (c : Client) : Client := { c with acknowledgements := [] }

/-- **Messages reach the inbox in their order.** -/
theorem inbox_receiveAll (c : Client) (ms : List Message) :
    (c.receiveAll ms).inbox = c.inbox ++ ms.filter fun m => m.type = .message := by
  induction ms generalizing c with
  | nil => simp [receiveAll]
  | cons m ms ih =>
    have h := ih (c.receive m)
    simp only [receiveAll, List.foldl_cons] at h ⊢
    rw [h]
    by_cases hm : m.type = .message <;> simp [receive, hm]

/-- **Acknowledgements reach their queue in their order.** -/
theorem acknowledgements_receiveAll (c : Client) (ms : List Message) :
    (c.receiveAll ms).acknowledgements =
      c.acknowledgements ++ ms.filter fun m => m.type ≠ .message := by
  induction ms generalizing c with
  | nil => simp [receiveAll]
  | cons m ms ih =>
    have h := ih (c.receive m)
    simp only [receiveAll, List.foldl_cons] at h ⊢
    rw [h]
    by_cases hm : m.type = .message <;> simp [receive, hm]

end Client

end MessageBroker
