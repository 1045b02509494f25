import MessageBroker.Bytes
import MessageBroker.Table
import MessageBroker.Text.Number
import MessageBroker.Message.Kind

/-!
# Messages

A message has a type, headers, and perhaps a destination and a body. The destination travels as a
header on the wire but is kept apart from the headers here. An absent destination and an empty one
are different values; as an address both are none.
-/

namespace MessageBroker

/-- Header values by name. -/
abbrev Headers := Table String String

/-- The number of a published message. -/
abbrev MessageId := Nat

/-- Names of the headers that the broker and its clients read. -/
inductive Header
  | destination | clientId | username | password
  | lastWillDestination | lastWillMessage | messageId | destinationType | qos

namespace Header

/-- The name as it is written. -/
def name : Header → String
  | destination => "destination"
  | clientId => "client_id"
  | username => "username"
  | password => "password"
  | lastWillDestination => "last_will_destination"
  | lastWillMessage => "last_will_message"
  | messageId => "message_id"
  | destinationType => "type"
  | qos => "qos"

end Header

/-- A protocol message. -/
structure Message where
  type : MessageType
  headers : Headers := ∅
  destination : Option String := none
  body : Option Bytes := none
deriving DecidableEq

namespace Message

instance : Inhabited Message := ⟨{ type := .ping }⟩

/-- Puts a header. -/
def withHeader (m : Message) (name value : String) : Message :=
  { m with headers := m.headers.insert name value }

/-- A login under a client id. -/
def connect (clientId : String) : Message :=
  withHeader { type := .connect } Header.clientId.name clientId

/-- A subscription to a destination, or to several with commas between them. -/
def subscribe (destination : String) : Message :=
  { type := .subscribe, destination := some destination }

/-- Leaves a destination. -/
def unsubscribe (destination : String) : Message :=
  { type := .unsubscribe, destination := some destination }

/-- A message to a destination. -/
def publish (destination : String) (body : Bytes) : Message :=
  { type := .message, destination := some destination, body := some body }

/-- Acknowledges a message by its number. -/
def acknowledge (id : MessageId) : Message :=
  withHeader { type := .ack } Header.messageId.name (Text.decimal id)

/-- The value of a header. -/
def header? (m : Message) (name : String) : Option String := m.headers.get? name

/-- The destination as an address: one that is not empty. -/
def address? (m : Message) : Option String := m.destination.filter fun d => !d.isEmpty

/-- The message number in the headers, if there is one and it is a 64-bit number. -/
def messageId? (m : Message) : Option MessageId :=
  (m.header? Header.messageId.name).bind Text.word?

theorem header?_withHeader (m : Message) (name value other : String) :
    (m.withHeader name value).header? other =
      if other = name then some value else m.header? other :=
  Table.get?_insert ..

end Message

end MessageBroker
