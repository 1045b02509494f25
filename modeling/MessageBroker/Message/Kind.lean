/-!
# Message types

The twelve types of a frame, the byte of each, what follows the byte on the wire (`Layout`), and
which acknowledgement answers a request.
-/

namespace MessageBroker

/-- What a message is for. -/
inductive MessageType
  | connect | subscribe | unsubscribe | message | ack | ping | disconnect
  | connectAck | subscribeAck | unsubscribeAck | publishAck | pingAck
deriving DecidableEq, Repr, Inhabited

/-- What follows the type byte of a frame. -/
inductive Layout
  /-- Nothing. -/
  | empty
  /-- One block of headers, or nothing when the next frame's marker follows the type byte. -/
  | optionalHeaders
  /-- One block of headers. -/
  | headers
  /-- A block of headers and a block that is the body. -/
  | headersAndBody
deriving DecidableEq, Repr

namespace MessageType

/-- Every type, in the order of the type bytes. -/
def all : List MessageType :=
  [connect, subscribe, unsubscribe, message, ack, ping, disconnect,
   connectAck, subscribeAck, unsubscribeAck, publishAck, pingAck]

/-- The type byte. -/
def toByte : MessageType → UInt8
  | connect => 0
  | subscribe => 1
  | unsubscribe => 2
  | message => 3
  | ack => 4
  | ping => 5
  | disconnect => 6
  | connectAck => 7
  | subscribeAck => 8
  | unsubscribeAck => 9
  | publishAck => 10
  | pingAck => 11

/-- The type that a byte stands for. -/
def ofByte? (b : UInt8) : Option MessageType := all.find? fun t => t.toByte == b

/-- What follows the type byte. -/
def layout : MessageType → Layout
  | connect | subscribe => .headers
  | unsubscribe | ack => .optionalHeaders
  | message => .headersAndBody
  | _ => .empty

/-- Types that cannot be sent without a destination. -/
def requiresDestination : MessageType → Bool
  | message | subscribe => true
  | _ => false

/-- The acknowledgement that answers a request of the type. -/
def answer : MessageType → Option MessageType
  | connect => some connectAck
  | subscribe => some subscribeAck
  | unsubscribe => some unsubscribeAck
  | message => some publishAck
  | ping => some pingAck
  | _ => none

/-- Types that only a broker sends. -/
def isAcknowledgement : MessageType → Bool
  | connectAck | subscribeAck | unsubscribeAck | publishAck | pingAck => true
  | _ => false

/-- The name on the wire log: `CONNECT`, `PING_ACK`. -/
def name : MessageType → String
  | connect => "CONNECT"
  | subscribe => "SUBSCRIBE"
  | unsubscribe => "UNSUBSCRIBE"
  | message => "MESSAGE"
  | ack => "ACK"
  | ping => "PING"
  | disconnect => "DISCONNECT"
  | connectAck => "CONNECT_ACK"
  | subscribeAck => "SUBSCRIBE_ACK"
  | unsubscribeAck => "UNSUBSCRIBE_ACK"
  | publishAck => "PUBLISH_ACK"
  | pingAck => "PING_ACK"

/-- The name in words run together: `Connect`, `PingAck`. -/
def label : MessageType → String
  | connect => "Connect"
  | subscribe => "Subscribe"
  | unsubscribe => "Unsubscribe"
  | message => "Message"
  | ack => "Ack"
  | ping => "Ping"
  | disconnect => "Disconnect"
  | connectAck => "ConnectAck"
  | subscribeAck => "SubscribeAck"
  | unsubscribeAck => "UnsubscribeAck"
  | publishAck => "PublishAck"
  | pingAck => "PingAck"

@[simp] theorem ofByte?_toByte (t : MessageType) : ofByte? t.toByte = some t := by
  cases t <;> rfl

theorem toByte_of_ofByte? {b : UInt8} {t : MessageType} (h : ofByte? b = some t) :
    t.toByte = b := by
  have := List.find?_some h
  simpa using this

theorem ofByte?_eq_some_iff {b : UInt8} {t : MessageType} : ofByte? b = some t ↔ b = t.toByte :=
  ⟨fun h => (toByte_of_ofByte? h).symm, fun h => h ▸ ofByte?_toByte t⟩

end MessageType

end MessageBroker
