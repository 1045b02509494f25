import MessageBroker.Destination
import MessageBroker.Lock
import MessageBroker.Net.Error
import MessageBroker.Wire.Error

/-!
# Why the broker refuses

`BrokerError` gathers what can go wrong while a frame is read, handled or answered; a fatal error
ends the connection. The readers of the two kinds of a destination stand here too, because their
refusals are protocol errors.

Headlines:
* **`DestinationType.read_name`**, **`QoS.read_level`**: what is written is read back.
-/

namespace MessageBroker

/-- The number of a connection. -/
abbrev ConnectionId := Nat

/-- Frames that are well formed but out of place. -/
inductive ProtocolError
  | beforeConnect (type : MessageType)
  | duplicateConnect
  | unexpectedFromClient (type : MessageType)
  | subscribeWithoutDestination
  | publishWithoutDestination
  /-- A message that is to be routed has no destination. -/
  | undeliverable
  | unknownDestinationType (text : String)
  | unsupportedQoS (text : String)
deriving DecidableEq, Repr

def ProtocolError.message : ProtocolError → String
  | beforeConnect t => t.name ++ " before CONNECT"
  | duplicateConnect => "duplicate CONNECT"
  | unexpectedFromClient t => "unexpected " ++ t.name ++ " from client"
  | subscribeWithoutDestination => "SUBSCRIBE without destination"
  | publishWithoutDestination => "MESSAGE without destination"
  | undeliverable => "message without destination"
  | unknownDestinationType text => "unknown destination type " ++ Text.quote text
  | unsupportedQoS text => "unsupported qos " ++ Text.quote text

/-- The pool of workers takes no tasks any more. -/
inductive PoolError
  | stopped
deriving DecidableEq, Repr

def PoolError.message : PoolError → String
  | stopped => "worker pool is stopped"

/-- What can go wrong between a client and the broker. -/
inductive BrokerError
  | decode (cause : DecodeError)
  | encode (cause : EncodeError)
  | protocol (cause : ProtocolError)
  | net (cause : NetError)
  | pool (cause : PoolError)
  | lockTimeout (cause : LockTimeout)
  | notAuthorized
  | identifierRejected (clientId : String)
  | connectionGone (id : ConnectionId)
deriving DecidableEq, Repr

namespace BrokerError

def message : BrokerError → String
  | decode cause => "Decoding error: " ++ cause.message
  | encode cause => "Encoding error: " ++ cause.message
  | protocol cause => "Protocol error: " ++ cause.message
  | net cause => "Transport error: " ++ cause.message
  | pool cause => "Executor error: " ++ cause.message
  | lockTimeout cause => cause.message
  | notAuthorized => "Bad username or password"
  | identifierRejected clientId => "Client id " ++ Text.quote clientId ++ " is already connected"
  | connectionGone id => "Connection " ++ Text.decimal id ++ " is gone"

/-- Errors after which the connection cannot go on. -/
def isFatal : BrokerError → Bool
  | encode _ | pool _ | lockTimeout _ => false
  | _ => true

end BrokerError

/-- The type with that name, white space and case aside. -/
def DestinationType.read (text : String) : Except ProtocolError DestinationType :=
  let word := Text.lower (Text.trim text)
  if word = "topic" then .ok .topic
  else if word = "queue" then .ok .queue
  else .error (.unknownDestinationType word)

/-- The level with that number, white space aside. -/
def QoS.read (text : String) : Except ProtocolError QoS :=
  let word := Text.trim text
  if word = "0" then .ok .atMostOnce
  else if word = "1" then .ok .atLeastOnce
  else .error (.unsupportedQoS word)

/-- **What is written is read back.** -/
theorem DestinationType.read_name (t : DestinationType) : read t.name = .ok t := by
  have h : Text.lower (Text.trim t.name) = t.name := by cases t <;> decide +kernel
  rw [read, h]
  cases t <;> rfl

/-- **What is written is read back.** -/
theorem QoS.read_level (q : QoS) : read (Text.decimal q.level) = .ok q := by
  have h : Text.trim (Text.decimal q.level) = Text.decimal q.level := by
    cases q <;> decide +kernel
  rw [read, h]
  cases q <;> rfl

end MessageBroker
