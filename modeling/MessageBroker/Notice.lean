import MessageBroker.Error
import MessageBroker.Net.Address

/-!
# What the broker reports

A notice is something an operator should know of: a message that did not arrive, a connection that
came or went. `who` is the connection as it is shown.
-/

namespace MessageBroker

/-- How urgent a notice is. -/
inductive Urgency
  | info | warning
deriving DecidableEq, Repr

def Urgency.name : Urgency → String
  | info => "INFO"
  | warning => "WARN"

/-- Something to report. -/
inductive Notice
  /-- A member did not take a message. -/
  | notDelivered (destination : String) (member : ConnectionId) (cause : BrokerError)
  /-- A subscriber takes a destination for one of another type. -/
  | otherType (who destination : String) (wanted actual : DestinationType)
  /-- A connection that went could not be taken off a destination. -/
  | notWithdrawn (who destination : String) (cause : LockTimeout)
  /-- A destination that is dropped could not be cleared of a member. -/
  | notCleared (destination : String) (cause : LockTimeout)
  /-- An event of a connection could not be queued. -/
  | eventLost (who : String) (cause : PoolError)
  /-- A frame was refused and the connection goes on. -/
  | refused (who : String) (cause : BrokerError)
  /-- A frame or a read ended the connection. -/
  | ended (who : String) (cause : BrokerError)
  | notRequeued (who : String) (cause : PoolError)
  | notRearmed (who : String) (cause : NetError)
  | loginFailed (who : String) (username : Option String)
  | connected (who : String) (peer : Option Net.Address)
  | ackWithoutId (who : String)
  | willFailed (who destination : String) (cause : BrokerError)
  | disconnected (who : String)
  /-- A stream was closed at once, because there is no room for one more connection. -/
  | turnedAway (limit : Nat) (peer : Option Net.Address)
  /-- A stream that arrived could not be served. -/
  | notAccepted (cause : BrokerError)
deriving DecidableEq, Repr

namespace Notice

def urgency : Notice → Urgency
  | ended .. | loginFailed .. | connected .. | disconnected .. => .info
  | _ => .warning

def text : Notice → String
  | notDelivered destination member cause =>
    destination ++ " delivery to connection " ++ Text.decimal member ++ " failed, " ++ cause.message
  | otherType who destination wanted actual =>
    who ++ " subscribes to " ++ destination ++ " as " ++ wanted.name ++ ", but it is a " ++
      actual.name
  | notWithdrawn who destination cause =>
    who ++ " unsubscribe from " ++ destination ++ " failed, " ++ cause.message
  | notCleared destination cause => "remove " ++ destination ++ ", " ++ cause.message
  | eventLost who cause => who ++ " dropped, " ++ cause.message
  | refused who cause => who ++ " " ++ cause.message
  | ended who cause => who ++ " " ++ cause.message
  | notRequeued who cause => who ++ " read requeue failed, " ++ cause.message
  | notRearmed who cause => who ++ " re-arm failed, " ++ cause.message
  | loginFailed who username =>
    who ++ " authentication failed, username: " ++ Text.optional Text.quote username
  | connected who peer => who ++ " Connected, peer: " ++ Text.optional Net.Address.toText peer
  | ackWithoutId who => who ++ " ACK without message_id"
  | willFailed who destination cause =>
    who ++ " last will to " ++ destination ++ " failed, " ++ cause.message
  | disconnected who => who ++ " Disconnected"
  | turnedAway limit peer =>
    "too many connections (" ++ Text.decimal limit ++ "), " ++
      Text.optional Net.Address.toText peer ++ " refused"
  | notAccepted cause => "add connection error, " ++ cause.message

/-- The notice as a line. -/
def line (n : Notice) : String := n.urgency.name ++ " " ++ n.text

end Notice

end MessageBroker
