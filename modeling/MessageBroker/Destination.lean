import MessageBroker.Text.Blank

/-!
# Kinds of destinations

A destination is a topic, where every member gets every message, or a queue, where each message
goes to one member in turn; and it keeps its messages until they are acknowledged, or does not.
-/

namespace MessageBroker

/-- How a destination hands out its messages. -/
inductive DestinationType
  | topic | queue
deriving DecidableEq, Repr, Inhabited

namespace DestinationType

def name : DestinationType → String
  | topic => "topic"
  | queue => "queue"

/-- The name as a word of its own. -/
def label : DestinationType → String
  | topic => "Topic"
  | queue => "Queue"

end DestinationType

/-- Whether a delivered message is kept until it is acknowledged. -/
inductive QoS
  | atMostOnce | atLeastOnce
deriving DecidableEq, Repr, Inhabited

namespace QoS

def level : QoS → Nat
  | atMostOnce => 0
  | atLeastOnce => 1

def label : QoS → String
  | atMostOnce => "AtMostOnce"
  | atLeastOnce => "AtLeastOnce"

end QoS

end MessageBroker
