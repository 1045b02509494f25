import MessageBroker.Connection
import MessageBroker.Subscription.Basic

/-!
# The registry

The registry holds the live connections by number, the destinations with their subscriptions by
name, and the client ids that are taken. A connection knows its destinations and a subscription its
members; every operation here keeps the two in step, as far as the locks allow.

Model of `SubscriptionRegistry` (specification §4.5, §10.6.5, §10.6.8): `add_connection`,
`register_client_id` (`claim`), `subscribe`, `unsubscribe`, `deliver` with the sink that writes to
one connection (`deliverTo`), `remove_connection` (with the loop `withdraw`), `remove` (with the
loop `clearMembers`) and `clear`. The three concurrent maps are tables, and warnings are the notices
that an operation gives back.

Out of scope: what other threads do in the middle of an operation, except that they may hold the
lock of a subscription all the while (`Lock`), so that an operation that waits for it gives up. The
order in which a connection leaves its destinations and in which destinations are dropped, which a
hash map leaves open, is that of their names. Lines of the debug log are left out.
-/

namespace MessageBroker

/-- Live connections, destinations and client ids. -/
structure Registry where
  lockTimeout : Duration
  connections : Table ConnectionId Connection := ∅
  subscriptions : Table String Subscription := ∅
  clientIds : Table String ConnectionId := ∅

/-- What became of a message that was routed. -/
structure Delivery where
  /-- How many members took it. -/
  delivered : Nat
  /-- How the destination keeps messages; none if there is no such destination. -/
  qos : Option QoS
deriving DecidableEq, Repr

namespace Registry

def addConnection (r : Registry) (c : Connection) : Registry :=
  { r with connections := r.connections.insert c.id c }

/-- The subscription of a destination. -/
def subscription? (r : Registry) (name : String) : Option Subscription := r.subscriptions.get? name

/-- Takes a client id for a connection, unless another one has it. -/
def claim (r : Registry) (id : ConnectionId) (clientId : String) : Except BrokerError Registry :=
  match r.clientIds.get? clientId with
  | some owner => if owner = id then .ok r else .error (.identifierRejected clientId)
  | none => .ok { r with clientIds := r.clientIds.insert clientId id }

/-- Changes a connection's own list of destinations. -/
def modifyDestinations (r : Registry) (id : ConnectionId) (f : NameSet → NameSet) : Registry :=
  { r with
    connections := r.connections.modify id fun c => { c with destinations := f c.destinations } }

/-- The subscription of a destination, made up if there is none. -/
def subscriptionOrNew (r : Registry) (name : String) (type : DestinationType) (qos : QoS) :
    Subscription :=
  (r.subscription? name).getD { name, type, qos, lockTimeout := r.lockTimeout }

/-- Puts a subscription in its place. -/
def putSubscription (r : Registry) (name : String) (s : Subscription) : Registry :=
  { r with subscriptions := r.subscriptions.insert name s }

/-- Makes a connection a member of a destination, which comes into being with the type and the
level given if there is none; one that exists keeps its own. -/
def subscribe (r : Registry) (id : ConnectionId) (name : String) (type : DestinationType)
    (qos : QoS) : Except BrokerError Subscription × List Notice × Registry :=
  match r.connections.get? id with
  | none => (.error (.connectionGone id), [], r)
  | some c =>
    let s := r.subscriptionOrNew name type qos
    let notices := if s.type = type then [] else [.otherType c.name name type s.type]
    match s.add id with
    | .error e => (.error (.lockTimeout e), notices, r.putSubscription name s)
    | .ok (_, s) =>
      (.ok s, notices, (r.putSubscription name s).modifyDestinations id fun d => d.add name)

/-- Takes a connection off a destination, and says whether it was a member. -/
def unsubscribe (r : Registry) (id : ConnectionId) (name : String) :
    Except LockTimeout Bool × Registry :=
  match r.subscription? name with
  | none => (.ok false, r.modifyDestinations id fun d => d.erase name)
  | some s =>
    match s.remove id with
    | .error e => (.error e, r)
    | .ok (was, s) =>
      (.ok was, (r.putSubscription name s).modifyDestinations id fun d => d.erase name)

/-- Writes a message to one connection. -/
def deliverTo (r : Registry) (id : ConnectionId) (m : Message) :
    Except BrokerError Unit × Registry :=
  match r.connections.get? id with
  | none => (.error (.connectionGone id), r)
  | some c =>
    let (outcome, c) := c.send m
    (outcome, { r with connections := r.connections.insert id c })

/-- Ends a delivery of a destination. -/
def finishDelivery (r : Registry) (name : String) : Registry :=
  { r with subscriptions := r.subscriptions.modify name Subscription.finish }

/-- Routes a message to the members of its destination. -/
def deliver (r : Registry) (m : Message) : Except BrokerError Delivery × List Notice × Registry :=
  match m.address? with
  | none => (.error (.protocol .undeliverable), [], r)
  | some name =>
    match r.subscription? name with
    | none => (.ok ⟨0, none⟩, [], r)
    | some s =>
      match s.begin with
      | .error e => (.error (.lockTimeout e), [], r)
      | .ok (targets, held) =>
        let (taken, notices, r) := Subscription.attemptAll (fun r id => r.deliverTo id m) s.name
          targets (r.putSubscription name held)
        (.ok ⟨taken, some s.qos⟩, notices, r.finishDelivery name)

/-- Takes a connection that has gone off the destinations it belonged to. -/
def withdraw (r : Registry) (id : ConnectionId) (who : String) :
    List String → List Notice × Registry
  | [] => ([], r)
  | name :: names =>
    match r.subscription? name with
    | none => withdraw r id who names
    | some s =>
      match s.remove id with
      | .ok (_, s) => withdraw (r.putSubscription name s) id who names
      | .error e =>
        let (notices, r) := withdraw r id who names
        (.notWithdrawn who name e :: notices, r)

/-- The client ids without the one of a connection. -/
def freeClientId (clientIds : Table String ConnectionId) (c : Connection) :
    Table String ConnectionId :=
  match c.session.clientId with
  | some clientId =>
    if clientIds.get? clientId = some c.id then clientIds.erase clientId else clientIds
  | none => clientIds

/-- Forgets a connection: its number, its client id and its memberships. Gives the connection. -/
def removeConnection (r : Registry) (id : ConnectionId) :
    Option Connection × List Notice × Registry :=
  match r.connections.get? id with
  | none => (none, [], r)
  | some c =>
    let (notices, r) := withdraw
      { r with
        connections := r.connections.erase id
        clientIds := freeClientId r.clientIds c } id c.name c.destinations.keys
    (some { c with destinations := ∅ }, notices, r)

/-- Takes the members off a subscription that is no longer in its place. -/
def clearMembers (r : Registry) (name : String) (s : Subscription) :
    List ConnectionId → Subscription × List Notice × Registry
  | [] => (s, [], r)
  | id :: ids =>
    let r := r.modifyDestinations id fun d => d.erase name
    match s.remove id with
    | .ok (_, s) => clearMembers r name s ids
    | .error e =>
      let (s, notices, r) := clearMembers r name s ids
      (s, .notCleared name e :: notices, r)

/-- Drops a destination with all its members. Gives its subscription. -/
def remove (r : Registry) (name : String) : Option Subscription × List Notice × Registry :=
  match r.subscription? name with
  | none => (none, [], r)
  | some s =>
    let r := { r with subscriptions := r.subscriptions.erase name }
    match s.members? with
    | .error e => (some s, [.notCleared name e], r)
    | .ok members =>
      let (s, notices, r) := clearMembers r name s members
      (some s, notices, r)

/-- Drops the destinations named. -/
def removeAll (r : Registry) : List String → List Notice × Registry
  | [] => ([], r)
  | name :: names =>
    let (_, notices, r) := r.remove name
    let (more, r) := removeAll r names
    (notices ++ more, r)

/-- Drops every destination. -/
def clear (r : Registry) : List Notice × Registry := r.removeAll r.subscriptions.keys

end Registry

end MessageBroker
