import MessageBroker.Notice

/-!
# Subscriptions

A subscription holds the members of one destination in the order in which they joined. A topic hands
a message to every member. A queue hands it to the member under its cursor and moves the cursor on,
whether or not the member takes it; behind the last member, and before the first message, the
cursor is at no member, which counts as the first.

Members are changed under the exclusive lock and read under the shared one; a delivery holds the
shared lock until its last attempt is over.

Model of `Subscription` (specification §4.5): `add_connection` (`add`), `remove_connection`
(`remove`), `members` and `deliver_message`, which is `begin`, the attempts (`attemptAll`, one of
them `deliver_to`) and `finish`, so that what its sink does in between can be said. Out of scope:
two deliveries that read the same cursor, which the specification allows; a delivery moves it in one
step.
-/

namespace MessageBroker

/-- The members of one destination. -/
structure Subscription where
  name : String
  type : DestinationType
  qos : QoS
  lockTimeout : Duration
  members : List ConnectionId := []
  /-- The place of the member that a queue serves next. -/
  cursor : Option Nat := none
  lock : Lock := .free
deriving DecidableEq, Repr

namespace Subscription

/-- The refusal of a lock that was not to be had. -/
def timedOut (s : Subscription) : LockTimeout := ⟨s.lockTimeout⟩

/-- Adds a member at the end, and says whether it is new. -/
def add (s : Subscription) (id : ConnectionId) : Except LockTimeout (Bool × Subscription) :=
  if s.lock.admitsWriter then
    if id ∈ s.members then .ok (false, s) else .ok (true, { s with members := s.members ++ [id] })
  else .error s.timedOut

/-- Where the cursor is once the member at `place` is gone and `left` members remain. -/
def cursorAfterRemoval (cursor : Option Nat) (place left : Nat) : Option Nat :=
  match cursor with
  | none => none
  | some c =>
    if place < c then some (c - 1)
    else if place = c ∧ left ≤ c then none
    else some c

/-- Takes a member off, and says whether it was one. -/
def remove (s : Subscription) (id : ConnectionId) : Except LockTimeout (Bool × Subscription) :=
  if s.lock.admitsWriter then
    match s.members.idxOf? id with
    | none => .ok (false, s)
    | some place =>
      let members := s.members.eraseIdx place
      .ok (true, { s with
        members, cursor := cursorAfterRemoval s.cursor place members.length })
  else .error s.timedOut

/-- The members, if the lock is to be had. -/
def members? (s : Subscription) : Except LockTimeout (List ConnectionId) :=
  if s.lock.admitsReader then .ok s.members else .error s.timedOut

/-- The place that a queue of `size` members serves next. -/
def place (cursor : Option Nat) (size : Nat) : Nat :=
  match cursor with
  | some c => if c < size then c else 0
  | none => 0

/-- The cursor behind a place. -/
def cursorBehind (place size : Nat) : Option Nat :=
  if place + 1 < size then some (place + 1) else none

/-- The members that get the next message, and the subscription with its cursor moved on. -/
def select (s : Subscription) : List ConnectionId × Subscription :=
  match s.type with
  | .topic => (s.members, s)
  | .queue =>
    let p := place s.cursor s.members.length
    match s.members[p]? with
    | none => ([], s)
    | some id => ([id], { s with cursor := cursorBehind p s.members.length })

/-- Starts a delivery: the members to attempt, and the subscription held by one reader more. -/
def begin (s : Subscription) : Except LockTimeout (List ConnectionId × Subscription) :=
  if s.lock.admitsReader then
    let (targets, s) := s.select
    .ok (targets, { s with lock := s.lock.enter })
  else .error s.timedOut

/-- Ends a delivery. -/
def finish (s : Subscription) : Subscription := { s with lock := s.lock.leave }

/-- The attempts of a delivery in order. `attempt` hands the message to one member; a refusal is
reported. Gives the number of members that took it. -/
def attemptAll {σ : Type} (attempt : σ → ConnectionId → Except BrokerError Unit × σ)
    (destination : String) : List ConnectionId → σ → Nat × List Notice × σ
  | [], state => (0, [], state)
  | id :: ids, state =>
    let (outcome, state) := attempt state id
    let (taken, notices, state) := attemptAll attempt destination ids state
    match outcome with
    | .ok () => (taken + 1, notices, state)
    | .error e => (taken, .notDelivered destination id e :: notices, state)

/-- The subscription as it is shown. -/
def label (s : Subscription) : String :=
  "Subscription \x7b name: " ++ Text.quote s.name ++ ", typ: " ++ s.type.label ++ ", qos: " ++
    s.qos.label ++ ", members: " ++ Text.decimal s.members.length ++ " \x7d"

end Subscription

end MessageBroker
