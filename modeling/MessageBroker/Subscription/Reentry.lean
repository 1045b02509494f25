import MessageBroker.Subscription.Basic

/-!
# Deliveries whose sink calls back

The sink that a subscription hands its messages to may call the subscription again before it
answers: add or remove a member, ask for the members, or deliver another message. A `Script` is
what a sink does about one attempt; the calls it makes see that the delivery in progress holds the
lock as a reader. Model of `deliver_message` with any sink (`Deliver`) that makes its calls from the
thread of the delivery; what it does besides is out of scope.
-/

namespace MessageBroker.Subscription

/-- Something that happened during a delivery. -/
inductive Event
  | attempted (member : ConnectionId)
  | answered (member : ConnectionId) (outcome : Except BrokerError Unit)
  | added (member : ConnectionId) (result : Except LockTimeout Bool)
  | removed (member : ConnectionId) (result : Except LockTimeout Bool)
  | listed (result : Except LockTimeout (List ConnectionId))
  | delivered (result : Except LockTimeout Nat)

/-- What a sink does about one attempt: it answers, or makes a call and goes on by its result. The
sink of a nested delivery may look at all that has happened so far. -/
inductive Script
  | answer (outcome : Except BrokerError Unit)
  | add (member : ConnectionId) (next : Except LockTimeout Bool → Script)
  | remove (member : ConnectionId) (next : Except LockTimeout Bool → Script)
  | members (next : Except LockTimeout (List ConnectionId) → Script)
  | deliver (sink : List Event → ConnectionId → Script) (next : Except LockTimeout Nat → Script)

/-- A sink: its script for an attempt on a member, after what has happened so far. -/
abbrev Sink := List Event → ConnectionId → Script

/-- A subscription in the middle of a delivery, and what has happened so far. -/
structure Progress where
  subscription : Subscription
  trace : List Event

/-- With one event more. -/
def Progress.record (p : Progress) (e : Event) : Progress := { p with trace := p.trace ++ [e] }

/-- What a change of the members gives, and the subscription then. -/
def changed (s : Subscription) (r : Except LockTimeout (Bool × Subscription)) :
    Except LockTimeout Bool × Subscription :=
  match r with
  | .ok (b, s') => (.ok b, s')
  | .error e => (.error e, s)

/-- Attempts the targets in order; `body` is what the sink does about one. Gives the number of
targets that took the message. -/
def attemptEach (body : List Event → ConnectionId → Progress → Except BrokerError Unit × Progress) :
    List ConnectionId → Progress → Nat × Progress
  | [], p => (0, p)
  | id :: ids, p =>
    let (outcome, p₁) := body p.trace id (p.record (.attempted id))
    let (n, p₂) := attemptEach body ids (p₁.record (.answered id outcome))
    (if outcome.isOk then n + 1 else n, p₂)

/-- One delivery. -/
def deliverThrough
    (body : List Event → ConnectionId → Progress → Except BrokerError Unit × Progress)
    (p : Progress) : Except LockTimeout Nat × Progress :=
  match p.subscription.begin with
  | .error e => (.error e, p)
  | .ok (targets, s) =>
    let (n, p) := attemptEach body targets { p with subscription := s }
    (.ok n, { p with subscription := p.subscription.finish })

/-- Carries out a script. -/
def Script.run : Script → Progress → Except BrokerError Unit × Progress
  | .answer outcome, p => (outcome, p)
  | .add id next, p =>
    let (r, s) := changed p.subscription (p.subscription.add id)
    (next r).run ({ p with subscription := s }.record (.added id r))
  | .remove id next, p =>
    let (r, s) := changed p.subscription (p.subscription.remove id)
    (next r).run ({ p with subscription := s }.record (.removed id r))
  | .members next, p =>
    let r := p.subscription.members?
    (next r).run (p.record (.listed r))
  | .deliver sink next, p =>
    let (r, p) := deliverThrough (fun trace id p => (sink trace id).run p) p
    (next r).run (p.record (.delivered r))

/-- Delivers a message through a sink that may call back. -/
def deliverTo (s : Subscription) (sink : Sink) : Except LockTimeout Nat × Progress :=
  deliverThrough (fun trace id p => (sink trace id).run p) ⟨s, []⟩

/-- The members attempted, in the order of the attempts. -/
def attempts (trace : List Event) : List ConnectionId :=
  trace.filterMap fun e => match e with
    | .attempted id => some id
    | _ => none

/-- What is reported of the attempts that failed. -/
def notices (destination : String) (trace : List Event) : List Notice :=
  trace.filterMap fun e => match e with
    | .answered id (.error cause) => some (.notDelivered destination id cause)
    | _ => none

end MessageBroker.Subscription
