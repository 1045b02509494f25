import MessageBroker.Net.Stream
import MessageBroker.Table

/-!
# The multiplexer

The multiplexer watches streams and calls a handler when one of them has something to tell. The
readiness that it is told of comes once per change. A one-shot watch is disarmed when it fires and
stays so until the stream is watched again; a level watch is looked at again in the next cycle, as
long as there is something to read. What the handler answers decides what becomes of the watch, and
while it runs it may itself watch, forget and stop.

Model of `SocketEvents` (specification §4.1): `watch`, `forget`, `stop` and `poll`. A cycle begins
with `level_ready`, which is `probe`; adds the level watches to the events, which is
`announcements`; and calls `dispatch` for each of them, whose second half, what becomes of the watch
once the handler has answered, is `apply`. The readiness primitive is a parameter: what it answers
to a registration (`registers`, `registering`), to a wait (`wait`) and to a look at unread data
(`available`) is given, so a theorem about `poll` speaks of whatever the primitive does.

Out of scope: how long a cycle waits, and with it the token by which `stop` wakes a cycle that
waits; the thread that `start` runs cycles on, and what `stop` waits for there; calls of other
threads in the middle of a cycle. A call of `watch`, `forget` or `stop` comes from the handler or
between two cycles.
-/

namespace MessageBroker.Net

/-- The number of a stream under watch. -/
abbrev StreamId := Nat

/-- When a watch fires. -/
inductive Trigger
  /-- On every change. -/
  | edge
  /-- On the next change only. -/
  | oneShot
  /-- In every cycle while there is something to read. -/
  | level
deriving DecidableEq, Repr

/-- What became of a stream. -/
structure Flags where
  data : Bool := false
  hangup : Bool := false
  error : Bool := false
deriving DecidableEq, Repr

/-- Nothing became of the stream. -/
def Flags.isEmpty (f : Flags) : Bool := !f.data && !f.hangup && !f.error

/-- There is something to read. -/
def Flags.readable : Flags := { data := true }

/-- What the handler decides about a watch. -/
inductive Action
  | «continue»
  /-- Does not fire until the stream is watched again. -/
  | disable
  | forget
deriving DecidableEq, Repr

/-- A stream under watch. -/
structure Watch (δ : Type) where
  /-- What the handler is told. -/
  data : δ
  trigger : Trigger
  armed : Bool := true
deriving DecidableEq

/-- What the handler may do to the multiplexer while it runs. -/
inductive Call (δ : Type)
  | watch (id : StreamId) (registers : Except IoFailure Unit) (data : δ) (trigger : Trigger)
  | forget (id : StreamId)
  | stop

/-- What the handler does when it is called. -/
structure Reaction (σ δ : Type) where
  state : σ
  calls : List (Call δ)
  action : Action

/-- A handler with a state of its own. -/
abbrev Handler (σ δ : Type) := σ → Flags → δ → Reaction σ δ

/-- The streams under watch. -/
structure Multiplexer (δ : Type) where
  watched : Table StreamId (Watch δ) := ∅
  /-- Level watches that fired and may have more to read. -/
  pending : Table StreamId Unit := ∅
  stopped : Bool := false

namespace Multiplexer

variable {σ δ : Type}

/-- What comes of registering a stream with the primitive under a number: a stream that was not
registered before cannot take a number that is under watch already. -/
def registering (m : Multiplexer δ) (id : StreamId) (registered : Bool)
    (outcome : Except IoFailure Unit) : Except IoFailure Unit :=
  match outcome with
  | .error cause => .error cause
  | .ok () => if m.watched.contains id && !registered then .error .notRegistered else .ok ()

/-- Watches a stream, armed; what was set for it before counts no more. `registers` is what comes of
registering it with the primitive. -/
def watch (m : Multiplexer δ) (id : StreamId) (registers : Except IoFailure Unit) (data : δ)
    (trigger : Trigger) : Except NetError (Multiplexer δ) :=
  if m.stopped then .error .stopped
  else
    match registers with
    | .error cause => .error (.register cause)
    | .ok () => .ok { m with watched := m.watched.insert id { data, trigger } }

/-- Watches a stream no more. -/
def forget (m : Multiplexer δ) (id : StreamId) : Multiplexer δ :=
  { m with watched := m.watched.erase id, pending := m.pending.erase id }

/-- Lets every watch go, and takes no stream any more. -/
def stop (m : Multiplexer δ) : Multiplexer δ := if m.stopped then m else { stopped := true }

/-- Carries out a call of the handler; a watch that is refused changes nothing. -/
def perform (m : Multiplexer δ) : Call δ → Multiplexer δ
  | .watch id registers data trigger =>
    match m.watch id registers data trigger with
    | .ok m => m
    | .error _ => m
  | .forget id => m.forget id
  | .stop => m.stop

/-- Disarms a watch. -/
def disarm (m : Multiplexer δ) (id : StreamId) : Multiplexer δ :=
  { m with watched := m.watched.modify id fun w => { w with armed := false } }

/-- Carries out what the handler decided about a watch with the trigger given. -/
def apply (m : Multiplexer δ) (id : StreamId) (trigger : Trigger) : Action → Multiplexer δ
  | .continue =>
    if trigger = .level then { m with pending := m.pending.insert id () } else m
  | .disable => { m.disarm id with pending := m.pending.erase id }
  | .forget => m.forget id

/-- Calls the handler for a stream that has something to tell, if its watch is armed; says whether
it was called. -/
def dispatch (handler : Handler σ δ) (s : σ) (m : Multiplexer δ) (id : StreamId) (flags : Flags) :
    Bool × σ × Multiplexer δ :=
  match m.watched.get? id with
  | none => (false, s, m)
  | some w =>
    if w.armed then
      let m := if w.trigger = .oneShot then m.disarm id else m
      let r := handler s flags w.data
      (true, r.state, (r.calls.foldl perform m).apply id w.trigger r.action)
    else (false, s, m)

/-- Whether a level watch has something to read. -/
def isReady (m : Multiplexer δ) (available : StreamId → Bool) (id : StreamId) : Bool :=
  match m.watched.get? id with
  | some w => w.armed && decide (w.trigger = .level) && available id
  | none => false

/-- The level watches that fire again, and the multiplexer without those that do not. -/
def probe (m : Multiplexer δ) (available : StreamId → Bool) : List StreamId × Multiplexer δ :=
  let kept := m.pending.filter fun id _ => m.isReady available id
  (kept.keys, { m with pending := kept })

/-- What a cycle tells: what the primitive reports, and the level watches it says nothing of. -/
def announcements (events : List (StreamId × Flags)) (ready : List StreamId) :
    List (StreamId × Flags) :=
  let told := events.filter fun e => !e.2.isEmpty
  told ++ (ready.filter fun id => !told.any fun e => e.1 == id).map fun id => (id, .readable)

/-- Calls the handler for each in turn, until the multiplexer is stopped; counts the calls. -/
def dispatchAll (handler : Handler σ δ) :
    List (StreamId × Flags) → σ → Multiplexer δ → Nat × σ × Multiplexer δ
  | [], s, m => (0, s, m)
  | e :: es, s, m =>
    if m.stopped then (0, s, m)
    else
      let (fired, s, m) := dispatch handler s m e.1 e.2
      let (n, s, m) := dispatchAll handler es s m
      (if fired then n + 1 else n, s, m)

/-- One cycle: `wait` is what waiting for the primitive gives, events at most once per stream, and
`available` says where there is something to read when the cycle begins. Gives the number of calls
of the handler; a wait that was interrupted counts as one without events. -/
def poll (handler : Handler σ δ) (available : StreamId → Bool)
    (wait : Except IoFailure (List (StreamId × Flags))) (s : σ) (m : Multiplexer δ) :
    Except NetError Nat × σ × Multiplexer δ :=
  if m.stopped then (.ok 0, s, m)
  else
    let (ready, m) := m.probe available
    match wait with
    | .error .interrupted => (.ok 0, s, m)
    | .error cause => (.error (.io cause), s, m)
    | .ok events =>
      let (n, s, m) := dispatchAll handler (announcements events ready) s m
      (.ok n, s, m)

/-! ## What a cycle keeps -/

section Keeping

variable {R : σ → σ → Prop} {handler : Handler σ δ}

theorem dispatch_rel (hrefl : ∀ s, R s s) (hstep : ∀ s flags data, R s (handler s flags data).state)
    (s : σ) (m : Multiplexer δ) (id : StreamId) (flags : Flags) :
    R s (dispatch handler s m id flags).2.1 := by
  unfold dispatch
  split
  · exact hrefl s
  · split
    · exact hstep ..
    · exact hrefl s

theorem dispatchAll_rel (hrefl : ∀ s, R s s) (htrans : ∀ {s s' s''}, R s s' → R s' s'' → R s s'')
    (hstep : ∀ s flags data, R s (handler s flags data).state)
    (es : List (StreamId × Flags)) (s : σ) (m : Multiplexer δ) :
    R s (dispatchAll handler es s m).2.1 := by
  induction es generalizing s m with
  | nil => exact hrefl s
  | cons e es ih =>
    unfold dispatchAll
    split
    · exact hrefl s
    · exact htrans (dispatch_rel hrefl hstep s m e.1 e.2) (ih _ _)

/-- **What every call of the handler keeps, a cycle keeps.** -/
theorem poll_rel (hrefl : ∀ s, R s s) (htrans : ∀ {s s' s''}, R s s' → R s' s'' → R s s'')
    (hstep : ∀ s flags data, R s (handler s flags data).state) (available : StreamId → Bool)
    (wait : Except IoFailure (List (StreamId × Flags))) (s : σ) (m : Multiplexer δ) :
    R s (poll handler available wait s m).2.1 := by
  unfold poll
  split
  · exact hrefl s
  · dsimp only
    split
    · exact hrefl s
    · exact hrefl s
    · exact dispatchAll_rel hrefl htrans hstep _ s _

end Keeping

end Multiplexer

end MessageBroker.Net
