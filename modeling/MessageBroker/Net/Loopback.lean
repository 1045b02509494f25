import MessageBroker.Net.Multiplexer

/-!
# Streams between two ends on one host

Each stream has its other end on the same host, so that all that can happen to it is known here. The
primitive under the multiplexer tells of a stream that is watched when something has arrived, when
the stream has ended, or when the watch was set, and tells once of each; by the time it is asked,
there must still be something to read or nothing more to come.
-/

namespace MessageBroker.Net

/-- A stream and what the primitive has not told of it. -/
structure Pair where
  stream : Stream
  /-- Something has changed since the primitive last told of the stream. -/
  changed : Bool := false
  /-- The primitive knows the stream. -/
  registered : Bool := false

namespace Pair

/-- Whether a read would give something other than that there is nothing yet. -/
def isReadable (p : Pair) : Bool :=
  !p.stream.incoming.isEmpty || p.stream.ended || p.stream.closed

/-- Whether the other end broke off and the stream has not been read that far. -/
def isReset (p : Pair) : Bool := p.stream.incoming.contains (.failure .reset)

/-- What the primitive tells of the stream. -/
def flags (p : Pair) : Flags :=
  { data := true, hangup := p.stream.ended || p.stream.closed, error := p.isReset }

end Pair

/-- Streams under one multiplexer. -/
structure Loopback (δ : Type) where
  /-- Whether two ends on this host can be connected. -/
  reachable : Bool := true
  sendTimeout : Duration
  pairs : Table StreamId Pair := ∅
  multiplexer : Multiplexer δ := {}
  /-- What the handler answers. -/
  action : Action := .continue
  /-- Whether the handler stops the multiplexer. -/
  stops : Bool := false

namespace Loopback

variable {δ : Type}

/-- Connects a stream with its other end. -/
def connect (l : Loopback δ) (id : StreamId) : Except IoFailure (Loopback δ) :=
  if l.reachable then
    .ok { l with pairs := l.pairs.insert id { stream := { sendTimeout := l.sendTimeout } } }
  else .error .unreachable

/-- Something happens to a stream that the primitive is to tell of. -/
def disturb (l : Loopback δ) (id : StreamId) (f : Stream → Stream) : Loopback δ :=
  { l with pairs := l.pairs.modify id fun p => { p with stream := f p.stream, changed := true } }

/-- The other end sends bytes. -/
def feed (l : Loopback δ) (id : StreamId) (data : Bytes) : Loopback δ :=
  l.disturb id fun s => s.feed data

/-- The other end closes. -/
def endStream (l : Loopback δ) (id : StreamId) : Loopback δ :=
  l.disturb id fun s => { s with ended := true }

/-- The other end breaks off. -/
def reset (l : Loopback δ) (id : StreamId) : Loopback δ :=
  l.disturb id fun s => { s.fail .reset with ended := true }

/-- This end is closed. -/
def close (l : Loopback δ) (id : StreamId) : Loopback δ := l.disturb id Stream.close

/-- Watches a stream. -/
def watch (l : Loopback δ) (id : StreamId) (data : δ) (trigger : Trigger) :
    Except NetError (Loopback δ) :=
  let registered := ((l.pairs.get? id).map Pair.registered).getD false
  match l.multiplexer.watch id (l.multiplexer.registering id registered (.ok ())) data trigger with
  | .error e => .error e
  | .ok multiplexer =>
    let pairs := l.pairs.modify id fun p => { p with changed := true, registered := true }
    .ok { l with pairs, multiplexer }

/-- The primitive knows the streams under watch only. -/
def deregister (l : Loopback δ) : Loopback δ :=
  { l with pairs := l.pairs.mapValues fun id p =>
      { p with registered := p.registered && l.multiplexer.watched.contains id } }

/-- Watches a stream no more. -/
def forget (l : Loopback δ) (id : StreamId) : Loopback δ :=
  { l with multiplexer := l.multiplexer.forget id }.deregister

/-- Lets every watch go. -/
def stop (l : Loopback δ) : Loopback δ :=
  { l with multiplexer := l.multiplexer.stop }.deregister

/-- Reads at most `n` bytes; a stream that was closed here has ended. -/
def read (l : Loopback δ) (id : StreamId) (n : Nat) : Option (ReadResult × Loopback δ) :=
  (l.pairs.get? id).map fun p =>
    if p.stream.closed then (.ended, l)
    else
      let (result, stream) := p.stream.read n
      (result, { l with pairs := l.pairs.insert id { p with stream } })

/-- The most that is said to be there to read. -/
def lookAhead : Nat := 4096

/-- How much there is to read without waiting. -/
def available (l : Loopback δ) (id : StreamId) : Nat :=
  ((l.pairs.get? id).map fun p => min lookAhead p.stream.pending).getD 0

/-- Writes everything, or fails; gives what the other end gets. `steps` are what the writes meet. -/
def write (l : Loopback δ) (id : StreamId) (steps : List WriteStep) (data : Bytes) :
    Option (Except NetError Bytes × Loopback δ) :=
  (l.pairs.get? id).map fun p =>
    let (outcome, stream) := { p.stream with outlet := .open steps }.write data
    let (taken, stream) := stream.collect
    (outcome.map fun _ => taken, { l with pairs := l.pairs.insert id { p with stream } })

/-- What the primitive tells now. -/
def events (l : Loopback δ) : List (StreamId × Flags) :=
  (l.pairs.entries.filter fun e =>
    e.2.registered && e.2.changed && e.2.isReadable).map fun e =>
      (e.1, e.2.flags)

/-- The primitive has told what there was. -/
def told (l : Loopback δ) : Loopback δ :=
  { l with
    pairs := l.pairs.mapValues fun _ p => if p.registered then { p with changed := false } else p }

/-- The handler: it notes what it is told and answers as it was told to. -/
def handler (l : Loopback δ) : Handler (List (δ × Flags)) δ := fun seen flags data =>
  { state := seen ++ [(data, flags)]
    calls := if l.stops then [.stop] else []
    action := l.action }

/-- One cycle of the multiplexer: what the handler was told. -/
def poll (l : Loopback δ) : List (δ × Flags) × Loopback δ :=
  let (_, seen, multiplexer) :=
    Multiplexer.poll l.handler (fun id => l.available id != 0) (.ok l.events) [] l.multiplexer
  (seen, { l.told with multiplexer }.deregister)

/-- Cycles until the handler was called so often, at most `cycles` of them. -/
def pollFor (count : Nat) : Nat → Loopback δ → List (δ × Flags) × Loopback δ
  | 0, l => ([], l)
  | cycles + 1, l =>
    if count = 0 then ([], l)
    else
      let (seen, l) := l.poll
      let (more, l) := pollFor (count - seen.length) cycles l
      (seen ++ more, l)

end Loopback

end MessageBroker.Net
