import MessageBroker.Error
import MessageBroker.Net.Stream
import MessageBroker.Wire.Decoder

/-!
# Connections

A connection is an accepted client: its stream, the session that its login opened, the names of the
destinations it belongs to, and the bytes that are no whole frame yet. A read pass decodes chunk by
chunk, so that a frame that is too long is refused when its length arrives, and it begins no further
chunk once it has read as much as one longest frame, or one chunk if that is more, so that no client
keeps the broker to itself.

Model of `Connection` (specification §3, §10.6.10): `read_frames` (`readPass`, its loop `readOn`),
`send`, `close`, `is_closed`, and the two texts that it is shown as. `decode_frames` is
`Wire.Decoder.drain`. Out of scope: the locks around the session, the destinations and the reader,
which are held no longer than one of these operations; a pass and a write are one step each.

Headlines:
* **`Connection.standing_readPass`**, **`Connection.standing_send`**: neither reading nor writing
  changes who a connection is or where it belongs.
-/

namespace MessageBroker

/-- What is published in the name of a client whose connection ends abnormally. -/
structure LastWill where
  destination : String
  text : String
deriving DecidableEq, Repr

/-- The will as a message. -/
def LastWill.toMessage (w : LastWill) : Message := .publish w.destination (utf8 w.text)

/-- What a client has told of itself. -/
structure Session where
  /-- Known once the client has logged in. -/
  clientId : Option String := none
  username : Option String := none
  lastWill : Option LastWill := none
deriving DecidableEq, Repr

/-- An accepted client. -/
structure Connection where
  id : ConnectionId
  stream : Net.Stream
  session : Session := {}
  /-- The destinations it is a member of. -/
  destinations : NameSet := ∅
  decoder : Wire.Decoder
  /-- Bytes read that are no whole frame yet. -/
  buffer : Bytes := []
  /-- The connection was closed here. -/
  closed : Bool := false

/-- Who a connection is and where it belongs, whatever its stream has to tell. -/
structure Standing where
  id : ConnectionId
  session : Session
  destinations : NameSet
  closed : Bool
deriving DecidableEq

/-- The outcome of a read pass. -/
structure ReadPass where
  /-- Whole frames, in the order in which they arrived. -/
  messages : List Message := []
  /-- What went wrong behind them. -/
  error : Option BrokerError := none
  /-- The other end has closed. -/
  ended : Bool := false
  /-- The pass stopped at its limit; there may be more to read. -/
  more : Bool := false

namespace Connection

/-- A connection over a stream, for frames whose blocks are no longer than `limit`. -/
def new (id : ConnectionId) (stream : Net.Stream) (limit : Nat) : Connection :=
  { id, stream, decoder := .new limit }

/-- How much is read at once. -/
def chunkSize : Nat := 8192

/-- How much a pass reads when frames may have any length. -/
def unlimitedPass : Nat := 64 * chunkSize

/-- How much a pass may have read before it stops. -/
def passLimit (d : Wire.Decoder) : Nat := max (d.maxFrameLength.getD unlimitedPass) chunkSize

def isConnected (c : Connection) : Bool := c.session.clientId.isSome

/-- Closed here, or no longer usable. -/
def isClosed (c : Connection) : Bool := c.closed || c.stream.closed

/-- Goes on with a read pass that has read `taken` bytes. -/
def readOn (limit taken : Nat) (c : Connection) : ReadPass × Connection :=
  if limit ≤ taken then ({ more := true }, c)
  else
    match h : c.stream.read chunkSize with
    | (.ended, stream) =>
      let d := c.decoder.drain true c.buffer
      ({ messages := d.messages, error := d.error.map .decode, ended := true },
        { c with stream, decoder := d.decoder, buffer := d.rest })
    | (.data bytes, stream) =>
      let d := c.decoder.drain false (c.buffer ++ bytes)
      match d.error with
      | some e =>
        ({ messages := d.messages, error := some (.decode e) },
          { c with stream, decoder := d.decoder, buffer := d.rest })
      | none =>
        have : stream.load < c.stream.load := Net.Stream.load_read_data (by decide) h
        let (pass, c) := readOn limit (taken + bytes.length)
          { c with stream, decoder := d.decoder, buffer := d.rest }
        ({ pass with messages := d.messages ++ pass.messages }, c)
    | (.failure .wouldBlock, stream) => ({}, { c with stream })
    | (.failure .interrupted, stream) =>
      have : stream.load < c.stream.load :=
        Net.Stream.load_read_failure (by decide) (by decide) h
      readOn limit taken { c with stream }
    | (.failure cause, stream) => ({ error := some (.net (.io cause)) }, { c with stream })
termination_by c.stream.load

/-- Reads and decodes what is there, up to the limit of a pass. -/
def readPass (c : Connection) : ReadPass × Connection := c.readOn (passLimit c.decoder) 0

/-- Writes a message as one frame to its own destination. -/
def send (c : Connection) (m : Message) : Except BrokerError Unit × Connection :=
  if c.isClosed then (.error (.net .closed), c)
  else
    match Wire.encodeOwn m with
    | .error e => (.error (.encode e), c)
    | .ok frame =>
      match c.stream.write frame with
      | (.ok (), stream) => (.ok (), { c with stream })
      | (.error e, stream) => (.error (.net e), { c with stream })

/-- Closes the connection, and says whether it was open. -/
def close (c : Connection) : Bool × Connection :=
  if c.closed then (false, c) else (true, { c with closed := true, stream := c.stream.close })

/-- How the connection is named in reports: by the client id, once it is known. -/
def name (c : Connection) : String :=
  match c.session.clientId with
  | some clientId => "\x7b" ++ clientId ++ "\x7d"
  | none =>
    let peer := match c.stream.peer with
      | some address => "@" ++ address.toText
      | none => ""
    "\x7b#" ++ Text.decimal c.id ++ peer ++ "\x7d"

/-- The connection as it is shown. -/
def label (c : Connection) : String :=
  "Connection \x7b id: " ++ Text.decimal c.id ++ ", client_id: " ++
    Text.optional Text.quote c.session.clientId ++ ", peer_addr: " ++
    Text.optional Net.Address.toText c.stream.peer ++ ", closed: " ++
    (if c.isClosed then "true" else "false") ++ " \x7d"

def standing (c : Connection) : Standing := ⟨c.id, c.session, c.destinations, c.closed⟩

theorem standing_readOn (limit taken : Nat) (c : Connection) :
    (c.readOn limit taken).2.standing = c.standing := by
  fun_induction readOn limit taken c with
  | case4 taken c hl bytes stream hr d hd hload pass c' hp ih =>
    rw [hp] at ih
    exact ih
  | case6 taken c hl stream hr hload ih => exact ih
  | _ => rfl

/-- **Reading changes neither who a connection is nor where it belongs.** -/
theorem standing_readPass (c : Connection) : c.readPass.2.standing = c.standing :=
  c.standing_readOn _ 0

/-- Writing changes nothing but the stream. -/
theorem exists_send_eq (c : Connection) (m : Message) :
    ∃ stream, (c.send m).2 = { c with stream } := by
  unfold send
  split
  · exact ⟨c.stream, rfl⟩
  · split
    · exact ⟨c.stream, rfl⟩
    · split <;> exact ⟨_, rfl⟩

/-- **Nor does writing.** -/
theorem standing_send (c : Connection) (m : Message) : (c.send m).2.standing = c.standing := by
  obtain ⟨stream, hs⟩ := c.exists_send_eq m
  rw [hs]
  rfl

/-- What an open connection writes is the frame of the message. -/
theorem send_of_encoded {c : Connection} (h : c.closed = false) {m : Message} {frame : Bytes}
    (hf : Wire.encodeOwn m = .ok frame) :
    c.send m =
      ((c.stream.write frame).1.mapError .net, { c with stream := (c.stream.write frame).2 }) := by
  have ho : c.isClosed = c.stream.closed := by
    unfold isClosed
    rw [h, Bool.false_or]
  unfold send
  rw [ho]
  by_cases hs : c.stream.closed = true
  · have hw : c.stream.write frame = (.error .closed, c.stream) := by
      unfold Net.Stream.write
      rw [if_pos hs]
    rw [if_pos hs, hw]
    rfl
  · rw [if_neg hs, hf]
    simp only
    cases hw : c.stream.write frame with
    | mk outcome stream => cases outcome <;> rfl

end Connection

end MessageBroker
