import MessageBroker.Wire.Encoder

/-!
# Reading frames

A `Decoder` reads frames from a buffer that grows behind it. It first works out the length of the
frame in front, from no more bytes than that takes, and keeps the length while the rest of the
frame is awaited. A frame that breaks a rule is refused by the first rule it breaks, in the order
marker, type, length of the header block, length of the body; the header lines are looked at when
the frame is complete.

Model of `SmqCodec` as a decoder (specification §4.3, §10.6.3, §10.6.10, §10.7): `set_max_size`,
`max_frame_len`, `frame_len`, `decode`, `decode_eof` and `decode_frame`; `drain` is the loop
`decode_frames` of a connection. A buffer is the list of its bytes: how it is kept is out of scope.

Headlines:
* **`Decoder.length_rest_of_message`**: a message takes at least five bytes from the buffer, so a
  buffer is drained after finitely many.
-/

namespace MessageBroker.Wire

/-- How many bytes come in front of the blocks of a frame. -/
def headerLength : Nat := 5

/-- What a decoder waits for. -/
inductive Awaiting
  /-- The front of a frame, up to its last length prefix. -/
  | header
  /-- The rest of a frame, whose blocks take `payload` bytes. -/
  | frame (type : MessageType) (payload : Nat)
deriving DecidableEq, Repr

/-- Reads frames whose blocks are no longer than `limit`; zero sets no limit. -/
structure Decoder where
  limit : Nat
  awaiting : Awaiting := .header
deriving DecidableEq, Repr

/-- Whether a block of that length is refused. -/
def exceeds (limit n : Nat) : Bool := limit != 0 && decide (limit < n)

/-- The length of so many blocks, none while a prefix is missing. -/
def blocksLength (limit : Nat) : Nat → Bytes → Except DecodeError (Option Nat)
  | 0, _ => .ok (some 0)
  | k + 1, bs =>
    match blockLength? bs with
    | none => .ok none
    | some n =>
      if exceeds limit n then .error .sizeExceeded
      else (blocksLength limit k (bs.drop (4 + n))).map (Option.map (4 + n + ·))

/-- The length of what follows the type byte, none while it is not known. -/
def payloadLength (limit : Nat) (layout : Layout) (bs : Bytes) : Except DecodeError (Option Nat) :=
  match layout with
  | .empty => .ok (some 0)
  | .optionalHeaders => if marker.isPrefixOf bs then .ok (some 0) else blocksLength limit 1 bs
  | .headers => blocksLength limit 1 bs
  | .headersAndBody => blocksLength limit 2 bs

/-- The type of the frame in front and the length of its blocks, none while they are not known. -/
def frameLength (limit : Nat) (bs : Bytes) : Except DecodeError (Option (MessageType × Nat)) :=
  if (bs.take 4).isPrefixOf marker then
    match bs.drop 4 with
    | [] => .ok none
    | byte :: payload =>
      match MessageType.ofByte? byte with
      | none => .error (.unknownType byte)
      | some t => (payloadLength limit t.layout payload).map (Option.map (t, ·))
  else .error .invalidMarker

/-- The message of a complete frame, from what follows the type byte. -/
def readPayload (t : MessageType) (payload : Bytes) : Except DecodeError Message :=
  if t.layout = .empty ∨ t.layout = .optionalHeaders ∧ payload = [] then .ok { type := t }
  else
    match takeBlock? payload with
    | none => .error .invalidLength
    | some (block, rest) =>
      match readHeaders block with
      | .error e => .error e
      | .ok headers =>
        let m : Message :=
          { type := t
            headers := headers.erase Header.destination.name
            destination := headers.get? Header.destination.name }
        if t.layout = .headersAndBody then
          match takeBlock? rest with
          | none => .error .invalidLength
          | some (body, _) => .ok { m with body := some body }
        else .ok m

theorem type_of_readPayload {t : MessageType} {payload : Bytes} {m : Message}
    (h : readPayload t payload = .ok m) : m.type = t := by
  unfold readPayload at h
  split at h
  · cases h
    rfl
  · split at h
    · cases h
    split at h
    · cases h
    split at h
    · split at h
      · cases h
      · cases h
        rfl
    · cases h
      rfl

/-- The outcome of one look at a buffer: a message, or none while bytes are missing; what the
decoder awaits then, and what is left of the buffer. -/
structure Decoded where
  result : Except DecodeError (Option Message)
  decoder : Decoder
  rest : Bytes

namespace Decoder

/-- A decoder that has seen nothing. -/
def new (limit : Nat) : Decoder := { limit }

/-- The longest frame that is accepted, none without a limit. -/
def maxFrameLength (d : Decoder) : Option Nat :=
  if d.limit = 0 then none else some (headerLength + 2 * (4 + d.limit))

/-- Takes a frame off the buffer once it is complete. -/
def takeFrame (d : Decoder) (t : MessageType) (payload : Nat) (bs : Bytes) : Decoded :=
  match cut? (headerLength + payload) bs with
  | none => ⟨.ok none, { d with awaiting := .frame t payload }, bs⟩
  | some (frame, rest) =>
    ⟨(readPayload t (frame.drop headerLength)).map some, { d with awaiting := .header }, rest⟩

/-- Looks for a frame in front of the buffer. -/
def decode (d : Decoder) (bs : Bytes) : Decoded :=
  match d.awaiting with
  | .frame t payload => d.takeFrame t payload bs
  | .header =>
    match frameLength d.limit bs with
    | .error e => ⟨.error e, d, bs⟩
    | .ok none => ⟨.ok none, d, bs⟩
    | .ok (some (t, payload)) => d.takeFrame t payload bs

/-- The bare message that the buffer holds, if that is all it holds. -/
def bareMessage? (bs : Bytes) : Except DecodeError (Option Message) :=
  match bs with
  | [_, _, _, _, byte] =>
    match MessageType.ofByte? byte with
    | none => .error (.unknownType byte)
    | some t => .ok (if t.layout = .optionalHeaders then some { type := t } else none)
  | _ => .ok none

/-- Looks for a frame when nothing will follow the buffer: then a frame whose headers are optional
may be bare. -/
def decodeEof (d : Decoder) (bs : Bytes) : Decoded :=
  match d.decode bs with
  | ⟨.ok none, d', rest⟩ =>
    if d'.awaiting = .header then
      match bareMessage? rest with
      | .error e => ⟨.error e, d', rest⟩
      | .ok none => ⟨.ok none, d', rest⟩
      | .ok (some m) => ⟨.ok (some m), d', []⟩
    else ⟨.ok none, d', rest⟩
  | decoded => decoded

/-- Looks for a frame, with more bytes to come or not. -/
def next (d : Decoder) (ended : Bool) (bs : Bytes) : Decoded :=
  if ended then d.decodeEof bs else d.decode bs

theorem length_rest_takeFrame {d : Decoder} {t : MessageType} {payload : Nat} {bs : Bytes}
    {m : Message} (h : (d.takeFrame t payload bs).result = .ok (some m)) :
    (d.takeFrame t payload bs).rest.length + headerLength ≤ bs.length := by
  unfold takeFrame at h ⊢
  split at h
  · cases h
  · rename_i frame rest hc
    obtain ⟨rfl, hlen⟩ := cut?_eq_some_iff.mp hc
    simp only [List.length_append]
    omega

theorem length_rest_decode {d : Decoder} {bs : Bytes} {m : Message}
    (h : (d.decode bs).result = .ok (some m)) :
    (d.decode bs).rest.length + headerLength ≤ bs.length := by
  unfold decode at h ⊢
  split at h
  · exact length_rest_takeFrame h
  · split at h
    · cases h
    · cases h
    · exact length_rest_takeFrame h

theorem decode_rest_of_none {d : Decoder} {bs : Bytes} (h : (d.decode bs).result = .ok none) :
    (d.decode bs).rest = bs := by
  have hf : ∀ t payload, (d.takeFrame t payload bs).result = .ok none →
      (d.takeFrame t payload bs).rest = bs := by
    intro t payload h
    unfold takeFrame at h ⊢
    split at h
    · rfl
    · revert h
      cases readPayload t _ <;> simp [Except.map]
  unfold decode at h ⊢
  split at h
  · exact hf _ _ h
  · split at h
    · cases h
    · rfl
    · exact hf _ _ h

theorem length_of_bareMessage? {bs : Bytes} {m : Message}
    (h : bareMessage? bs = .ok (some m)) : bs.length = headerLength := by
  unfold bareMessage? at h
  split at h
  · rfl
  · cases h

/-- **A message takes at least five bytes from the buffer.** -/
theorem length_rest_of_message {d : Decoder} {ended : Bool} {bs : Bytes} {m : Message}
    (h : (d.next ended bs).result = .ok (some m)) :
    (d.next ended bs).rest.length + headerLength ≤ bs.length := by
  unfold next at h ⊢
  cases ended with
  | false => exact length_rest_decode h
  | true =>
    simp only [if_true] at h ⊢
    unfold decodeEof at h ⊢
    split at h
    · rename_i d' rest hd
      have hr : rest = bs := by
        have := @decode_rest_of_none d bs (by rw [hd])
        rw [hd] at this
        exact this
      subst hr
      split at h
      · rename_i ha
        rw [if_pos ha]
        split at h
        · cases h
        · cases h
        · rename_i m' hm
          have := length_of_bareMessage? hm
          simp [this]
      · cases h
    · exact length_rest_decode h

/-- The outcome of reading a buffer out: the messages in order, the error that ended it if one did,
what the decoder awaits then, and what is left. -/
structure Drained where
  messages : List Message
  error : Option DecodeError
  decoder : Decoder
  rest : Bytes

/-- Reads messages until bytes are missing or an error occurs. -/
def drain (d : Decoder) (ended : Bool) (bs : Bytes) : Drained :=
  match h : d.next ended bs with
  | ⟨.error e, d', rest⟩ => ⟨[], some e, d', rest⟩
  | ⟨.ok none, d', rest⟩ => ⟨[], none, d', rest⟩
  | ⟨.ok (some m), d', rest⟩ =>
    have : rest.length + headerLength ≤ bs.length := by
      have := @length_rest_of_message d ended bs m (by rw [h])
      rwa [h] at this
    let tail := d'.drain ended rest
    { tail with messages := m :: tail.messages }
termination_by bs.length
decreasing_by
  unfold headerLength at this
  omega

end Decoder

end MessageBroker.Wire
