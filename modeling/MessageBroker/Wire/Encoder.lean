import MessageBroker.Wire.Block
import MessageBroker.Wire.HeaderLines

/-!
# Writing frames

A frame is the marker, the type byte and what the type's layout asks for. The destination is the
first header line. A type whose headers are optional is written bare when there is no line. Nothing
is written for a message that cannot be written.

Model of `encode_into` and `encode` (specification §4.3, §10.6.2, §10.6.3). The order of the
headers, which a hash map leaves open, is a parameter of `encodeInto`; `encode` takes that of their
lines, so that a message has one written form.
-/

namespace MessageBroker.Wire

/-- The four bytes that every frame starts with: `MSG:`. -/
def marker : Bytes := [0x4d, 0x53, 0x47, 0x3a]

/-- A buffer behind a write, and how the write ended. -/
structure Written where
  buffer : Bytes
  outcome : Except EncodeError Unit

/-- Appends a block, unless its length does not fit the prefix. -/
def putBlock (data buffer : Bytes) : Written :=
  if data.length < lengthBound then ⟨buffer ++ block data, .ok ()⟩
  else ⟨buffer, .error .invalidLength⟩

/-- The headers of a frame to a destination: the destination in front, and no other of its name. -/
def frameHeaders (destination : String) (headers : List (String × String)) :
    List (String × String) :=
  (if destination.isEmpty then [] else [(Header.destination.name, destination)]) ++
    headers.filter fun e => e.1 != Header.destination.name

/-- The text of the header block, or why the message cannot be written. -/
def headerText (destination : String) (m : Message) (headers : List (String × String)) :
    Except EncodeError (List Char) :=
  if destination.isEmpty && m.type.requiresDestination then .error (.destinationRequired m.type)
  else if m.type.layout = .empty then .ok []
  else writeLines (frameHeaders destination headers)

/-- The layout that a frame of the type has when its header text is as given. -/
def writtenLayout (t : MessageType) (text : List Char) : Layout :=
  if t.layout = .optionalHeaders ∧ text = [] then .empty else t.layout

/-- Appends a frame to a buffer, its headers in the order given. -/
def encodeInto (destination : String) (m : Message) (headers : List (String × String))
    (buffer : Bytes) : Written :=
  match headerText destination m headers with
  | .error e => ⟨buffer, .error e⟩
  | .ok text =>
    let start := buffer ++ (marker ++ [m.type.toByte])
    let data := utf8 (String.ofList text)
    match writtenLayout m.type text with
    | .empty => ⟨start, .ok ()⟩
    | .optionalHeaders => putBlock data start
    | .headers => putBlock data start
    | .headersAndBody =>
      match putBlock data start with
      | ⟨buffer, .ok ()⟩ => putBlock (m.body.getD []) buffer
      | failed => failed

/-- The frame of a message to a destination. -/
def encode (destination : String) (m : Message) : Except EncodeError Bytes :=
  let written := encodeInto destination m (arranged m.headers) []
  written.outcome.map fun _ => written.buffer

/-- The frame of a message to its own destination. -/
def encodeOwn (m : Message) : Except EncodeError Bytes := encode (m.destination.getD "") m

end MessageBroker.Wire
