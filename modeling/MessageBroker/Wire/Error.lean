import MessageBroker.Message.Kind
import MessageBroker.Text.Quoted

/-!
# Why a frame cannot be read or written
-/

namespace MessageBroker

/-- Why bytes are no frame. -/
inductive DecodeError
  /-- The bytes do not start with the marker. -/
  | invalidMarker
  | unknownType (byte : UInt8)
  /-- The blocks of a frame do not fill it. -/
  | invalidLength
  /-- A header line without a name or without a separator. -/
  | malformedHeader
  /-- A block is longer than the limit allows. -/
  | sizeExceeded
  /-- The header block is not UTF-8. -/
  | notUtf8
  /-- The input ended within a frame. -/
  | endOfInput
deriving DecidableEq, Repr

/-- Why a message cannot be written. -/
inductive EncodeError
  | destinationRequired (type : MessageType)
  /-- A name or value that the header lines cannot carry. -/
  | invalidHeader (name : String)
  /-- A block whose length does not fit its prefix. -/
  | invalidLength
deriving DecidableEq, Repr

def DecodeError.message : DecodeError → String
  | .invalidMarker => "Invalid protocol magic"
  | .unknownType b => "Unknown message type: " ++ Text.decimal b.toNat
  | .invalidLength => "Invalid length"
  | .malformedHeader => "Malformed header block"
  | .sizeExceeded => "Max size exceeded"
  | .notUtf8 => "utf8 error"
  | .endOfInput =>
    "io error, Error \x7b kind: UnexpectedEof, message: \"failed to fill whole buffer\" \x7d"

def EncodeError.message : EncodeError → String
  | .destinationRequired t => "Destination is required for " ++ t.label
  | .invalidHeader n => "Invalid header " ++ Text.quote n
  | .invalidLength => "Invalid length"

end MessageBroker
