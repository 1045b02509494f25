import MessageBroker.Text.Terms

/-!
# Byte counts

A byte count below 2^64 is written as so many gigabytes, megabytes, kilobytes and bytes, the parts
that are zero left out (`1G2K`, `0B`), and read from any unit expression in those units or from a
bare number.
-/

namespace MessageBroker

/-- A number of bytes. -/
structure ByteSize where
  bytes : Nat
deriving DecidableEq, Repr, Inhabited

namespace ByteSize

/-- The units, largest first. -/
def units : List Text.Unit :=
  [⟨'G', 1073741824⟩, ⟨'M', 1048576⟩, ⟨'K', 1024⟩, ⟨'B', 1⟩]

/-- The text in capitals, with the letter `B` of a two-letter unit dropped. -/
def normalize (s : String) : List Char :=
  Text.replacePair 'K' 'B' 'K' <| Text.replacePair 'M' 'B' 'M' <| Text.replacePair 'G' 'B' 'G' <|
    (Text.trimChars s.toList).map Char.toUpper

/-- Reads a bare number or a unit expression; what is no term counts nothing. -/
def read (s : String) : ByteSize :=
  let cs := normalize s
  match Text.unsigned? Text.wordBound cs with
  | some n => ⟨n⟩
  | none => ⟨Text.total units cs⟩

/-- One part of a written count: nothing for zero. -/
def part (n : Nat) (letter : Char) : String :=
  if n = 0 then "" else Text.decimal n ++ letter.toString

/-- The written count. -/
def toText (b : ByteSize) : String :=
  let n := b.bytes
  let text := part (n / 1073741824) 'G' ++ part (n % 1073741824 / 1048576) 'M' ++
    part (n % 1048576 / 1024) 'K' ++ part (n % 1024) 'B'
  if n = 0 then "0B" else text

/-- The largest 32-bit word. -/
def maxWord32 : Nat := 4294967295

/-- As a 32-bit word, the largest one if it does not fit. -/
def toWord32 (b : ByteSize) : Nat := min b.bytes maxWord32

end ByteSize

end MessageBroker
