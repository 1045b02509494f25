import MessageBroker.Text.Terms

/-!
# Durations

A duration is a number of milliseconds below 2^64. It is read from a unit expression in days,
hours, minutes, seconds and milliseconds (`1h30m`, `100ms`; letters in either case), and shown in
seconds from one second on, in milliseconds below.
-/

namespace MessageBroker

/-- A span of time, in milliseconds. -/
structure Duration where
  millis : Nat
deriving DecidableEq, Repr, Inhabited

namespace Duration

/-- The units of a duration. The letter `Y` stands for the two letters of a millisecond, so that
every unit is one letter; it cannot come from the text itself, which is read in small letters. -/
def units : List Text.Unit :=
  [⟨'Y', 1⟩, ⟨'s', 1000⟩, ⟨'m', 60000⟩, ⟨'h', 3600000⟩, ⟨'d', 86400000⟩]

/-- Reads a unit expression; what is no term counts nothing. -/
def read (s : String) : Duration :=
  ⟨Text.total units (Text.replacePair 'm' 's' 'Y' ((Text.trimChars s.toList).map Char.toLower))⟩

def ofSeconds (n : Nat) : Duration := ⟨1000 * n⟩

def isZero (d : Duration) : Bool := d.millis == 0

/-- The digits of a fraction of a second, without the zeros at the end. -/
def fraction (millis : Nat) : List Char :=
  let digits := [millis / 100, millis / 10 % 10, millis % 10].map Nat.digitChar
  (digits.reverse.dropWhile (· = '0')).reverse

/-- As it is shown in messages: `0ns`, `250ms`, `1.5s`, `5415s`. -/
def toText (d : Duration) : String :=
  if d.millis = 0 then "0ns"
  else if d.millis < 1000 then Text.decimal d.millis ++ "ms"
  else
    let f := fraction (d.millis % 1000)
    Text.decimal (d.millis / 1000) ++ (if f.isEmpty then "" else "." ++ String.ofList f) ++ "s"

end Duration

end MessageBroker
