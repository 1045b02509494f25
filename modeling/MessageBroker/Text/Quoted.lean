import MessageBroker.Text.Number
import MessageBroker.Text.Printable

/-!
# Quoted text

`quote` puts a text between double quotes so that it can be told apart from the words around it:
quotes, backslashes and the common controls get a backslash, and every other character that does
not show by itself is written by its code point in hexadecimal.
-/

namespace MessageBroker.Text

/-- The code point in hexadecimal, between braces. -/
def escapeCode (c : Char) : String :=
  "\\u\x7b" ++ String.ofList (Nat.toDigits 16 c.toNat) ++ "\x7d"

/-- One character of a quoted text. -/
def quoteChar (c : Char) : String :=
  if c = '"' then "\\\""
  else if c = '\\' then "\\\\"
  else if c = '\n' then "\\n"
  else if c = '\r' then "\\r"
  else if c = '\t' then "\\t"
  else if c = '\x00' then "\\0"
  else if isExtending c || !isPrintable c then escapeCode c
  else c.toString

/-- The text between quotes. -/
def quote (s : String) : String := "\"" ++ String.join (s.toList.map quoteChar) ++ "\""

/-- An optional value: `Some(...)` around what `shown` writes, or `None`. -/
def optional {α : Type} (shown : α → String) : Option α → String
  | some a => "Some(" ++ shown a ++ ")"
  | none => "None"

end MessageBroker.Text
