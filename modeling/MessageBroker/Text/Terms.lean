import MessageBroker.Text.Blank
import MessageBroker.Text.Number

/-!
# Sums of numbers with units

A unit expression is a run of terms, each a number followed by the letter of its unit, such as
`1h30m`. `total` cuts the text behind every unit letter and adds up the terms; a piece that is no
number with a unit counts nothing.
-/

namespace MessageBroker.Text

/-- A unit: its letter and what one of it is worth. -/
structure Unit where
  letter : Char
  worth : Nat
deriving DecidableEq, Repr

/-- What the unit with that letter is worth. -/
def worth? (units : List Unit) (c : Char) : Option Nat :=
  (units.find? fun u => u.letter = c).map (·.worth)

/-- Adds up the terms of a text, given the number that stands before it, last character first. -/
def totalFrom (units : List Unit) (number : List Char) : List Char → Nat
  | [] => 0
  | c :: cs =>
    match worth? units c with
    | some w => ((unsigned? wordBound number.reverse).getD 0) * w + totalFrom units [] cs
    | none => totalFrom units (c :: number) cs

/-- The sum of the terms, as a 64-bit word. -/
def total (units : List Unit) (cs : List Char) : Nat := totalFrom units [] cs % wordBound

/-- Writes `c` for every `a` that is followed by `b`, and for both. -/
def replacePair (a b c : Char) : List Char → List Char
  | x :: y :: r =>
    if x = a ∧ y = b then c :: replacePair a b c r else x :: replacePair a b c (y :: r)
  | r => r

end MessageBroker.Text
