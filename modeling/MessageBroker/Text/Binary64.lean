import MessageBroker.Text.Number

/-!
# Binary floating-point numbers

A number of the binary64 format is a mantissa of at most 53 binary digits times a power of two with
exponent at least -1074, or an infinity, or no number. A decimal is read to the nearest such number,
of two equally near ones to the one with an even mantissa. It is written with the fewest digits that
are read back, in positional notation; of two candidates equally near the greater is taken.
-/

namespace MessageBroker.Text

/-- A binary64 number. -/
inductive Binary64
  /-- The mantissa times two to the exponent. -/
  | finite (negative : Bool) (mantissa : Nat) (exponent : Int)
  | infinite (negative : Bool)
  | notANumber
deriving DecidableEq, Repr

namespace Binary64

/-- The least exponent. -/
def minExponent : Int := -1074

/-- The first exponent that is too great. -/
def exponentBound : Int := 972

/-- How many digits a mantissa has at most. -/
def precision : Nat := 53

/-- A power of the base two or ten. -/
def power (base n : Nat) : Nat := Nat.pow base n

/-- The quotient rounded to the nearest number, a half to the even neighbour. -/
def divideRound (n d : Nat) : Nat :=
  let q := n / d
  let r := 2 * (n % d)
  if r < d then q else if d < r then q + 1 else if q % 2 = 0 then q else q + 1

/-- A fraction times two to the power of `-e`, as a fraction. -/
def scale (n d : Nat) (e : Int) : Nat × Nat :=
  if e < 0 then (n * power 2 e.natAbs, d) else (n, d * power 2 e.natAbs)

/-- The exponent of the number nearest to a positive fraction, before the mantissa is rounded. -/
def exponentOf (n d : Nat) : Int :=
  let guess : Int := (Nat.log2 n : Int) - Nat.log2 d - (precision - 1)
  let (n', d') := scale n d guess
  max minExponent (if n' < d' * power 2 (precision - 1) then guess - 1 else guess)

/-- The number nearest to a fraction. -/
def ofFraction (negative : Bool) (n d : Nat) : Binary64 :=
  if n = 0 then finite negative 0 minExponent
  else
    let e := exponentOf n d
    let (n', d') := scale n d e
    let m := divideRound n' d'
    let (m, e) := if m = power 2 precision then (power 2 (precision - 1), e + 1) else (m, e)
    if exponentBound ≤ e then infinite negative else finite negative m e

/-- The number nearest to some digits times ten to the power of `e`. -/
def ofDecimal (negative : Bool) (digits : Nat) (e : Int) : Binary64 :=
  let size : Int := (Nat.toDigits 10 digits).length
  if digits = 0 then finite negative 0 minExponent
  else if 400 < e + size then infinite negative
  else if e + size < -400 then finite negative 0 minExponent
  else if e < 0 then ofFraction negative digits (power 10 e.natAbs)
  else ofFraction negative (digits * power 10 e.natAbs) 1

/-- The value times four, as a fraction: fine enough for the middle between two neighbours. -/
def quarters (m : Nat) (e : Int) : Nat × Nat :=
  if e < 0 then (4 * m, power 2 e.natAbs) else (4 * m * power 2 e.natAbs, 1)

/-- Twice the unit in the last place above, and below, as numerators over the same denominator. -/
def gaps (m : Nat) (e : Int) : Nat × Nat :=
  let unit := if e < 0 then 1 else power 2 e.natAbs
  (2 * unit, if m = power 2 (precision - 1) ∧ minExponent < e then unit else 2 * unit)

/-- Whether `digits` times ten to the power of `k` is read back as the number. -/
def readsBack (m : Nat) (e : Int) (digits : Nat) (k : Int) : Bool :=
  let (value, d) := quarters m e
  let (above, below) := gaps m e
  let (x, y) :=
    if k < 0 then (4 * digits * d, power 10 k.natAbs) else (4 * digits * d * power 10 k.natAbs, 1)
  let low := (value - below) * y
  let high := (value + above) * y
  if m % 2 = 0 then low ≤ x && x ≤ high else decide (low < x) && decide (x < high)

/-- The neighbours of the number on the grid of multiples of ten to the power of `k`, the nearer
one first. -/
def neighbours (m : Nat) (e : Int) (k : Int) : List Nat :=
  let (value, d) := quarters m e
  let (n, d) :=
    if k < 0 then (value * power 10 k.natAbs, 4 * d) else (value, 4 * d * power 10 k.natAbs)
  let q := n / d
  if 2 * (n % d) < d then [q, q + 1] else [q + 1, q]

/-- The exponent of the leading decimal digit of a positive number. -/
def leadingExponent (m : Nat) (e : Int) : Int :=
  let (value, d) := quarters m e
  (Nat.toDigits 10 (value * power 10 400 / (4 * d))).length - 401

/-- The fewest digits that are read back, with the exponent of the last one, looked for on finer and
finer grids. -/
def shortestFrom (m : Nat) (e : Int) (k : Int) : Nat → Nat × Int
  | 0 => (m, e)
  | fuel + 1 =>
    match (neighbours m e k).find? fun digits => readsBack m e digits k with
    | some digits => (digits, k)
    | none => shortestFrom m e (k - 1) fuel

/-- The fewest digits that are read back, with the exponent of the last one. -/
def shortest (m : Nat) (e : Int) : Nat × Int := shortestFrom m e (leadingExponent m e + 1) 20

/-- Digits in positional notation, the last one worth ten to the power of `k`. -/
def positional (digits : Nat) (k : Int) : String :=
  if 0 ≤ k then decimal (digits * power 10 k.natAbs)
  else
    let places := k.natAbs
    let cs := (Nat.toDigits 10 digits)
    let cs := List.replicate (places + 1 - cs.length) '0' ++ cs
    let whole := cs.take (cs.length - places)
    let fraction := (cs.drop (cs.length - places)).reverse.dropWhile (· = '0') |>.reverse
    String.ofList whole ++ (if fraction.isEmpty then "" else "." ++ String.ofList fraction)

/-- The sign of a negative number. -/
def sign (negative : Bool) : String := if negative then "-" else ""

/-- As it is written. -/
def toText : Binary64 → String
  | notANumber => "NaN"
  | infinite negative => sign negative ++ "inf"
  | finite negative 0 _ => sign negative ++ "0"
  | finite negative m e =>
    let (digits, k) := shortest m e
    sign negative ++ positional digits k

/-- The nearest whole number, a half away from zero. -/
def roundMagnitude (m : Nat) (e : Int) : Nat :=
  if e < 0 then (2 * m + power 2 e.natAbs) / (2 * power 2 e.natAbs) else m * power 2 e.natAbs

/-- The nearest whole number from `low` to `high`; no number counts as zero. -/
def roundWithin (low high : Int) : Binary64 → Int
  | notANumber => 0
  | infinite true => low
  | infinite false => high
  | finite negative m e =>
    let n : Int := roundMagnitude m e
    max low (min high (if negative then -n else n))

/-- Whether the number is zero. -/
def isZero : Binary64 → Bool
  | finite _ m _ => m == 0
  | _ => false

/-- Digits in front, and what follows them. -/
def takeDigits : List Char → List Nat × List Char
  | [] => ([], [])
  | c :: cs =>
    match digit? c with
    | some d => let r := takeDigits cs; (d :: r.1, r.2)
    | none => ([], c :: cs)

/-- The exponent in front behind an `e`; nothing at all is zero. -/
def exponent? : List Char → Option Int
  | [] => some 0
  | c :: cs =>
    if c = 'e' ∨ c = 'E' then
      let (negative, cs) := match cs with
        | '-' :: r => (true, r)
        | '+' :: r => (false, r)
        | r => (false, r)
      (natural? cs).map fun n => if negative then -(n : Int) else n
    else none

/-- The value of digits. -/
def ofDigits (ds : List Nat) : Nat := ds.foldl (fun n d => 10 * n + d) 0

/-- Reads digits with an optional point among, before or behind them, and an optional exponent. -/
def readUnsigned? (negative : Bool) (cs : List Char) : Option Binary64 :=
  let (whole, rest) := takeDigits cs
  let (fraction, rest) := match rest with
    | '.' :: r => takeDigits r
    | r => ([], r)
  if whole.isEmpty && fraction.isEmpty then none
  else (exponent? rest).map fun e =>
    ofDecimal negative (ofDigits (whole ++ fraction)) (e - fraction.length)

/-- Reads a number behind an optional sign; infinity and no number are named in either case. -/
def read? (cs : List Char) : Option Binary64 :=
  let (negative, cs) := match cs with
    | '-' :: r => (true, r)
    | '+' :: r => (false, r)
    | r => (false, r)
  let word := String.ofList (cs.map Char.toLower)
  if word = "inf" ∨ word = "infinity" then some (infinite negative)
  else if word = "nan" then some notANumber
  else readUnsigned? negative cs

end Binary64

end MessageBroker.Text
