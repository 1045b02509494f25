import MessageBroker.Toml.Lexical

/-!
# Numbers, dates and times of a settings file

Whole numbers have 64 bits and may be written to the base two, eight, ten or sixteen; digits may be
grouped by low lines. Dates and times are kept as text in their written form.
-/

namespace MessageBroker.Toml

/-- Digits of a kind without the low lines between them. -/
def ungrouped? (isDigit : Char → Bool) : List Char → Option (List Char)
  | [] => none
  | [c] => if isDigit c then some [c] else none
  | c :: '_' :: cs => if isDigit c then (ungrouped? isDigit cs).map (c :: ·) else none
  | c :: cs => if isDigit c then (ungrouped? isDigit cs).map (c :: ·) else none

/-- The value of digits to a base, none if one does not belong to it. -/
def ofBase? (base : Nat) (cs : List Char) : Option Nat := do
  let cs ← ungrouped? (fun c => (hexDigit? c).any fun d => decide (d < base)) cs
  let ds ← cs.mapM hexDigit?
  some (ds.foldl (fun n d => base * n + d) 0)

/-- A sign, and what follows it. -/
def sign (cs : List Char) : Option Bool × List Char :=
  match cs with
  | '-' :: cs => (some true, cs)
  | '+' :: cs => (some false, cs)
  | cs => (none, cs)

/-- Decimal digits without a zero in front of others. -/
def wholeDigits? (cs : List Char) : Option (List Char) :=
  match cs with
  | '0' :: _ :: _ => none
  | _ => ungrouped? Char.isDigit cs

/-- What a 64-bit word can hold. -/
def inWord (n : Int) : Option Int :=
  if -Text.halfWord ≤ n ∧ n < Text.halfWord then some n else none

/-- A whole number. -/
def integer? (cs : List Char) : Option Int :=
  match cs with
  | '0' :: 'x' :: ds => (ofBase? 16 ds).bind fun n => inWord n
  | '0' :: 'o' :: ds => (ofBase? 8 ds).bind fun n => inWord n
  | '0' :: 'b' :: ds => (ofBase? 2 ds).bind fun n => inWord n
  | _ =>
    let (negative, cs) := sign cs
    (wholeDigits? cs).bind fun ds => (Text.natural? ds).bind fun n =>
      inWord (if negative = some true then -(n : Int) else n)

/-- The digits of an exponent, with its sign. -/
def exponent? (cs : List Char) : Option Int :=
  let (negative, cs) := sign cs
  (ungrouped? Char.isDigit cs).bind fun ds => (Text.natural? ds).map fun n =>
    if negative = some true then -(n : Int) else n

/-- The parts of a number with a fraction or an exponent: digits, places and exponent. -/
def decimalParts? (cs : List Char) : Option (List Char × Nat × Int) := do
  let front := cs.takeWhile fun c => c ≠ 'e' && c ≠ 'E'
  let back := cs.drop front.length
  let exponent ← match back with
    | [] => some 0
    | _ :: digits => exponent? digits
  let whole := front.takeWhile (· ≠ '.')
  let ws ← wholeDigits? whole
  match front.drop whole.length with
  | [] => if back.isEmpty then none else some (ws, 0, exponent)
  | _ :: fraction =>
    let fs ← ungrouped? Char.isDigit fraction
    some (ws ++ fs, fs.length, exponent)

/-- A number with a fraction or an exponent; one too great for its format is none. -/
def real? (cs : List Char) : Option Text.Binary64 :=
  let (s, cs) := sign cs
  let negative := s = some true
  if cs = ['i', 'n', 'f'] then some (.infinite negative)
  else if cs = ['n', 'a', 'n'] then some .notANumber
  else
    (decimalParts? cs).bind fun (digits, places, e) => (Text.natural? digits).bind fun n =>
      match Text.Binary64.ofDecimal negative n (e - places) with
      | .infinite _ => none
      | x => some x

/-- A number of so many digits in front. -/
def fixed? (width : Nat) (cs : List Char) : Option (Nat × List Char) :=
  let ds := cs.take width
  if ds.length = width ∧ ds.all Char.isDigit then
    (Text.natural? ds).map fun n => (n, cs.drop width)
  else none

/-- What follows the character in front. -/
def after? (c : Char) : List Char → Option (List Char)
  | d :: cs => if d = c then some cs else none
  | [] => none

/-- How many days a month has. -/
def daysOf (year month : Nat) : Nat :=
  if month = 2 then
    if year % 4 = 0 ∧ (year % 100 ≠ 0 ∨ year % 400 = 0) then 29 else 28
  else if month = 4 ∨ month = 6 ∨ month = 9 ∨ month = 11 then 30
  else 31

/-- A number in so many digits. -/
def padded (width n : Nat) : String :=
  let ds := Nat.toDigits 10 n
  String.ofList (List.replicate (width - ds.length) '0' ++ ds)

/-- A date in front, as it is written. -/
def date? (cs : List Char) : Option (String × List Char) := do
  let (year, cs) ← fixed? 4 cs
  let (month, cs) ← fixed? 2 (← after? '-' cs)
  let (day, cs) ← fixed? 2 (← after? '-' cs)
  if 1 ≤ month ∧ month ≤ 12 ∧ 1 ≤ day ∧ day ≤ daysOf year month then
    some (padded 4 year ++ "-" ++ padded 2 month ++ "-" ++ padded 2 day, cs)
  else none

/-- The fraction of a second in front, to nine places, without zeros at the end but with one place
at least. -/
def secondFraction? (cs : List Char) : Option (String × List Char) :=
  match cs with
  | '.' :: cs =>
    let ds := cs.takeWhile Char.isDigit
    if ds.isEmpty then none
    else
      let shown := ((ds.take 9).reverse.dropWhile (· = '0')).reverse
      some ("." ++ (if shown.isEmpty then "0" else String.ofList shown), cs.drop ds.length)
  | cs => some ("", cs)

/-- The seconds of a time in front, as they are written; they may be left out. -/
def seconds? (cs : List Char) : Option (String × List Char) :=
  match cs with
  | ':' :: cs => do
    let (second, cs) ← fixed? 2 cs
    let (fraction, cs) ← secondFraction? cs
    if second ≤ 60 then some (":" ++ padded 2 second ++ fraction, cs) else none
  | cs => some ("", cs)

/-- A time of day in front, as it is written. -/
def time? (cs : List Char) : Option (String × List Char) := do
  let (hour, cs) ← fixed? 2 cs
  let (minute, cs) ← fixed? 2 (← after? ':' cs)
  let (seconds, cs) ← seconds? cs
  if hour ≤ 23 ∧ minute ≤ 59 then
    some (padded 2 hour ++ ":" ++ padded 2 minute ++ seconds, cs)
  else none

/-- A distance from the zero meridian's time, as it is written. -/
def offset? (cs : List Char) : Option String :=
  match cs with
  | [] => some ""
  | ['Z'] | ['z'] => some "Z"
  | c :: cs =>
    if c = '+' ∨ c = '-' then do
      let (hour, cs) ← fixed? 2 cs
      let (minute, cs) ← fixed? 2 (← after? ':' cs)
      let mark := if c = '-' ∧ hour + minute ≠ 0 then "-" else "+"
      if cs.isEmpty ∧ hour ≤ 23 ∧ minute ≤ 59 then
        some (mark ++ padded 2 hour ++ ":" ++ padded 2 minute)
      else none
    else none

/-- A date, a time of day, or both, as it is written. -/
def moment? (cs : List Char) : Option String :=
  match date? cs with
  | some (date, []) => some date
  | some (date, c :: cs) =>
    if c = 'T' ∨ c = 't' ∨ c = ' ' then do
      let (time, cs) ← time? cs
      let offset ← offset? cs
      some (date ++ "T" ++ time ++ offset)
    else none
  | none => match time? cs with
    | some (time, []) => some time
    | _ => none

/-- A character of a number, a date or a word. -/
def isToken (c : Char) : Bool := isBare c || c = '+' || c = '.' || c = ':'

/-- The characters in front that make one value; a time may follow a date behind a blank. -/
def token (cs : List Char) : List Char × List Char :=
  let front := cs.takeWhile isToken
  let rest := cs.drop front.length
  match (date? front).map (·.2), rest with
  | some [], ' ' :: a :: b :: ':' :: more =>
    if a.isDigit && b.isDigit then
      let back := a :: b :: ':' :: more.takeWhile isToken
      (front ++ ' ' :: back, rest.drop (back.length + 1))
    else (front, rest)
  | _, _ => (front, rest)

/-- The value that a token writes. -/
def scalar? (cs : List Char) : Option Scalar :=
  if cs = "true".toList then some (.boolean true)
  else if cs = "false".toList then some (.boolean false)
  else
    (moment? cs).map Scalar.text <|> (integer? cs).map Scalar.integer <|> (real? cs).map Scalar.real

end MessageBroker.Toml
