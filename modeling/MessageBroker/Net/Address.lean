import MessageBroker.Text.Number

/-!
# Socket addresses

An address is an IP address of either version with a port: `10.0.0.1:4000`, `[::1]:4000`. The
octets of version 4 are written without leading zeros. In version 6 one run of zero groups may be
left out, the last two groups may be written as a version 4 address, and a zone number may follow a
percent sign; written out, the longest run of at least two zero groups is left out.
-/

namespace MessageBroker.Net

/-- A socket address. -/
inductive Address
  | v4 (octets : List Nat) (port : Nat)
  | v6 (groups : List Nat) (zone port : Nat)
deriving DecidableEq, Repr

namespace Address

/-- The value of a hexadecimal digit. -/
def hexDigit? (c : Char) : Option Nat :=
  if c.isDigit then some (c.toNat - '0'.toNat)
  else if 'a' ≤ c ∧ c ≤ 'f' then some (c.toNat - 'a'.toNat + 10)
  else if 'A' ≤ c ∧ c ≤ 'F' then some (c.toNat - 'A'.toNat + 10)
  else none

/-- The digits in front, and what follows them. -/
def takeDigits (digit? : Char → Option Nat) : List Char → List Nat × List Char
  | [] => ([], [])
  | c :: cs =>
    match digit? c with
    | none => ([], c :: cs)
    | some d => let r := takeDigits digit? cs; (d :: r.1, r.2)

/-- How a number in an address is written. -/
structure NumberForm where
  base : Nat
  digit? : Char → Option Nat
  /-- How many digits it may have, if that is limited. -/
  width : Option Nat
  leadingZeros : Bool
  bound : Nat

def octetForm : NumberForm := ⟨10, Text.digit?, some 3, false, 256⟩

def groupForm : NumberForm := ⟨16, hexDigit?, some 4, true, 65536⟩

def portForm : NumberForm := ⟨10, Text.digit?, none, true, 65536⟩

def zoneForm : NumberForm := ⟨10, Text.digit?, none, true, 4294967296⟩

/-- The number in front, in the form given. -/
def number? (form : NumberForm) (cs : List Char) : Option (Nat × List Char) :=
  let (ds, rest) := takeDigits form.digit? cs
  let n := ds.foldl (fun n d => form.base * n + d) 0
  let fits := match form.width with
    | some w => decide (ds.length ≤ w)
    | none => true
  let leading := decide (1 < ds.length) && ds.head? == some 0
  if ds.isEmpty || !fits || (leading && !form.leadingZeros) || decide (form.bound ≤ n) then none
  else some (n, rest)

/-- What follows the character in front. -/
def skip? (c : Char) : List Char → Option (List Char)
  | d :: cs => if d = c then some cs else none
  | [] => none

/-- The four octets in front. -/
def octets? (cs : List Char) : Option (List Nat × List Char) := do
  let (a, cs) ← number? octetForm cs
  let (b, cs) ← number? octetForm (← skip? '.' cs)
  let (c, cs) ← number? octetForm (← skip? '.' cs)
  let (d, cs) ← number? octetForm (← skip? '.' cs)
  some ([a, b, c, d], cs)

/-- The two groups that four octets make. -/
def groupsOfOctets : List Nat → List Nat
  | [a, b, c, d] => [256 * a + b, 256 * c + d]
  | _ => []

/-- At most `left` groups with colons between them, whether the last two were written as octets,
and what follows. -/
def readGroups : (left : Nat) → (first : Bool) → List Char → List Nat × Bool × List Char
  | 0, _, cs => ([], false, cs)
  | left + 1, first, cs =>
    let start := if first then some cs else skip? ':' cs
    match (if left = 0 then none else start.bind octets?) with
    | some (os, rest) => (groupsOfOctets os, true, rest)
    | none =>
      match start.bind (number? groupForm) with
      | some (g, rest) =>
        let (gs, octets, rest) := readGroups left false rest
        (g :: gs, octets, rest)
      | none => ([], false, cs)

/-- The eight groups in front. -/
def groups? (cs : List Char) : Option (List Nat × List Char) :=
  let (head, octets, cs) := readGroups 8 true cs
  if head.length = 8 then some (head, cs)
  else if octets then none
  else do
    let cs ← skip? ':' (← skip? ':' cs)
    let (tail, _, cs) := readGroups (7 - head.length) true cs
    some (head ++ List.replicate (8 - head.length - tail.length) 0 ++ tail, cs)

/-- The port behind a colon, with nothing behind it. -/
def port? (cs : List Char) : Option Nat := do
  let (n, rest) ← number? portForm (← skip? ':' cs)
  if rest.isEmpty then some n else none

/-- The zone behind a percent sign; without one it is zero. -/
def zone (cs : List Char) : Nat × List Char :=
  match (skip? '%' cs).bind (number? zoneForm) with
  | some r => r
  | none => (0, cs)

def readV4? (cs : List Char) : Option Address := do
  let (os, cs) ← octets? cs
  some (v4 os (← port? cs))

def readV6? (cs : List Char) : Option Address := do
  let (gs, cs) ← groups? (← skip? '[' cs)
  let (z, cs) := zone cs
  some (v6 gs z (← port? (← skip? ']' cs)))

/-- The address that a text writes. -/
def read? (s : String) : Option Address := readV4? s.toList <|> readV6? s.toList

/-- Numbers with a mark between them. -/
def joined (mark : String) (shown : Nat → String) (ns : List Nat) : String :=
  mark.intercalate (ns.map shown)

def hex (n : Nat) : String := String.ofList (Nat.toDigits 16 n)

/-- How many zeros come first. -/
def zeroRun : List Nat → Nat
  | 0 :: ns => zeroRun ns + 1
  | _ => 0

/-- The place and length of the first longest run of zeros, counted from place `i`. -/
def longestZeroRun (i : Nat) : List Nat → Nat × Nat
  | [] => (0, 0)
  | n :: ns =>
    let here := zeroRun (n :: ns)
    let there := longestZeroRun (i + 1) ns
    if there.2 ≤ here then (i, here) else there

/-- The groups as they are written. -/
def groupsText (gs : List Nat) : String :=
  match gs with
  | [0, 0, 0, 0, 0, 65535, g, h] =>
    "::ffff:" ++ joined "." Text.decimal [g / 256, g % 256, h / 256, h % 256]
  | _ =>
    let (start, length) := longestZeroRun 0 gs
    if 1 < length then
      joined ":" hex (gs.take start) ++ "::" ++ joined ":" hex (gs.drop (start + length))
    else joined ":" hex gs

/-- The address as it is written. -/
def toText : Address → String
  | v4 os port => joined "." Text.decimal os ++ ":" ++ Text.decimal port
  | v6 gs zone port =>
    "[" ++ groupsText gs ++ (if zone = 0 then "" else "%" ++ Text.decimal zone) ++ "]:" ++
      Text.decimal port

end Address

end MessageBroker.Net
