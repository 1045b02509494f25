import MessageBroker.Toml.Value

/-!
# The words of a settings file

Blanks, comments and line ends; names, plain or quoted; the four kinds of strings.
-/

namespace MessageBroker.Toml

/-- A control character, tabs aside. -/
def isControl (c : Char) : Bool := (c.toNat < 0x20 && c != '\t') || c.toNat == 0x7f

def isSpace (c : Char) : Bool := c = ' ' || c = '\t'

def skipSpaces (cs : List Char) : List Char := cs.dropWhile isSpace

/-- What follows the line end in front. -/
def newline? : List Char → Option (List Char)
  | '\n' :: cs => some cs
  | '\r' :: '\n' :: cs => some cs
  | _ => none

/-- What follows the text of a comment; it ends before the line end. -/
def commentText? : List Char → Option (List Char)
  | [] => some []
  | '\n' :: cs => some ('\n' :: cs)
  | '\r' :: '\n' :: cs => some ('\r' :: '\n' :: cs)
  | c :: cs => if isControl c then none else commentText? cs

/-- What follows the comment in front, if there is one. -/
def skipComment? : List Char → Option (List Char)
  | '#' :: cs => commentText? cs
  | cs => some cs

/-- What follows the rest of a line: blanks, perhaps a comment, and the line end or the end. -/
def lineEnd? (cs : List Char) : Option (List Char) :=
  match skipComment? (skipSpaces cs) with
  | none => none
  | some [] => some []
  | some cs => newline? cs

/-- What follows blanks, comments and line ends. -/
def skipLines? : Nat → List Char → Option (List Char)
  | 0, _ => none
  | fuel + 1, cs =>
    match skipComment? (skipSpaces cs) with
    | none => none
    | some cs =>
      match newline? cs with
      | some cs => skipLines? fuel cs
      | none => some cs

/-- The value of a hexadecimal digit. -/
def hexDigit? (c : Char) : Option Nat :=
  if c.isDigit then some (c.toNat - '0'.toNat)
  else if 'a' ≤ c ∧ c ≤ 'f' then some (c.toNat - 'a'.toNat + 10)
  else if 'A' ≤ c ∧ c ≤ 'F' then some (c.toNat - 'A'.toNat + 10)
  else none

/-- The character whose code point the digits write. -/
def codePoint? (digits : List Char) : Option Char := do
  let ds ← digits.mapM hexDigit?
  let n := ds.foldl (fun n d => 16 * n + d) 0
  if n.isValidChar then some (Char.ofNat n) else none

/-- The character of an escape of one letter. -/
def escape? : Char → Option Char
  | 'b' => some '\x08'
  | 'e' => some '\x1b'
  | 't' => some '\t'
  | 'n' => some '\n'
  | 'f' => some '\x0c'
  | 'r' => some '\r'
  | '"' => some '"'
  | '\\' => some '\\'
  | _ => none

/-- The character that an escape stands for, from what follows the backslash. -/
def escaped? : List Char → Option (Char × List Char)
  | 'x' :: a :: b :: cs => (codePoint? [a, b]).map (·, cs)
  | 'u' :: a :: b :: c :: d :: cs => (codePoint? [a, b, c, d]).map (·, cs)
  | 'U' :: a :: b :: c :: d :: e :: f :: g :: h :: cs =>
    (codePoint? [a, b, c, d, e, f, g, h]).map (·, cs)
  | c :: cs => (escape? c).map (·, cs)
  | [] => none

/-- With a character in front. -/
def onto (c : Char) (r : Option (List Char × List Char)) : Option (List Char × List Char) :=
  r.map fun p => (c :: p.1, p.2)

/-- The rest of a string with escapes, up to its quote. -/
def basic? : Nat → List Char → Option (List Char × List Char)
  | 0, _ => none
  | fuel + 1, cs =>
    match cs with
    | [] => none
    | '"' :: cs => some ([], cs)
    | '\\' :: cs => do
      let (c, cs) ← escaped? cs
      onto c (basic? fuel cs)
    | c :: cs => if isControl c then none else onto c (basic? fuel cs)

/-- The rest of a string without escapes, up to its quote. -/
def literal? : List Char → Option (List Char × List Char)
  | [] => none
  | '\'' :: cs => some ([], cs)
  | c :: cs => if isControl c then none else onto c (literal? cs)

/-- What closes a string of several lines: three quotes, and up to two more that belong to it. -/
def closing? (quote : Char) (cs : List Char) : Option (List Char × List Char) :=
  match cs with
  | a :: b :: c :: cs =>
    if a = quote ∧ b = quote ∧ c = quote then
      let more := (cs.takeWhile (· = quote)).take 2
      some (more, cs.drop more.length)
    else none
  | _ => none

/-- What follows blanks and line ends. -/
def skipBlankLines : List Char → List Char
  | '\r' :: '\n' :: cs => skipBlankLines cs
  | c :: cs => if isSpace c || c = '\n' then skipBlankLines cs else c :: cs
  | [] => []

/-- What follows a backslash at the end of a line: blanks and line ends are skipped. -/
def joinedLine? (cs : List Char) : Option (List Char) :=
  (newline? (skipSpaces cs)).map skipBlankLines

/-- The rest of a string of several lines, with escapes or without. Line ends stay as they are. -/
def lines? (quote : Char) : Nat → List Char → Option (List Char × List Char)
  | 0, _ => none
  | fuel + 1, cs =>
    match closing? quote cs with
    | some r => some r
    | none =>
      match cs with
      | [] => none
      | '\n' :: cs => onto '\n' (lines? quote fuel cs)
      | '\r' :: '\n' :: cs => onto '\r' (onto '\n' (lines? quote fuel cs))
      | c :: cs =>
        if c = '\\' ∧ quote = '"' then
          match joinedLine? cs with
          | some cs => lines? quote fuel cs
          | none => do
            let (c, cs) ← escaped? cs
            onto c (lines? quote fuel cs)
        else if isControl c then none
        else onto c (lines? quote fuel cs)

/-- Without the line end in front. -/
def dropNewline (cs : List Char) : List Char := (newline? cs).getD cs

/-- The string in front, on one line. -/
def quoted? : List Char → Option (String × List Char)
  | '"' :: cs => (basic? (cs.length + 1) cs).map fun p => (String.ofList p.1, p.2)
  | '\'' :: cs => (literal? cs).map fun p => (String.ofList p.1, p.2)
  | _ => none

/-- The string in front, of any kind. -/
def string? : List Char → Option (String × List Char)
  | '"' :: '"' :: '"' :: cs =>
    (lines? '"' (cs.length + 1) (dropNewline cs)).map fun p => (String.ofList p.1, p.2)
  | '\'' :: '\'' :: '\'' :: cs =>
    (lines? '\'' (cs.length + 1) (dropNewline cs)).map fun p => (String.ofList p.1, p.2)
  | cs => quoted? cs

/-- A character of a plain name. -/
def isBare (c : Char) : Bool := c.isAlphanum || c = '_' || c = '-'

/-- The name in front. -/
def name? (cs : List Char) : Option (String × List Char) :=
  match cs.takeWhile isBare with
  | [] => quoted? cs
  | bare => some (String.ofList bare, cs.dropWhile isBare)

/-- How many names a path may have, and how many brackets may be open at a time. -/
def depthLimit : Nat := 80

/-- The names in front with points between them, at most so many. -/
def names? : Nat → List Char → Option (List String × List Char)
  | 0, _ => none
  | room + 1, cs => do
    let (name, cs) ← name? cs
    match skipSpaces cs with
    | '.' :: cs =>
      let (names, cs) ← names? room (skipSpaces cs)
      some (name :: names, cs)
    | cs => some ([name], cs)

/-- The path in front. -/
def path? (cs : List Char) : Option (List String × List Char) := names? depthLimit cs

end MessageBroker.Toml
