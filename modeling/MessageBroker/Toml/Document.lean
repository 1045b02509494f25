import MessageBroker.Toml.Scalar

/-!
# Settings files

A file is a sequence of lines: a header opens a table, or another table of a list of tables, and an
assignment puts a value into the table that is open. Names may be paths. Nothing is defined twice: a
table that a header or an inline table has defined is not defined again, and a table into which a
path of an assignment has led is not opened by a header.
-/

namespace MessageBroker.Toml

/-- What a name stands for while the file is read. -/
inductive Node
  | leaf (v : Value)
  /-- A table that no header has opened yet if `implicit`; the path of an assignment has led into it
  if `dotted`. -/
  | table (implicit dotted : Bool) (entries : List (String × Node))
  /-- The tables of a list, the last one open. -/
  | series (earlier : List Node) (last : Node)

/-- A table that a header has opened. -/
def Node.opened : Node := .table false false []

mutual

/-- The value that a node has come to. -/
def Node.value : Node → Value
  | .leaf v => v
  | .table _ _ entries => .table (Node.valuesByName entries)
  | .series earlier last => .list (Node.values earlier ++ [last.value])

/-- The values of entries. -/
def Node.valuesByName : List (String × Node) → List (String × Value)
  | [] => []
  | (name, n) :: es => (name, n.value) :: Node.valuesByName es

/-- The values of nodes. -/
def Node.values : List Node → List Value
  | [] => []
  | n :: ns => n.value :: Node.values ns

end

/-- Changes the table at a path, which is made up as far as it does not exist. A path of an
assignment does not lead through tables that a header has opened. -/
def Node.within (dotted : Bool) (f : Node → Option Node) : List String → Node → Option Node
  | [], n => f n
  | name :: names, .table i d entries =>
    match find? name entries with
    | none => do
      let child ← Node.within dotted f names (.table true dotted [])
      some (.table i d (put name child entries))
    | some (.leaf _) => none
    | some (.series earlier last) => do
      let last ← Node.within dotted f names last
      some (.table i d (put name (.series earlier last) entries))
    | some (.table i' d' entries') =>
      if dotted && !i' then none
      else do
        let child ← Node.within dotted f names (.table i' d' entries')
        some (.table i d (put name child entries))
  | _ :: _, _ => none

/-- Puts a value under a name that is free; `dotted` says whether a path led to the table. -/
def Node.assign (dotted : Bool) (name : String) (v : Value) : Node → Option Node
  | .table i d entries =>
    if (dotted && !i) || (find? name entries).isSome then none
    else some (.table i (d || dotted) (put name (.leaf v) entries))
  | _ => none

/-- Opens a table. -/
def Node.openTable (name : String) : Node → Option Node
  | .table i d entries =>
    match find? name entries with
    | none => some (.table i d (put name .opened entries))
    | some (.table true false inner) =>
      some (.table i d (put name (.table false false inner) entries))
    | some _ => none
  | _ => none

/-- Opens another table of a list of tables. -/
def Node.openNext (name : String) : Node → Option Node
  | .table i d entries =>
    match find? name entries with
    | none => some (.table i d (put name (.series [] .opened) entries))
    | some (.series earlier last) =>
      some (.table i d (put name (.series (earlier ++ [last]) .opened) entries))
    | some _ => none
  | _ => none

/-- Does something at the last name of a path. -/
def atLast (names : List String) (f : List String → String → Option Node) : Option Node :=
  match names.reverse with
  | [] => none
  | name :: before => f before.reverse name

/-- Puts a value at a path. -/
def Node.set (n : Node) (names : List String) (v : Value) : Option Node :=
  atLast names fun before name => n.within true (Node.assign (!before.isEmpty) name v) before

/-- What follows blanks, comments and line ends, all of which may stand between brackets. -/
def skipTrivia? (cs : List Char) : Option (List Char) := skipLines? (cs.length + 1) cs

mutual

/-- The value in front, in which at most `room` brackets are open at a time. -/
def value? : Nat → Nat → List Char → Option (Value × List Char)
  | 0, _, _ => none
  | fuel + 1, room, cs =>
    match cs, room with
    | '[' :: _, 0 | '\x7b' :: _, 0 => none
    | '[' :: cs, room + 1 => (items? fuel room cs).map fun p => (.list p.1, p.2)
    | '\x7b' :: cs, room + 1 => (pairs? fuel room .opened cs).map fun p => (p.1.value, p.2)
    | '"' :: _, _ | '\'' :: _, _ => (string? cs).map fun p => (.scalar (.text p.1), p.2)
    | _, _ =>
      let (front, rest) := token cs
      (scalar? front).map (.scalar ·, rest)

/-- The rest of a list. -/
def items? : Nat → Nat → List Char → Option (List Value × List Char)
  | 0, _, _ => none
  | fuel + 1, room, cs => do
    match ← skipTrivia? cs with
    | ']' :: cs => some ([], cs)
    | cs =>
      let (v, cs) ← value? fuel room cs
      match ← skipTrivia? cs with
      | ']' :: cs => some ([v], cs)
      | ',' :: cs =>
        let (vs, cs) ← items? fuel room cs
        some (v :: vs, cs)
      | _ => none

/-- The rest of an inline table that has been read into `n` so far. -/
def pairs? : Nat → Nat → Node → List Char → Option (Node × List Char)
  | 0, _, _, _ => none
  | fuel + 1, room, n, cs => do
    match ← skipTrivia? cs with
    | '\x7d' :: cs => some (n, cs)
    | cs =>
      let (names, cs) ← path? cs
      let cs ← after? '=' (← skipTrivia? cs)
      let (v, cs) ← value? fuel room (← skipTrivia? cs)
      let n ← n.set names v
      match ← skipTrivia? cs with
      | '\x7d' :: cs => some (n, cs)
      | ',' :: cs => pairs? fuel room n cs
      | _ => none

end

/-- A file in the middle of being read: what has been defined, and the path of the open table. -/
structure Draft where
  root : Node := .opened
  current : List String := []

/-- Reads the line in front. -/
def Draft.readLine (d : Draft) (cs : List Char) : Option (Draft × List Char) := do
  match skipSpaces cs with
  | '[' :: '[' :: cs =>
    let (names, cs) ← path? (skipSpaces cs)
    let cs ← after? ']' (skipSpaces cs)
    let cs ← after? ']' cs
    let root ← atLast names fun before name => d.root.within false (Node.openNext name) before
    some (⟨root, names⟩, ← lineEnd? cs)
  | '[' :: cs =>
    let (names, cs) ← path? (skipSpaces cs)
    let cs ← after? ']' (skipSpaces cs)
    let root ← atLast names fun before name => d.root.within false (Node.openTable name) before
    some (⟨root, names⟩, ← lineEnd? cs)
  | cs =>
    match lineEnd? cs with
    | some cs => some (d, cs)
    | none =>
      let (names, cs) ← path? cs
      let cs ← after? '=' (skipSpaces cs)
      let (v, cs) ← value? (cs.length + 1) depthLimit (skipSpaces cs)
      let root ← d.root.within false (fun n => n.set names v) d.current
      some ({ d with root }, ← lineEnd? cs)

/-- Reads lines up to the end. -/
def Draft.readLines (d : Draft) : Nat → List Char → Option Draft
  | _, [] => some d
  | 0, _ :: _ => none
  | fuel + 1, c :: cs => do
    let (d, rest) ← d.readLine (c :: cs)
    d.readLines fuel rest

/-- The entries of a file, none if it is not well formed. -/
def read? (text : String) : Option (List (String × Value)) :=
  let cs := match text.toList with
    | '\ufeff' :: cs => cs
    | cs => cs
  match ({} : Draft).readLines cs.length cs with
  | none => none
  | some d =>
    match d.root.value with
    | .table entries => some entries
    | _ => none

end MessageBroker.Toml
