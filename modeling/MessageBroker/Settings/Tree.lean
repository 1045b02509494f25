import MessageBroker.Text.Number
import MessageBroker.Toml.Value

/-!
# The tree of settings

Settings make a tree: what is set is found under names, or at places of lists. A source adds to the
tree what it sets. A table is merged into the table that is there, name by name; all else takes the
place of what was there.

A setting is named by a path: a name, and behind it points with further names and places in
brackets, as in `task.workers` and `task[0]`. What the path leads through and is not there yet, or
is of another kind, is made up.
-/

namespace MessageBroker.Settings

open Toml (Scalar find? put)

/-- What is set at a node of the tree. -/
inductive Setting
  /-- A place of a list that exists only because a later one does. -/
  | unset
  | scalar (s : Scalar)
  | list (items : List Setting)
  | table (entries : List (String × Setting))

namespace Setting

mutual

/-- What a value of a file sets. -/
def ofValue : Toml.Value → Setting
  | .scalar s => .scalar s
  | .list items => .list (ofValues items)
  | .table entries => .table (ofEntries entries)

/-- What the items of a list set. -/
def ofValues : List Toml.Value → List Setting
  | [] => []
  | v :: vs => ofValue v :: ofValues vs

/-- What the entries of a table set. -/
def ofEntries : List (String × Toml.Value) → List (String × Setting)
  | [] => []
  | (name, v) :: es => (name, ofValue v) :: ofEntries es

end

/-- The entries of a table; what is no table has none. -/
def entries : Setting → List (String × Setting)
  | .table entries => entries
  | _ => []

/-- The items of a list; what is no list has none. -/
def items : Setting → List Setting
  | .list items => items
  | _ => []

/-- What is set under a name. -/
def child (s : Setting) (name : String) : Setting := (find? name s.entries).getD .unset

mutual

/-- What has been set before, with something else set over it. -/
def overlay (before : Setting) : Setting → Setting
  | .table incoming => .table (overlayAll before.entries incoming)
  | s => s

/-- Entries, with others set over them. -/
def overlayAll (before : List (String × Setting)) :
    List (String × Setting) → List (String × Setting)
  | [] => before
  | (name, s) :: es =>
    overlayAll (put name (((find? name before).getD .unset).overlay s) before) es

end

end Setting

/-- A step of a path. -/
inductive PathStep
  | name (name : String)
  /-- A place of a list, counted from its end if negative. -/
  | place (index : Int)
deriving DecidableEq, Repr

/-- The items and the index among them of a place; places that are missing are made up, in front if
the place is counted from the end. -/
def reach (index : Int) (items : List Setting) : List Setting × Nat :=
  let n := index.natAbs
  if 0 ≤ index then (items ++ List.replicate (n + 1 - items.length) .unset, n)
  else (List.replicate (n - items.length) .unset ++ items, items.length - n)

/-- Changes what is at a path. -/
def Setting.change (f : Setting → Setting) : List PathStep → Setting → Setting
  | [], s => f s
  | .name name :: steps, s => .table (put name ((s.child name).change f steps) s.entries)
  | .place index :: steps, s =>
    let (items, i) := reach index s.items
    .list (items.modify i (Setting.change f steps))

/-- A character of a name in a path. -/
def isPathChar (c : Char) : Bool := c.isAlphanum || c = '_' || c = '-'

/-- The name in front. -/
def pathName? (cs : List Char) : Option (String × List Char) :=
  match cs.takeWhile isPathChar with
  | [] => none
  | name => some (String.ofList name, cs.dropWhile isPathChar)

/-- What follows blanks. -/
def skipBlanks (cs : List Char) : List Char := cs.dropWhile fun c => c = ' ' || c = '\t'

/-- A minus sign in front, if there is one, and what follows. -/
def minus : List Char → List Char × List Char
  | '-' :: cs => (['-'], cs)
  | cs => ([], cs)

/-- The place in front, up to the bracket behind it. -/
def place? (cs : List Char) : Option (Int × List Char) := do
  let (sign, cs) := minus (skipBlanks cs)
  let index ← Text.signed? Text.halfWord (sign ++ cs.takeWhile Char.isDigit)
  match skipBlanks (cs.dropWhile Char.isDigit) with
  | ']' :: cs => some (index, cs)
  | _ => none

/-- The steps behind the first name. -/
def steps? : Nat → List Char → Option (List PathStep)
  | _, [] => some []
  | fuel + 1, '.' :: cs => do
    let (name, cs) ← pathName? cs
    (steps? fuel cs).map (.name name :: ·)
  | fuel + 1, '[' :: cs => do
    let (index, cs) ← place? cs
    (steps? fuel cs).map (.place index :: ·)
  | _, _ => none

/-- The path that a key writes; what writes no path is one name. -/
def pathOf (key : String) : List PathStep :=
  let path := do
    let (name, cs) ← pathName? key.toList
    (steps? cs.length cs).map (PathStep.name name :: ·)
  path.getD [.name key]

end MessageBroker.Settings
