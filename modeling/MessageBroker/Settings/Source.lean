import MessageBroker.Settings.Tree
import MessageBroker.Text.Blank
import MessageBroker.Toml.Document

/-!
# Sources of settings

Settings come from files and from the environment; where two sources set the same thing, the later
one counts. A variable of the environment names a setting behind the prefix `SMQ_`, with two low
lines between section and field, in either case; its value is a truth value, a number or else a
text.
-/

namespace MessageBroker.Settings

open Toml (Scalar find?)

/-- Puts what a source sets over what has been set before. -/
def overlayPaths (before : Setting) (source : List (String × Setting)) : Setting :=
  source.foldl (fun t e => t.change (·.overlay e.2) (pathOf e.1)) before

/-- What variables of the environment begin with. -/
def envPrefix : List Char := "smq_".toList

/-- A point for every two low lines. -/
def pointed : List Char → List Char
  | '_' :: '_' :: cs => '.' :: pointed cs
  | c :: cs => c :: pointed cs
  | [] => []

/-- The value of a variable. -/
def envValue (s : String) : Scalar :=
  let word := Text.lower s
  if word = "true" then .boolean true
  else if word = "false" then .boolean false
  else
    match Text.signed? Text.halfWord s.toList with
    | some n => .integer n
    | none =>
      match Text.Binary64.read? s.toList with
      | some x => .real x
      | none => .text s

/-- A character of a variable's name in small letters: the Kelvin sign is the one character beyond
ASCII that has an ASCII letter for its small one. -/
def smallLetter (c : Char) : Char := if c = '\u212a' then 'k' else c.toLower

/-- What a variable sets, if its name has the prefix. -/
def envEntry? (e : String × String) : Option (String × Setting) :=
  let name := e.1.toList.map smallLetter
  if envPrefix.isPrefixOf name then
    some (String.ofList (pointed (name.drop envPrefix.length)), .scalar (envValue e.2))
  else none

/-- What the environment sets. -/
def fromEnvironment (environment : List (String × String)) : List (String × Setting) :=
  environment.filterMap envEntry?

/-- Files of a directory: their contents by name. -/
abbrev Files := List (String × String)

/-- A part of a path that leads nowhere else. -/
def isIdle (part : List Char) : Bool := part = [] || part = ['.']

/-- The content of a settings file: of the very name, or of the name with the file type behind.
Parts of the name that lead nowhere else do not count, but a slash behind the name says that it is
not the name of a file. -/
def file? (files : Files) (name : String) : Option String :=
  let parts := Text.splitOn '/' name.toList
  match parts.filter fun p => !isIdle p with
  | [part] =>
    let file := String.ofList part
    if name.toList.head? = some '/' then none
    else (if parts.getLast? = some part then find? file files else none) <|>
      find? (file ++ ".toml") files
  | _ => none

end MessageBroker.Settings
