import MessageBroker.Text.Blank
import MessageBroker.Text.Quoted

/-!
# Log levels and log targets

A level is named by any non-empty beginning of its long or its short name, in either case; the word
for no logging at all shares the first place and is no level. A target says where records go.
-/

namespace MessageBroker

/-- How urgent a record is, most urgent first. -/
inductive LogLevel
  | critical | error | warning | info | debug | trace
deriving DecidableEq, Repr, Inhabited

/-- No level has a name that begins with the text. -/
structure UnknownLevel where
  text : String
deriving DecidableEq, Repr

def UnknownLevel.message (e : UnknownLevel) : String := "invalid log level " ++ Text.quote e.text

namespace LogLevel

def all : List LogLevel := [critical, error, warning, info, debug, trace]

/-- How many levels are more urgent. -/
def rank : LogLevel → Nat
  | critical => 0
  | error => 1
  | warning => 2
  | info => 3
  | debug => 4
  | trace => 5

/-- The long name. -/
def name : LogLevel → String
  | critical => "CRITICAL"
  | error => "ERROR"
  | warning => "WARNING"
  | info => "INFO"
  | debug => "DEBUG"
  | trace => "TRACE"

/-- The name in four letters. -/
def short : LogLevel → String
  | critical => "CRIT"
  | error => "ERRO"
  | warning => "WARN"
  | info => "INFO"
  | debug => "DEBG"
  | trace => "TRCE"

/-- The name in small letters behind a capital. -/
def label : LogLevel → String
  | critical => "Critical"
  | error => "Error"
  | warning => "Warning"
  | info => "Info"
  | debug => "Debug"
  | trace => "Trace"

/-- The words a level is looked for among, in this order; the first is no level. -/
def words : List (String × Option LogLevel) :=
  [("OFF", none)] ++ all.map (fun l => (l.name, some l)) ++ [("OFF", none)] ++
    all.map (fun l => (l.short, some l))

/-- The level whose name begins with the text. -/
def read? (text : String) : Option LogLevel :=
  let beginning := (Text.upper text).toList
  if beginning.isEmpty then none
  else (words.find? fun w => beginning.isPrefixOf w.1.toList).bind (·.2)

/-- The level whose name begins with the text, or the refusal of the text. -/
def read (text : String) : Except UnknownLevel LogLevel :=
  match read? text with
  | some l => .ok l
  | none => .error ⟨text⟩

/-- Whether records of this level are let through when `least` is the least urgent one wanted. -/
def passes (l least : LogLevel) : Bool := decide (l.rank ≤ least.rank)

end LogLevel

/-- Where log records go. -/
inductive LogTarget
  | off | file | console | both
deriving DecidableEq, Repr, Inhabited

/-- No target has the name. -/
structure UnknownTarget where
  name : String
deriving DecidableEq, Repr

def UnknownTarget.message (e : UnknownTarget) : String :=
  "unknown log target " ++ Text.quote e.name ++ ", expected off|file|console|both"

namespace LogTarget

def label : LogTarget → String
  | off => "Off"
  | file => "File"
  | console => "Console"
  | both => "Both"

/-- Whether records go to a file. -/
def toFile : LogTarget → Bool
  | file | both => true
  | _ => false

/-- Whether records go to the console. -/
def toConsole : LogTarget → Bool
  | console | both => true
  | _ => false

/-- The target with that name, in either case. -/
def read (text : String) : Except UnknownTarget LogTarget :=
  let word := Text.lower text
  if word = "off" then .ok off
  else if word = "file" then .ok file
  else if word = "console" then .ok console
  else if word = "both" then .ok both
  else .error ⟨word⟩

end LogTarget

end MessageBroker
