import MessageBroker.Settings.CommandLine
import MessageBroker.Settings.Source

/-!
# Loading settings

The settings file of the broker is read if there is one, then the file that the command line names,
which must be there, then the environment; the rest of the command line is put over everything. A
section is a table of its fields by name, or a list of them in their order.
Values are taken in the form that a setting needs, as far as they can be: numbers and truth values
are good for texts, texts that write them for numbers and truth values. What no setting is named
for is left alone.
-/

namespace MessageBroker

/-- Why settings cannot be loaded. -/
inductive SettingsError
  | missingFile (name : String)
  | malformedFile (name : String)
  /-- A section that is neither a table nor a list. -/
  | badSection (name : String)
  | badValue (section' field : String)
deriving DecidableEq, Repr

namespace Settings

open Toml (Scalar find?)

/-- As a text. -/
def asText : Scalar → Option String
  | .text s => some s
  | .integer n => some (Text.integer n)
  | .real x => some x.toText
  | .boolean b => some (if b then "true" else "false")

/-- The truth value that a word stands for. -/
def truth? (word : String) : Option Bool :=
  if word = "true" ∨ word = "on" ∨ word = "yes" then some true
  else if word = "false" ∨ word = "off" ∨ word = "no" then some false
  else none

/-- As a truth value. -/
def asBool : Scalar → Option Bool
  | .boolean b => some b
  | .integer n => some (n != 0)
  | .real x => some !x.isZero
  | .text s =>
    let word := Text.lower s
    if word = "1" then some true else if word = "0" then some false else truth? word

/-- As a whole number from `low` to `high`, where `read` reads a text. -/
def asNumber (low high : Int) (read : List Char → Option Int) : Scalar → Option Int
  | .integer n => if low ≤ n ∧ n ≤ high then some n else none
  | .real x => some (x.roundWithin low high)
  | .boolean b => some (if b then 1 else 0)
  | .text s =>
    match truth? (Text.lower s) with
    | some b => some (if b then 1 else 0)
    | none => read s.toList

/-- As a count of 64 bits. -/
def asCount (v : Scalar) : Option Nat :=
  (asNumber 0 (Text.wordBound - 1)
    (fun cs => (Text.unsigned? Text.wordBound cs).map Int.ofNat) v).map Int.toNat

/-- As a whole number of 32 bits. -/
def asInt32 (v : Scalar) : Option Int :=
  (asNumber (-Text.halfWord) (Text.halfWord - 1) (Text.signed? Text.halfWord) v).filter fun n =>
    decide (-2147483648 ≤ n ∧ n < 2147483648)

def asDuration (v : Scalar) : Option Duration := (asText v).map Duration.read

def asByteSize (v : Scalar) : Option ByteSize := (asText v).map ByteSize.read

def asAddress (v : Scalar) : Option Net.Address := (asText v).bind Net.Address.read?

def asTarget (v : Scalar) : Option LogTarget := (asText v).bind fun s => (LogTarget.read s).toOption

def asLevel (v : Scalar) : Option LogLevel := (asText v).bind LogLevel.read?

/-- A section of the settings: its name and what is set in it. -/
structure Section where
  name : String
  content : Setting

/-- The section with that name, empty if nothing is set in it. -/
def section? (root : Setting) (name : String) : Except SettingsError Section :=
  match find? name root.entries with
  | none => .ok ⟨name, .table []⟩
  | some (.scalar _) | some .unset => .error (.badSection name)
  | some content => .ok ⟨name, content⟩

/-- What a field is set to: by its name, or by its place if the section is a list. -/
def Section.find? (s : Section) (place : Nat) (field : String) : Option Setting :=
  match s.content with
  | .list items => items[place]?
  | content => Toml.find? field content.entries

/-- What a field is set to, in the form that it needs, or else the default. -/
def Section.get {α : Type} (s : Section) (form : Scalar → Option α) (default : α) (place : Nat)
    (field : String) : Except SettingsError α :=
  match s.find? place field with
  | none => .ok default
  | some (.scalar v) =>
    match form v with
    | some a => .ok a
    | none => .error (.badValue s.name field)
  | some _ => .error (.badValue s.name field)

def readListener (s : Section) (d : ListenerSettings) : Except SettingsError ListenerSettings := do
  return {
    name := ← s.get asText d.name 0 "name"
    address := ← s.get asAddress d.address 1 "addr"
    backlog := ← s.get asInt32 d.backlog 2 "backlog"
    noDelay := ← s.get asBool d.noDelay 3 "nodelay"
    reuseAddress := ← s.get asBool d.reuseAddress 4 "reuseaddr"
    reusePort := ← s.get asBool d.reusePort 5 "reuseport"
    maxConnections := ← s.get asCount d.maxConnections 6 "max_connections"
    maxPacketSize := ← s.get asByteSize d.maxPacketSize 7 "max_packet_size"
    sendTimeout := ← s.get asDuration d.sendTimeout 8 "send_timeout" }

def readBroker (s : Section) (d : BrokerSettings) : Except SettingsError BrokerSettings := do
  return {
    username := ← s.get asText d.username 0 "username"
    password := ← s.get asText d.password 1 "password"
    pollTimeout := ← s.get asDuration d.pollTimeout 2 "poll_timeout"
    lockTimeout := ← s.get asDuration d.lockTimeout 3 "lock_timeout"
    messageExpiry := ← s.get asDuration d.messageExpiry 4 "message_expiry"
    sweepInterval := ← s.get asDuration d.sweepInterval 5 "store_sweep_interval"
    sendAcks := ← s.get asBool d.sendAcks 6 "send_acks" }

def readTask (s : Section) (d : WorkerSettings) : Except SettingsError WorkerSettings := do
  return {
    workers := ← s.get asCount d.workers 0 "workers"
    idleTimeout := ← s.get asDuration d.idleTimeout 1 "idle_timeout" }

def readLog (s : Section) (d : LogSettings) : Except SettingsError LogSettings := do
  return {
    target := ← s.get asTarget d.target 0 "to"
    level := ← s.get asLevel d.level 1 "level"
    directory := ← s.get asText d.directory 2 "dir"
    file := ← s.get asText d.file 3 "file" }

/-- The settings that a tree makes. -/
def ofTree (root : Setting) : Except SettingsError Settings := do
  let d : Settings := {}
  return {
    listener := ← readListener (← section? root "listener") d.listener
    broker := ← readBroker (← section? root "broker") d.broker
    task := ← readTask (← section? root "task") d.task
    log := ← readLog (← section? root "log") d.log }

/-- Without the mark of its encoding in front of a text. -/
def dropMark (text : String) : String :=
  match text.toList with
  | '\ufeff' :: cs => String.ofList cs
  | _ => text

/-- What a file sets; one that need not be there sets nothing if it is not. -/
def fromFile (files : Files) (name : String) (required : Bool) :
    Except SettingsError (List (String × Setting)) :=
  match file? files name with
  | none => if required then .error (.missingFile name) else .ok []
  | some content =>
    match Toml.read? (dropMark content) with
    | some entries => .ok (Setting.ofEntries entries)
    | none => .error (.malformedFile name)

/-- Loads the settings from the files of a directory, the environment and the command line. -/
def load (files : Files) (environment : List (String × String)) (o : Options) :
    Except SettingsError Settings := do
  let own ← fromFile files "smq" false
  let named ← match o.config with
    | some name => fromFile files name true
    | none => .ok []
  let all := [own, named, fromEnvironment environment].foldl overlayPaths (.table [])
  return (← ofTree all).withOptions o

end Settings

end MessageBroker
