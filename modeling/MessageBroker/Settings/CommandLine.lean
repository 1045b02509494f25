import MessageBroker.Settings.Basic
import MessageBroker.Text.Number

/-!
# The command line

Three options take a value: `-f` or `--config`, `--laddr` and `--workers`. A value follows in the
next word, or in the same word behind the letter or behind an equals sign; a word that starts with a
dash is never a value, except a dash alone. Behind two dashes there are no more options. There are
no other arguments. The words are looked at in order; only when all have been read are the values
looked at.
-/

namespace MessageBroker

/-- Why a command line is not carried out. -/
inductive OptionsError
  | unknownArgument
  | emptyValue
  /-- A value that cannot be read. -/
  | invalidValue
  | repeated
  | helpRequested
  | versionRequested
deriving DecidableEq, Repr

namespace CommandLine

/-- The options that take a value. -/
inductive Name
  | config | address | workers
deriving DecidableEq, Repr

/-- The options of the words seen so far: how often each came, and its values. -/
structure Seen where
  occurrences : List Name := []
  values : List (Name × String) := []
  /-- The option whose value is due. -/
  due : Option Name := none
  /-- Two dashes have come. -/
  closed : Bool := false

/-- The values of an option. -/
def Seen.valuesOf (s : Seen) (name : Name) : List String :=
  (s.values.filter fun e => e.1 = name).map (·.2)

/-- What a word behind one or two dashes names. -/
inductive Named
  | option (name : Name)
  | help
  | version

def long? (word : String) : Option Named :=
  if word = "config" then some (.option .config)
  else if word = "laddr" then some (.option .address)
  else if word = "workers" then some (.option .workers)
  else if word = "help" then some .help
  else if word = "version" then some .version
  else none

def letter? (c : Char) : Option Named :=
  if c = 'f' then some (.option .config)
  else if c = 'h' then some .help
  else if c = 'V' then some .version
  else none

/-- What comes up to the first equals sign, and what follows it. -/
def splitEquals (cs : List Char) : List Char × Option (List Char) :=
  let front := cs.takeWhile (· ≠ '=')
  match cs.dropWhile (· ≠ '=') with
  | _ :: value => (front, some value)
  | [] => (front, none)

/-- An option comes, with a value in the same word or without. -/
def Seen.meet (s : Seen) (name : Name) (value : Option (List Char)) : Seen :=
  let s := { s with occurrences := s.occurrences ++ [name] }
  match value with
  | some cs =>
    { s with values := s.values ++ [(name, String.ofList (cs.dropWhile (· = '=')))], due := none }
  | none => { s with due := some name }

/-- Reads a word behind two dashes. -/
def Seen.readLong (s : Seen) (cs : List Char) : Except OptionsError Seen :=
  let (name, value) := splitEquals (cs.dropWhile (· = '-'))
  match long? (String.ofList name) with
  | some (.option n) => .ok (s.meet n value)
  | some .help => .error .helpRequested
  | some .version => .error .versionRequested
  | none => .error .unknownArgument

/-- Reads a word behind one dash: its first letter decides. -/
def Seen.readShort (s : Seen) : List Char → Except OptionsError Seen
  | [] => .ok s
  | c :: cs =>
    match letter? c with
    | some (.option n) => .ok (s.meet n (if cs.isEmpty then none else some cs))
    | some .help => .error .helpRequested
    | some .version => .error .versionRequested
    | none => .error .unknownArgument

/-- Reads a word. -/
def Seen.read (s : Seen) (word : String) : Except OptionsError Seen :=
  if s.closed then .error .unknownArgument
  else
    match word.toList with
    | ['-', '-'] => .ok { s with closed := true }
    | '-' :: '-' :: cs => s.readLong cs
    | '-' :: c :: cs => s.readShort (c :: cs)
    | cs =>
      match s.due with
      | some n => .ok { s with values := s.values ++ [(n, String.ofList cs)], due := none }
      | none => .error .unknownArgument

/-- Whether the values of an option can be read. -/
def isReadable : Name → String → Bool
  | .config, _ => true
  | .address, text => (Net.Address.read? text).isSome
  | .workers, text => (Text.word? text).isSome

/-- What is wrong with an option, if anything is. -/
def Seen.problem? (s : Seen) (name : Name) : Option OptionsError :=
  let values := s.valuesOf name
  if !s.occurrences.contains name then none
  else if values.isEmpty then some .emptyValue
  else if values.any fun v => !isReadable name v then some .invalidValue
  else if 1 < s.occurrences.count name then some .repeated
  else none

/-- The option whose value is missing at the end, if it never had one. -/
def Seen.missing? (s : Seen) : Option OptionsError :=
  match s.due with
  | some n => if (s.valuesOf n).isEmpty then some .emptyValue else none
  | none => none

/-- The options of all words. -/
def Seen.finish (s : Seen) : Except OptionsError Options :=
  match s.missing? <|> s.problem? .config <|> s.problem? .address <|> s.problem? .workers with
  | some e => .error e
  | none => .ok
    { config := (s.valuesOf .config).head?
      address := (s.valuesOf .address).head?.bind Net.Address.read?
      workers := (s.valuesOf .workers).head?.bind Text.word? }

end CommandLine

/-- The options that a command line sets. -/
def Options.read (words : List String) : Except OptionsError Options :=
  (words.foldlM CommandLine.Seen.read {}).bind CommandLine.Seen.finish

end MessageBroker
