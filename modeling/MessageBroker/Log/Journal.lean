import MessageBroker.Log.Level

/-!
# Where log lines end up

A logger writes the records that are urgent enough, line by line, to the console, to a file, to both
or nowhere. The file is opened when the first line is due and lines go behind what it holds. When it
cannot be opened, the line is tried once more and then the logger gives up: it writes nothing from
then on, to the console neither. Records can also reach the logger through the one facade that a
process has, which takes a logger once.

Headline:
* **`file_writeAll`**: what the file held before is kept, and behind it stand the lines of the
  records that pass, in their order.
-/

namespace MessageBroker

/-- Something to be logged. -/
structure LogRecord where
  level : LogLevel
  text : String
deriving DecidableEq, Repr

/-- The record as a line, without its time. -/
def LogRecord.line (r : LogRecord) : String := r.level.short ++ " " ++ r.text

/-- A logger and what it has written to. -/
structure Journal where
  target : LogTarget
  /-- The least urgent level that is written. -/
  level : LogLevel
  /-- Whether the file can be opened. -/
  opens : Bool := true
  console : List String := []
  /-- The lines of the file behind what it held before, none if there is no file. -/
  file : Option (List String) := none
  /-- The logger gave up. -/
  broken : Bool := false
deriving DecidableEq, Repr

namespace Journal

/-- Writes a line to the console, if lines go there. -/
def toConsole (j : Journal) (line : String) : Journal :=
  if j.target.toConsole then { j with console := j.console ++ [line] } else j

/-- Writes a line to the file, if lines go there and it can be opened. -/
def toFile (j : Journal) (line : String) : Journal :=
  if j.target.toFile && j.opens then { j with file := some (j.file.getD [] ++ [line]) } else j

/-- Whether a line cannot be written as it should. -/
def fails (j : Journal) : Bool := j.target.toFile && !j.opens

/-- Writes a line. -/
def writeLine (j : Journal) (line : String) : Journal :=
  if j.broken then j
  else if j.fails then { (j.toConsole line).toConsole line with broken := true }
  else (j.toConsole line).toFile line

/-- Writes a record, if it is urgent enough. -/
def write (j : Journal) (r : LogRecord) : Journal :=
  if r.level.passes j.level then j.writeLine r.line else j

/-- Writes records in turn. -/
def writeAll (j : Journal) (rs : List LogRecord) : Journal := rs.foldl write j

/-- The lines that records give. -/
def linesOf (level : LogLevel) (rs : List LogRecord) : List String :=
  (rs.filter fun r => r.level.passes level).map LogRecord.line

theorem file_writeAll {j : Journal} {before : List String} (ht : j.target.toFile = true)
    (ho : j.opens = true) (hb : j.broken = false) (hf : j.file = some before)
    (rs : List LogRecord) : (j.writeAll rs).file = some (before ++ linesOf j.level rs) := by
  induction rs generalizing j before with
  | nil => simpa [writeAll, linesOf] using hf
  | cons r rs ih =>
    by_cases hp : r.level.passes j.level = true
    · have hw : (j.write r).file = some (before ++ [r.line]) ∧ (j.write r).target = j.target ∧
          (j.write r).level = j.level ∧ (j.write r).opens = j.opens ∧
          (j.write r).broken = j.broken := by
        simp only [write, hp, if_true, writeLine, hb, fails, ht, ho, Bool.not_true, Bool.and_false,
          Bool.false_eq_true, if_false, toConsole, toFile]
        split <;> simp [ht, ho, hf, hb]
      obtain ⟨h1, h2, h3, h4, h5⟩ := hw
      have := ih (h2 ▸ ht) (h4 ▸ ho) (h5 ▸ hb) h1
      rw [h3] at this
      simpa [writeAll, linesOf, List.filter_cons, hp] using this
    · have hw : j.write r = j := by simp [write, hp]
      have := ih ht ho hb hf
      simpa [writeAll, linesOf, List.filter_cons, hp, hw] using this

end Journal

/-- The one way for a whole process to log. -/
structure LogFacade where
  /-- The least urgent level that is let through to the logger, once there is one. -/
  level : Option LogLevel := none
deriving DecidableEq, Repr

/-- The facade has a logger already. -/
inductive FacadeError
  | alreadySet
deriving DecidableEq, Repr

def FacadeError.message : FacadeError → String
  | alreadySet =>
    "logger init error, attempted to set a logger after the logging system was already initialized"

namespace LogFacade

/-- The nearest level of the facade, which has none for critical records. -/
def nearest : LogLevel → LogLevel
  | .critical => .error
  | l => l

/-- Gives the facade its logger. -/
def install (f : LogFacade) (level : LogLevel) : Except FacadeError LogFacade :=
  match f.level with
  | none => .ok { level := some (nearest level) }
  | some _ => .error .alreadySet

/-- Whether the facade lets a record through. -/
def lets (f : LogFacade) (r : LogRecord) : Bool :=
  match f.level with
  | none => false
  | some level => r.level.passes level

end LogFacade

end MessageBroker
