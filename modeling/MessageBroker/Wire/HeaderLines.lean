import MessageBroker.Message.Basic
import MessageBroker.Text.Blank
import MessageBroker.Wire.Error

/-!
# Header lines

A header block is UTF-8 text with one header per line: the name, a colon and a space, the value.
The first separator of a line ends the name; empty lines count nothing; of two lines with one name
the last counts. Writing refuses a name or a value that would not be read back.

Headlines:
* **`splitName_append`**: what follows the first separator is the value, whatever is in it.
* **`readLine?_line`**: a line that may be written is read back.
-/

namespace MessageBroker.Wire

/-- Cuts at the first colon that a space follows. -/
def splitName : List Char → Option (List Char × List Char)
  | [] => none
  | ':' :: ' ' :: value => some ([], value)
  | c :: r => (splitName r).map fun p => (c :: p.1, p.2)

/-- The name and the value of a line; a line without a separator or a name has none. -/
def readLine? (line : List Char) : Option (String × String) :=
  match splitName line with
  | some (c :: name, value) => some (String.ofList (c :: name), String.ofList value)
  | _ => none

/-- The headers of a text, none if a line is malformed. -/
def readLines? (text : List Char) : Option Headers :=
  (((Text.splitOn '\n' text).filter fun l => !l.isEmpty).mapM readLine?).map Table.ofList

/-- The headers of a block. -/
def readHeaders (block : Bytes) : Except DecodeError Headers :=
  match ofUtf8? block with
  | none => .error .notUtf8
  | some text =>
    match readLines? text.toList with
    | none => .error .malformedHeader
    | some headers => .ok headers

/-- A name that ends where the separator behind it begins, and stays in its line. -/
def isWritableName (name : String) : Bool :=
  !name.isEmpty && (splitName name.toList).isNone && !name.toList.contains '\n'

/-- A value that stays in its line. -/
def isWritableValue (value : String) : Bool := !value.toList.contains '\n'

/-- A header that a line can carry. -/
def isWritable (e : String × String) : Bool := isWritableName e.1 && isWritableValue e.2

/-- A header as a line. -/
def line (e : String × String) : List Char := e.1.toList ++ ':' :: ' ' :: e.2.toList ++ ['\n']

/-- The lines of some headers, one after the other; the first that no line can carry is refused. -/
def writeLines (headers : List (String × String)) : Except EncodeError (List Char) :=
  match headers.find? fun e => !isWritable e with
  | some e => .error (.invalidHeader e.1)
  | none => .ok (headers.flatMap line)

/-- The headers in the order of their lines, so that a message has one written form. -/
def arranged (headers : Headers) : List (String × String) :=
  headers.entries.mergeSort fun a b => !decide (String.ofList (line b) < String.ofList (line a))

theorem splitName_cons_of_not_sep {c : Char} {r : List Char}
    (h : ∀ value, c :: r ≠ ':' :: ' ' :: value) :
    splitName (c :: r) = (splitName r).map fun p => (c :: p.1, p.2) := by
  rw [splitName]
  intro value hc hr
  exact h value (by rw [hc, hr])

/-- **What follows the first separator is the value, whatever is in it.** -/
theorem splitName_append {name : List Char} (h : splitName name = none) (value : List Char) :
    splitName (name ++ ':' :: ' ' :: value) = some (name, value) := by
  induction name with
  | nil => rfl
  | cons c r ih =>
    have hne : ∀ v, c :: r ≠ ':' :: ' ' :: v := by
      intro v hv
      rw [hv] at h
      cases h
    rw [splitName_cons_of_not_sep hne, Option.map_eq_none_iff] at h
    rw [List.cons_append, splitName_cons_of_not_sep, ih h]
    · rfl
    · intro v hv
      cases r with
      | nil =>
        simp only [List.nil_append, List.cons.injEq] at hv
        exact absurd hv.2.1 (by decide)
      | cons d r =>
        simp only [List.cons_append, List.cons.injEq] at hv
        exact hne r (by rw [hv.1, hv.2.1])

/-- **A line that may be written is read back.** -/
theorem readLine?_line {name value : String} (h : isWritableName name = true) :
    readLine? (name.toList ++ ':' :: ' ' :: value.toList) = some (name, value) := by
  simp only [isWritableName, Bool.and_eq_true, Option.isNone_iff_eq_none] at h
  unfold readLine?
  rw [splitName_append h.1.2]
  cases hn : name.toList with
  | nil =>
    have : name = "" := by rw [← String.ofList_toList (s := name), hn]
    rw [this] at h
    simp at h
  | cons c r =>
    simp only [Option.some.injEq, Prod.mk.injEq]
    rw [← hn]
    exact ⟨String.ofList_toList, String.ofList_toList⟩

end MessageBroker.Wire
