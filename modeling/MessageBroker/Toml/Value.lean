import MessageBroker.Text.Binary64

/-!
# Values of a settings file

A settings file holds a table: values by name, where a value may be a table or a list again.
-/

namespace MessageBroker.Toml

/-- A value that has no parts. -/
inductive Scalar
  | text (s : String)
  | integer (n : Int)
  | real (x : Text.Binary64)
  | boolean (b : Bool)

/-- A value. -/
inductive Value
  | scalar (s : Scalar)
  | list (items : List Value)
  | table (entries : List (String × Value))

/-- The value under a name. -/
def find? (name : String) {α : Type} (entries : List (String × α)) : Option α :=
  (entries.find? fun e => e.1 = name).map (·.2)

/-- Puts a value under a name, in place of what was there. -/
def put {α : Type} (name : String) (a : α) : List (String × α) → List (String × α)
  | [] => [(name, a)]
  | e :: es => if e.1 = name then (name, a) :: es else e :: put name a es

end MessageBroker.Toml
