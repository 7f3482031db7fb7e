import Std.Data.ExtTreeMap
import FilterSql.Error

/-!
# Parameters

The named values of a statement. Names are unique and are listed in code point order. Two sets of
parameters are merged only when no name is in both; the smallest common name is reported otherwise.

Models `ParameterMap`, with `insert`, `get`, `len`, `names` and `merge`.
-/

namespace FilterSql

/-- Values by name. An array is one value, for a list of alternatives. -/
structure Parameters where
  entries : Std.ExtTreeMap String Json compare := ∅

namespace Parameters

/-- No parameters. -/
def empty : Parameters := {}

/-- Binds a name, in place of an earlier value. -/
def insert (parameters : Parameters) (name : String) (value : Json) : Parameters :=
  ⟨parameters.entries.insert name value⟩

/-- The parameters of a list; the last of several values of one name wins. -/
def ofList (list : List (String × Json)) : Parameters :=
  list.foldl (fun parameters entry => parameters.insert entry.1 entry.2) empty

/-- The value of a name. -/
def get? (parameters : Parameters) (name : String) : Option Json :=
  parameters.entries[name]?

/-- Is a name bound? -/
def contains (parameters : Parameters) (name : String) : Bool :=
  parameters.entries.contains name

/-- The number of names. -/
def size (parameters : Parameters) : Nat :=
  parameters.entries.size

/-- Is nothing bound? -/
def isEmpty (parameters : Parameters) : Bool :=
  parameters.entries.isEmpty

/-- The names in code point order. -/
def names (parameters : Parameters) : List String :=
  parameters.entries.keys

/-- Names and values in code point order of the names. -/
def toList (parameters : Parameters) : List (String × Json) :=
  parameters.entries.toList

/-- Both sets of parameters together. -/
def merge (left right : Parameters) : Except OperationError Parameters :=
  match right.names.find? left.contains with
  | some name => .error (.nameBoundTwice name)
  | none => .ok ⟨left.entries ∪ right.entries⟩

end Parameters

end FilterSql
