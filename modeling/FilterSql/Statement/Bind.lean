import FilterSql.Parameters
import FilterSql.Statement.Template

/-!
# Bound statements

A statement as it is sent to a store: text with anonymous or numbered placeholders, and the values
for them in order. Each placeholder of the template is replaced by one placeholder, or by one per
element if its value is an array; an empty array becomes `NULL`, which no row equals.

Models what `to_statement` writes, with `bind`, `push_placeholder` and `to_db_value`.
-/

namespace FilterSql

/-- The dialects of SQL, which differ here in how a placeholder is written. -/
inductive Dialect where
  | sqlite
  | mysql
  | postgres
deriving DecidableEq, Repr

/-- The placeholder of the value at a position, counted from one (`push_placeholder`). -/
def Dialect.mark : Dialect → Nat → String
  | .postgres, position => "$" ++ toString position
  | .sqlite, _ | .mysql, _ => "?"

/-- A value as it is sent to a store. -/
inductive BoundValue where
  | string (text : Option String)
  | bool (value : Bool)
  | bigInt (value : Int64)
  | bigUnsigned (value : UInt64)
  | double (value : Decimal.Binary64)
deriving DecidableEq, Repr

/-- The bound form of a JSON value (`to_db_value`): integers are signed where a signed word holds
them, `null` is a missing string, and arrays and objects are sent as their text. -/
def BoundValue.ofJson : Json → BoundValue
  | .null => .string none
  | .bool value => .bool value
  | .number (.integer value _) =>
    if value < Int.pow 2 63 then .bigInt (Int64.ofInt value)
    else .bigUnsigned (UInt64.ofNat value.toNat)
  | .number (.float value) => .double value
  | .string text => .string (some text)
  | nested => .string (some nested.text)

/-- The values that a parameter puts into a statement: those of its elements if it is an array. -/
def BoundValue.listOfJson : Json → List BoundValue
  | .array items => items.map .ofJson
  | value => [.ofJson value]

/-- A statement ready to be sent. -/
structure Statement where
  sql : String
  values : List BoundValue
deriving DecidableEq, Repr

namespace Statement

/-- A piece with the values of its parameter in place of the name. -/
def fill (parameters : Parameters) :
    Piece String → Except StoreError (Piece (List BoundValue))
  | .verbatim c => .ok (.verbatim c)
  | .slot name =>
    match parameters.get? name with
    | some value => .ok (.slot (BoundValue.listOfJson value))
    | none => .error (.unboundParameter name)

/-- The values of filled pieces in order. -/
def valuesOf : List (Piece (List BoundValue)) → List BoundValue
  | [] => []
  | .verbatim _ :: rest => valuesOf rest
  | .slot values :: rest => values ++ valuesOf rest

/-- The placeholders of some values when a number of values comes before them, as `bind` writes
them. -/
def marks (dialect : Dialect) (before : Nat) (values : List BoundValue) : String :=
  if values.isEmpty then "NULL"
  else ", ".intercalate ((List.range values.length).map fun index =>
    dialect.mark (before + index + 1))

/-- The text of filled pieces when a number of values comes before them. -/
def render (dialect : Dialect) (before : Nat) : List (Piece (List BoundValue)) → List Char
  | [] => []
  | .verbatim c :: rest => c :: render dialect before rest
  | .slot values :: rest =>
    (marks dialect before values).toList ++ render dialect (before + values.length) rest

/-- Binds the placeholders of a template (`to_statement`). The first placeholder that no parameter
has the name of is reported. -/
def bind (dialect : Dialect) (template : String) (parameters : Parameters) :
    Except StoreError Statement := do
  let filled ← (Template.pieces template).mapM (fill parameters)
  return ⟨String.ofList (render dialect 0 filled), valuesOf filled⟩

end Statement

end FilterSql
