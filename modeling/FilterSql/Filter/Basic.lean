import FilterSql.Json.Value

/-!
# Filters

A filter is the tree that a client sends: predicates on named fields, joined by groups. Operators
and logic words are kept as sent even when they are not known, because they are judged only when
the filter is compiled, and not every word is ever looked at.

Models `FilterNode` with its `Group` and `Predicate`, and `Operator` and `Logic`, whose known words
are separated from the unknown ones here.
-/

namespace FilterSql

/-- An order comparison. -/
inductive OrderRelation where
  | greater
  | greaterOrEqual
  | less
  | lessOrEqual
deriving DecidableEq, Repr

/-- The comparison a predicate makes; names are case-sensitive. -/
inductive Operator where
  | equals
  | contains
  | between
  | order (relation : OrderRelation)
  | unknown (name : String)
deriving DecidableEq, Repr

/-- How a group joins its children. -/
inductive Connective where
  | and
  | or
deriving DecidableEq, Repr

/-- The logic word of a group; names are case-sensitive. -/
inductive Logic where
  | known (connective : Connective)
  | unknown (word : String)
deriving DecidableEq, Repr

/-- A condition on one field. A `null` value carries no constraint. -/
structure Predicate where
  field : String
  operator : Option Operator
  value : Json
deriving Repr

/-- A tree of predicates. -/
inductive Filter where
  | group (logic : Logic) (children : List Filter)
  | test (predicate : Predicate)
deriving Repr

instance : Inhabited Filter := ⟨.group (.known .and) []⟩

/-- The reserved field that searches all keyword columns (`KEYWORD_FIELD`). -/
def keywordField : String := "keyword"

namespace OrderRelation

/-- The name of an order operator. -/
def name : OrderRelation → String
  | .greater => "gt"
  | .greaterOrEqual => "ge"
  | .less => "lt"
  | .lessOrEqual => "le"

end OrderRelation

namespace Operator

/-- The operators that have a meaning. -/
def all : List Operator :=
  [.equals, .contains, .between, .order .greater, .order .greaterOrEqual, .order .less,
   .order .lessOrEqual]

/-- The name of an operator. -/
def name : Operator → String
  | .equals => "eq"
  | .contains => "contains"
  | .between => "between"
  | .order relation => relation.name
  | .unknown name => name

/-- The operator of a name. -/
def ofName (name : String) : Operator :=
  (all.find? fun operator => operator.name == name).getD (.unknown name)

/-- Has the operator a meaning? -/
def isKnown : Operator → Bool
  | .unknown _ => false
  | _ => true

end Operator

namespace Connective

/-- The word of a connective. -/
def word : Connective → String
  | .and => "and"
  | .or => "or"

end Connective

namespace Logic

/-- The word of a logic. -/
def word : Logic → String
  | .known connective => connective.word
  | .unknown word => word

/-- The logic of a word. -/
def ofWord (word : String) : Logic :=
  if word = Connective.and.word then .known .and
  else if word = Connective.or.word then .known .or
  else .unknown word

end Logic

namespace Filter

/-- A group that asks for all of its children. -/
def all (children : List Filter) : Filter :=
  .group (.known .and) children

/-- A group that asks for one of its children. -/
def any (children : List Filter) : Filter :=
  .group (.known .or) children

/-- A predicate of the given operator. -/
def compare (field : String) (operator : Operator) (value : Json) : Filter :=
  .test ⟨field, some operator, value⟩

/-- The field equals the value, or one element of an array. -/
def equals (field : String) (value : Json) : Filter :=
  compare field .equals value

/-- The field contains the value as text, or equals one element of an array. -/
def contains (field : String) (value : Json) : Filter :=
  compare field .contains value

/-- The field lies between two bounds; a missing bound leaves its side open. -/
def between (field : String) (low high : Option Json) : Filter :=
  compare field .between (.array [low.getD .null, high.getD .null])

/-- One of the keyword columns contains the value as text. -/
def keyword (value : Json) : Filter :=
  .test ⟨keywordField, none, value⟩

/-- A filter inside nested groups of one child each. -/
def wrap (logic : Logic) : Nat → Filter → Filter
  | 0, filter => filter
  | depth + 1, filter => .group logic [wrap logic depth filter]

end Filter

end FilterSql
