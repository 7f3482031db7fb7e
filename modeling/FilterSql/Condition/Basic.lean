import FilterSql.Filter.Basic
import FilterSql.Parameters

/-!
# Conditions

A condition is a filter with columns in place of fields and named slots in place of values. It has
a text, in which a slot stands as a placeholder, and parameters, which hold the values. So no value
ever stands in the text. A search compares columns with a `LIKE` pattern that matches every text
containing its operand; with escaping, the wildcards `%` and `_` and the escape character itself
stand for themselves.

Text and parameters of a condition are the two parts of a `Fragment`, and its constructors are what
`compile_predicate`, `keyword_condition` and `compile_group` can make.
-/

namespace FilterSql

/-- A value together with the parameter name that stands for it. -/
structure Slot where
  name : String
  value : Json
deriving Repr

/-- How a column is compared with one value. -/
inductive Relation where
  | equal
  | order (relation : OrderRelation)
deriving DecidableEq, Repr

/-- A condition on the columns of one row. -/
inductive Condition where
  /-- A column compared with a value. -/
  | compare (column : String) (relation : Relation) (operand : Slot)
  /-- A column equal to an element of a list. -/
  | among (column : String) (list : Slot)
  /-- A column between two bounds, both included. -/
  | range (column : String) (low high : Slot)
  /-- One of several columns matching a pattern. -/
  | like (columns : List String) (escaped : Bool) (pattern : Slot)
  /-- All or one of several conditions. -/
  | group (connective : Connective) (children : List Condition)
deriving Repr

/-- The comparison sign of a relation. -/
def OrderRelation.sign : OrderRelation → String
  | .greater => ">"
  | .greaterOrEqual => ">="
  | .less => "<"
  | .lessOrEqual => "<="

/-- The comparison sign of a relation. -/
def Relation.sign : Relation → String
  | .equal => "="
  | .order relation => relation.sign

/-- The placeholder of a slot. -/
def Slot.placeholder (slot : Slot) : String :=
  ":" ++ slot.name

namespace Connective

/-- The condition a group starts from, which its children do not change the meaning of
(`Fragment.seed`). -/
def seed : Connective → String
  | .and => "1=1"
  | .or => "1=0"

/-- What stands before the opening parenthesis of a child. -/
def joiner : Connective → String
  | .and => " AND "
  | .or => " OR "

end Connective

/-! ## Search patterns -/

namespace Pattern

/-- The character that takes its meaning from the one after it. -/
def escapeCharacter : Char := '\\'

/-- A text with an escape character before every occurrence of a sign. -/
def escapeSign (sign : Char) (text : String) : String :=
  String.ofList (text.toList.flatMap fun c => if c = sign then [escapeCharacter, c] else [c])

/-- A text in which no character has a meaning of its own (`escape_like_wildcards`). The escape
character comes first, so that those before the wildcards are not escaped again. -/
def escapeText (text : String) : String :=
  escapeSign '_' (escapeSign '%' (escapeSign escapeCharacter text))

/-- The text that is searched for an operand (`like_text`). -/
def searchedText : Json → String
  | .string text => text
  | value => value.text

/-- The pattern of the texts that contain an operand (`substring_pattern`). -/
def containing (operand : Json) (escaped : Bool) : String :=
  let text := searchedText operand
  "%" ++ (if escaped then escapeText text else text) ++ "%"

end Pattern

/-! ## Text and parameters -/

namespace Condition

/-- One column matching a pattern (`like_comparison`). -/
def likeText (column : String) (escaped : Bool) (pattern : Slot) : String :=
  column ++ " LIKE " ++ pattern.placeholder ++ if escaped then " ESCAPE '\\'" else ""

mutual

/-- The text of a condition. -/
def text : Condition → String
  | .compare column relation operand =>
    column ++ " " ++ relation.sign ++ " " ++ operand.placeholder
  | .among column list => column ++ " IN (" ++ list.placeholder ++ ")"
  | .range column low high =>
    column ++ " BETWEEN " ++ low.placeholder ++ " AND " ++ high.placeholder
  | .like columns escaped pattern =>
    " OR ".intercalate (columns.map fun column => likeText column escaped pattern)
  | .group connective children => connective.seed ++ childrenText connective children

/-- The texts of the children of a group, each in parentheses behind the connective. -/
def childrenText (connective : Connective) : List Condition → String
  | [] => ""
  | child :: rest =>
    connective.joiner ++ "(" ++ child.text ++ ")" ++ childrenText connective rest

end

mutual

/-- The parameters of a condition; those of children are merged in order, as a group collects
them (`compile_group`). -/
def parameters : Condition → Except OperationError Parameters
  | .compare _ _ operand => .ok (Parameters.ofList [(operand.name, operand.value)])
  | .among _ list => .ok (Parameters.ofList [(list.name, list.value)])
  | .range _ low high => .ok (Parameters.ofList [(low.name, low.value), (high.name, high.value)])
  | .like _ _ pattern => .ok (Parameters.ofList [(pattern.name, pattern.value)])
  | .group _ children => childrenParameters .empty children

/-- The parameters of children, merged in order into those found before. -/
def childrenParameters (found : Parameters) : List Condition → Except OperationError Parameters
  | [] => .ok found
  | child :: rest => do childrenParameters (← found.merge (← child.parameters)) rest

end

end Condition

end FilterSql
