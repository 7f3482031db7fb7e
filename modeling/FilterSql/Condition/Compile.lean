import FilterSql.Condition.Basic
import FilterSql.Schema.Basic

/-!
# Compiling filters

A filter becomes a condition over the columns of a schema, or none when it carries no constraint.
A parameter is named after the place of its predicate in the tree: the stem, the index of the child
at each level, and a number within the predicate. A group of one child stands for that child, and
children without constraint drop out of their group.

Models `FilterCompiler`, the `QueryConfig` that it is given, and the naming of parameters by
`ParamNamer` and `child_prefix`.
-/

namespace FilterSql

/-! ## Configurations -/

/-- How filters are compiled (`QueryConfig`). -/
structure Config where
  /-- Every generated parameter name starts with the stem. -/
  stem : String := "p"
  /-- Are wildcards in a searched text matched literally? -/
  escapeWildcards : Bool := false
deriving DecidableEq, Repr

/-- A configuration can be used when its stem is an identifier (`validate`). -/
def Config.check (config : Config) : Except OperationError Unit :=
  if Text.isIdentifier config.stem then .ok ()
  else .error (.unusableConfig
    ("parameter prefix '" ++ config.stem ++ "' must match [A-Za-z_][A-Za-z0-9_]*"))

/-! ## Names of parameters -/

/-- The stem of the child at an index (`child_prefix`). -/
def childStem (stem : String) (index : Nat) : String :=
  stem ++ "_" ++ toString index

/-- The name of a parameter of the predicate at a stem (`ParamNamer.next_name`). -/
def slotName (stem : String) (number : Nat) : String :=
  stem ++ "__" ++ toString number

/-! ## Predicates -/

namespace Predicate

/-- A bound of a range: the entry at an index, unless it is `null` or missing. -/
def bound? (items : List Json) (index : Nat) : Option Json :=
  items[index]?.filter fun bound => !bound.isNull

/-- The bounds of a range, which are written as an array of at most two entries
(`between_bounds`). -/
def bounds (field : String) : Json → Except OperationError (Option Json × Option Json)
  | .array items =>
    if items.length ≤ 2 then
      let low := bound? items 0
      let high := bound? items 1
      if (low.toList ++ high.toList).any Json.isNested then
        .error (.unfitValue field "'between' bounds must be single values")
      else .ok (low, high)
    else .error (.unfitValue field "'between' expects [from, to]")
  | _ => .error (.unfitValue field "'between' expects [from, to]")

/-- The condition that a column lies between the bounds that are given. Model of the `between`
case of `compile_predicate`. -/
def rangeCondition? (column stem : String) : Option Json × Option Json → Option Condition
  | (some low, some high) =>
    some (.range column ⟨slotName stem 0, low⟩ ⟨slotName stem 1, high⟩)
  | (some low, none) =>
    some (.compare column (.order .greaterOrEqual) ⟨slotName stem 0, low⟩)
  | (none, some high) =>
    some (.compare column (.order .lessOrEqual) ⟨slotName stem 0, high⟩)
  | (none, none) => none

/-- The condition that an operator puts on a column. Model of the cases that
`compile_predicate` makes of the operator. -/
def operatorCondition? (config : Config) (stem field column : String) (operator : Operator)
    (value : Json) : Except OperationError (Option Condition) :=
  match operator with
  | .equals =>
    if value.isArray then .ok (some (.among column ⟨slotName stem 0, value⟩))
    else .ok (some (.compare column .equal ⟨slotName stem 0, value⟩))
  | .contains =>
    if value.isArray then .ok (some (.among column ⟨slotName stem 0, value⟩))
    else
      let pattern := Json.string (Pattern.containing value config.escapeWildcards)
      .ok (some (.like [column] config.escapeWildcards ⟨slotName stem 0, pattern⟩))
  | .between => rangeCondition? column stem <$> bounds field value
  | .order relation =>
    if value.isNested then
      .error (.unfitValue field ("'" ++ relation.name ++ "' expects a single value"))
    else .ok (some (.compare column (.order relation) ⟨slotName stem 0, value⟩))
  | .unknown name => .error (.unknownOperator name)

/-- The condition of a keyword search (`keyword_condition`). -/
def keywordCondition (schema : Schema) (config : Config) (stem : String) (value : Json) :
    Except OperationError Condition :=
  if schema.keywordColumns.isEmpty then .error (.noKeywordColumns schema.name)
  else
    let pattern := Json.string (Pattern.containing value config.escapeWildcards)
    .ok (.like schema.keywordColumns config.escapeWildcards ⟨slotName stem 0, pattern⟩)

/-- The condition of a predicate (`compile_predicate`). Without a value there is none, and nothing
else is checked. -/
def condition? (schema : Schema) (config : Config) (stem : String) (predicate : Predicate) :
    Except OperationError (Option Condition) :=
  if predicate.value.isNull then .ok none
  else if predicate.field = keywordField then
    some <$> keywordCondition schema config stem predicate.value
  else do
    let column ← schema.resolve predicate.field
    match predicate.operator with
    | none => .error (.unknownOperator "")
    | some operator =>
      operatorCondition? config stem predicate.field column operator predicate.value

end Predicate

/-! ## Groups -/

/-- The connective of a logic word that has to be known. -/
def Logic.connective : Logic → Except OperationError Connective
  | .known connective => .ok connective
  | .unknown word => .error (.unknownOperator word)

namespace Filter

mutual

/-- The condition of a filter, if it carries a constraint. The cases of a group model
`compile_group`. -/
def condition? (schema : Schema) (config : Config) (stem : String) :
    Filter → Except OperationError (Option Condition)
  | .test predicate => predicate.condition? schema config stem
  | .group _ [only] => condition? schema config (childStem stem 0) only
  | .group logic children => do
    let connective ← logic.connective
    let conditions ← childConditions schema config stem 0 children
    if conditions.isEmpty && !children.isEmpty then return none
    else return some (.group connective conditions)

/-- The conditions of those children that carry a constraint, the first being at an index. -/
def childConditions (schema : Schema) (config : Config) (stem : String) (index : Nat) :
    List Filter → Except OperationError (List Condition)
  | [] => .ok []
  | child :: rest => do
    let condition ← condition? schema config (childStem stem index) child
    let others ← childConditions schema config stem (index + 1) rest
    return condition.toList ++ others

end

end Filter

/-! ## Restrictions -/

/-- What a filter asks of a row: the text of its condition and the parameters that the text refers
to (`Fragment`). The text is empty when there is no constraint. -/
structure Restriction where
  sql : String := ""
  parameters : Parameters := {}

/-- Does a restriction admit every row (`Fragment.is_empty`)? -/
def Restriction.isEmpty (restriction : Restriction) : Bool :=
  restriction.sql.isEmpty

/-- The restriction to a condition, or to nothing. -/
def Restriction.ofCondition? : Option Condition → Except OperationError Restriction
  | none => .ok {}
  | some condition => do return ⟨condition.text, ← condition.parameters⟩

namespace Filter

/-- Compiles a filter, naming its parameters after a stem (`FilterCompiler.compile`). -/
def compileAt (schema : Schema) (config : Config) (stem : String) (filter : Filter) :
    Except OperationError Restriction := do
  Restriction.ofCondition? (← filter.condition? schema config stem)

/-- Compiles a filter, naming its parameters after the stem of the configuration
(`FilterCompiler.compile_root`). -/
def compile (schema : Schema) (config : Config) (filter : Filter) :
    Except OperationError Restriction :=
  filter.compileAt schema config config.stem

end Filter

end FilterSql
