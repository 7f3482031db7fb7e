import FilterSql.Filter.Basic
import FilterSql.Wire.Decode

/-!
# The wire form of filters

A predicate is written as `field`, `operator` and `value`, the last two left out when there is
nothing to say; a group is written as `filter` with `logic` and `subFilters`. On reading, a node
that has both is a group.

Models how a `FilterNode` is read and written through `RawFilterNode` and `RawGroup`.
-/

namespace FilterSql.Wire

/-! ## Encoding -/

/-- The wire form of a predicate. -/
def encodePredicate (predicate : Predicate) : Json :=
  let operator := predicate.operator.map fun operator => ("operator", Json.string operator.name)
  let value := if predicate.value.isNull then none else some ("value", predicate.value)
  .object (("field", .string predicate.field) :: operator.toList ++ value.toList)

mutual

/-- The wire form of a filter. -/
def encodeFilter : Filter → Json
  | .group logic children =>
    .object [("filter",
      .object [("logic", .string logic.word), ("subFilters", .array (encodeFilters children))])]
  | .test predicate => encodePredicate predicate

/-- The wire forms of filters. -/
def encodeFilters : List Filter → List Json
  | [] => []
  | filter :: rest => encodeFilter filter :: encodeFilters rest

end

/-! ## Decoding -/

/-- The members of a filter node that have been read (`RawFilterNode`). -/
structure NodeParts where
  field : Option (Option String) := none
  operator : Option (Option Operator) := none
  value : Option Json := none
  group : Option (Option Filter) := none

/-- The members of a group that have been read (`RawGroup`). -/
structure GroupParts where
  logic : Option Logic := none
  children : Option (List Filter) := none

/-- The fields of a filter node in order. -/
def nodeNames : List String := ["field", "operator", "value", "filter"]

/-- The fields of a group in order. -/
def groupNames : List String := ["logic", "subFilters"]

/-- An operator by its name. -/
def decodeOperator : Decoder Operator := fun document =>
  Operator.ofName <$> Decoder.string document

/-- A logic word. -/
def decodeLogic : Decoder Logic := fun document => Logic.ofWord <$> Decoder.string document

/-- Reads a member of a filter node other than its group. -/
def NodeParts.put (parts : NodeParts) (name : Option String) (document : Document) :
    Except WireError NodeParts :=
  match name with
  | some "field" => do
    return { parts with field := ← once parts.field (Decoder.optional Decoder.string document) }
  | some "operator" => do
    return { parts with
      operator := ← once parts.operator (Decoder.optional decodeOperator document) }
  | some "value" => do
    return { parts with value := ← once parts.value (Decoder.json document) }
  | some _ => ignore parts document
  | none => .error .shape

/-- Reads a member of a group other than its children. -/
def GroupParts.put (parts : GroupParts) (name : Option String) (document : Document) :
    Except WireError GroupParts :=
  match name with
  | some "logic" => do
    return { parts with logic := ← once parts.logic (decodeLogic document) }
  | some _ => ignore parts document
  | none => .error .shape

/-- The filter that the members of a node make: its group, else a predicate on its field
(`try_from`). -/
def NodeParts.toFilter (parts : NodeParts) : Except WireError Filter :=
  match parts.group.join, parts.field.join with
  | some group, _ => .ok group
  | none, some field => .ok (.test ⟨field, parts.operator.join, parts.value.getD .null⟩)
  | none, none => .error .bareNode

/-- The group that its members make; it has to have a logic word. -/
def GroupParts.toFilter (parts : GroupParts) : Except WireError Filter := do
  return .group (← required parts.logic) (parts.children.getD [])

mutual

/-- A filter node. -/
def decodeFilter : Document → Except WireError Filter
  | .object members => do (← decodeNodeMembers {} members).toFilter
  | .array items => do
    let parts ← decodeNodeItems nodeNames {} items
    if nodeNames.length < items.length then .error .shape else parts.toFilter
  | _ => .error .shape

/-- The members of a filter node. -/
def decodeNodeMembers (parts : NodeParts) :
    List (Option String × Document) → Except WireError NodeParts
  | [] => .ok parts
  | (name, document) :: rest =>
    if name = some "filter" then do
      decodeNodeMembers { parts with group := ← once parts.group (decodeGroup? document) } rest
    else do decodeNodeMembers (← parts.put name document) rest

/-- The fields of a filter node written as an array. -/
def decodeNodeItems (names : List String) (parts : NodeParts) :
    List Document → Except WireError NodeParts
  | [] => .ok parts
  | document :: rest =>
    match names with
    | [] => .ok parts
    | name :: names =>
      if name = "filter" then do
        let group ← once parts.group (decodeGroup? document)
        decodeNodeItems names { parts with group } rest
      else do decodeNodeItems names (← parts.put (some name) document) rest

/-- A group, or `null` for none. -/
def decodeGroup? : Document → Except WireError (Option Filter)
  | .null => .ok none
  | .object members => do return some (← (← decodeGroupMembers {} members).toFilter)
  | .array items => do
    let parts ← decodeGroupItems groupNames {} items
    if groupNames.length < items.length then .error .shape
    else return some (← parts.toFilter)
  | _ => .error .shape

/-- The members of a group. -/
def decodeGroupMembers (parts : GroupParts) :
    List (Option String × Document) → Except WireError GroupParts
  | [] => .ok parts
  | (name, document) :: rest =>
    if name = some "subFilters" then do
      let children ← once parts.children (decodeFilters document)
      decodeGroupMembers { parts with children } rest
    else do decodeGroupMembers (← parts.put name document) rest

/-- The fields of a group written as an array. -/
def decodeGroupItems (names : List String) (parts : GroupParts) :
    List Document → Except WireError GroupParts
  | [] => .ok parts
  | document :: rest =>
    match names with
    | [] => .ok parts
    | name :: names =>
      if name = "subFilters" then do
        let children ← once parts.children (decodeFilters document)
        decodeGroupItems names { parts with children } rest
      else do decodeGroupItems names (← parts.put (some name) document) rest

/-- An array of filter nodes. -/
def decodeFilters : Document → Except WireError (List Filter)
  | .array items => decodeFilterItems items
  | _ => .error .shape

/-- The nodes of an array. -/
def decodeFilterItems : List Document → Except WireError (List Filter)
  | [] => .ok []
  | item :: rest => do return (← decodeFilter item) :: (← decodeFilterItems rest)

end

end FilterSql.Wire
