import Std.Data.ExtTreeMap
import FilterSql.Error
import FilterSql.Text.Name

/-!
# Schemas

A schema maps the field names that clients use to the columns of one table, lists the columns that
a keyword search looks into, and names the key column. It is built step by step: a later mapping of
a field replaces an earlier one, a keyword column stays where it was first listed, and the last
flagged key wins over the column of the field `id`. An entity, the static description of a kind of
row with its table, perhaps in a catalogue, and its columns, has the schema of its columns.

Models `ColumnDef`, `EntitySchema` with its `SchemaBuilder`, and what `Persistent` tells of an
entity.
-/

namespace FilterSql

/-- One persisted field of an entity (`ColumnDef`). -/
structure ColumnDefinition where
  field : String
  /-- The column, if it is not named like the field. -/
  column : Option String := none
  /-- Does a keyword search look into it? -/
  keyword : Bool := false
  /-- Is it the key of the table? -/
  key : Bool := false
deriving DecidableEq, Repr

/-- The column of a field: the one given, unless it is blank, else the name of the field
(`column_name`). -/
def ColumnDefinition.columnName (definition : ColumnDefinition) : String :=
  match definition.column with
  | some column => if Text.isBlank column then definition.field else column
  | none => definition.field

/-- The mapping from the fields of one entity to the columns of its table (`EntitySchema`). -/
structure Schema where
  name : String
  table : String
  columns : Std.ExtTreeMap String String compare := ∅
  keywordColumns : List String := []
  flaggedKey : Option String := none
deriving DecidableEq

/-- One step in building a schema, a method of `SchemaBuilder`. -/
inductive SchemaStep where
  /-- Maps a field to a column (`column`). -/
  | column (field column : String)
  /-- Maps a field to a column that a keyword search looks into (`keyword_column`). -/
  | keyword (field column : String)
  /-- Flags the key column (`key_column`). -/
  | key (column : String)
  /-- Takes up a column definition (`column_def`). -/
  | definition (definition : ColumnDefinition)
deriving DecidableEq, Repr

namespace Schema

/-- Maps a field to a column, in place of an earlier mapping. -/
def mapField (schema : Schema) (field column : String) : Schema :=
  { schema with columns := schema.columns.insert field column }

/-- Adds a column behind the keyword columns, unless it is one. -/
def addKeyword (schema : Schema) (column : String) : Schema :=
  if column ∈ schema.keywordColumns then schema
  else { schema with keywordColumns := schema.keywordColumns ++ [column] }

/-- Flags the key column, in place of an earlier one. -/
def flagKey (schema : Schema) (column : String) : Schema :=
  { schema with flaggedKey := some column }

/-- Takes up a column definition. -/
def define (schema : Schema) (definition : ColumnDefinition) : Schema :=
  let column := definition.columnName
  let mapped := schema.mapField definition.field column
  let searched := if definition.keyword then mapped.addKeyword column else mapped
  if definition.key then searched.flagKey column else searched

/-- Takes one step. -/
def step (schema : Schema) : SchemaStep → Schema
  | .column field column => schema.mapField field column
  | .keyword field column => (schema.mapField field column).addKeyword column
  | .key column => schema.flagKey column
  | .definition definition => schema.define definition

/-- The schema after some steps. -/
def build (name table : String) (steps : List SchemaStep) : Schema :=
  steps.foldl step { name, table }

/-- The column of a field (`EntitySchema.column`). -/
def column? (schema : Schema) (field : String) : Option String :=
  schema.columns[field]?

/-- The column of a field that has to have one (`resolve`). -/
def resolve (schema : Schema) (field : String) : Except OperationError String :=
  match schema.column? field with
  | some column => .ok column
  | none => .error (.unmappedField schema.name field)

/-- The field whose column is the key when none is flagged. -/
def keyField : String := "id"

/-- The flagged key column, else the column of the key field (`EntitySchema.key_column`). -/
def keyColumn? (schema : Schema) : Option String :=
  schema.flaggedKey.or (schema.column? keyField)

/-- The key column of a schema that has to have one (`Repository.key_column`). -/
def resolveKey (schema : Schema) : Except OperationError String :=
  match schema.keyColumn? with
  | some column => .ok column
  | none => .error (.unmappedField schema.name keyField)

end Schema

/-! ## Entities -/

/-- The description of an entity (`Persistent`). Its name is used in messages. -/
structure EntityDescription where
  table : String
  catalog : Option String := none
  name : String := table
  columns : List ColumnDefinition
deriving DecidableEq, Repr

namespace EntityDescription

/-- The table as it is written after `FROM`: a catalogue that is not blank comes first. -/
def qualifiedTable (entity : EntityDescription) : String :=
  match entity.catalog with
  | some catalog => if Text.isBlank catalog then entity.table else catalog ++ "." ++ entity.table
  | none => entity.table

/-- The schema of an entity: its column definitions taken up in order (`EntitySchema.of`). -/
def schema (entity : EntityDescription) : Schema :=
  Schema.build entity.name entity.qualifiedTable (entity.columns.map .definition)

end EntityDescription

end FilterSql
