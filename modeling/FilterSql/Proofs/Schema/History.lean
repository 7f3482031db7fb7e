import Mathlib.Data.List.Induction
import Mathlib.Data.List.Nodup
import Mathlib.Tactic.Common
import FilterSql.Schema.Basic

/-!
# The history of a schema

A schema is built by steps of four kinds that write to three places, and each place has
a rule of its own: the last mapping of a field counts, the last flagged key counts, and a
keyword column stays where it has come first. So a schema can be read off the list of its
steps, at every moment of its history.

Results:
* `Schema.step_eq`: what one step does to each place.
* `Schema.follows_build`: what all steps have done.
* `Schema.keywordColumns_prefix`: later steps only add keyword columns behind.
* `schemas_follow_history`: all of it, also for the schema of an entity.
-/

namespace FilterSql

/-! ## Specification -/

/-- The column that a definition chooses for its field: its own one, if it is not made of
white space only, and the name of the field otherwise. -/
def ColumnDefinition.chosen (definition : ColumnDefinition) : String :=
  (definition.column.filter fun column =>
    column.toList.any fun c => !Text.isWhiteSpace c).getD definition.field

namespace SchemaStep

/-- The field that a step maps, and its column. -/
def mapping? : SchemaStep → Option (String × String)
  | .column field name | .keyword field name => some (field, name)
  | .key _ => none
  | .definition entry => some (entry.field, entry.chosen)

/-- The column that a step maps this field to. -/
def columnOf? (field : String) (step : SchemaStep) : Option String :=
  (step.mapping?.filter fun mapping => mapping.1 = field).map Prod.snd

/-- The column that a step gives as a keyword column. -/
def keyword? : SchemaStep → Option String
  | .keyword _ name => some name
  | .definition entry => if entry.keyword then some entry.chosen else none
  | .column _ _ | .key _ => none

/-- The column that a step flags as the key. -/
def key? : SchemaStep → Option String
  | .key name => some name
  | .definition entry => if entry.key then some entry.chosen else none
  | .column _ _ | .keyword _ _ => none

end SchemaStep

/-- A schema says what a list of steps says. -/
structure Schema.Follows (name table : String) (steps : List SchemaStep) (schema : Schema) :
    Prop where
  name : schema.name = name
  table : schema.table = table
  column? : ∀ field,
    schema.column? field = (steps.filterMap (SchemaStep.columnOf? field)).getLast?
  keywordColumns : schema.keywordColumns = (steps.filterMap SchemaStep.keyword?).eraseDups
  flaggedKey : schema.flaggedKey = (steps.filterMap SchemaStep.key?).getLast?

/-! ## First and last occurrences -/

/-- One more element stands behind the others, unless it is one of them. -/
theorem eraseDups_concat {α : Type} [BEq α] [LawfulBEq α] (list : List α) (a : α) :
    (list ++ [a]).eraseDups = if a ∈ list then list.eraseDups else list.eraseDups ++ [a] := by
  rw [List.eraseDups_append]
  split_ifs with h <;> simp [List.removeAll, List.eraseDups_cons, h]

theorem nodup_eraseDups {α : Type} [BEq α] [LawfulBEq α] (list : List α) :
    list.eraseDups.Nodup := by
  induction list using List.reverseRecOn with
  | nil => exact .nil
  | append_singleton list a ih =>
    rw [eraseDups_concat]
    split_ifs with h
    · exact ih
    · rw [← List.concat_eq_append]
      exact ih.concat fun member => h (List.mem_eraseDups.mp member)

/-- The last value that a list has is that of its last element, if this has one. -/
theorem getLast?_filterMap_concat {α β : Type} (f : α → Option β) (list : List α) (a : α) :
    ((list ++ [a]).filterMap f).getLast? = (f a).or (list.filterMap f).getLast? := by
  rw [List.filterMap_append, List.getLast?_append]
  cases h : f a <;> simp [h]

/-! ## One step -/

theorem ColumnDefinition.columnName_eq_chosen (definition : ColumnDefinition) :
    definition.columnName = definition.chosen := by
  rw [columnName, chosen]
  cases definition.column with
  | none => rfl
  | some column =>
    have hblank : (column.toList.any fun c => !Text.isWhiteSpace c) = !Text.isBlank column := by
      rw [Text.isBlank, List.not_all_eq_any_not]
    rw [Option.filter_some, hblank]
    cases h : Text.isBlank column <;> simp [h]

namespace Schema

variable (schema : Schema)

theorem addKeyword_eq (column : String) :
    schema.addKeyword column =
      { schema with
        keywordColumns :=
          if column ∈ schema.keywordColumns then schema.keywordColumns
          else schema.keywordColumns ++ [column] } := by
  rw [addKeyword]
  split_ifs <;> rfl

/-- What one step does. The mapping, the keyword and the key are written each to its own
place, whichever of them a step has. -/
theorem step_eq (step : SchemaStep) :
    schema.step step =
      { schema with
        columns := step.mapping?.elim schema.columns fun mapping =>
          schema.columns.insert mapping.1 mapping.2
        keywordColumns := step.keyword?.elim schema.keywordColumns fun column =>
          if column ∈ schema.keywordColumns then schema.keywordColumns
          else schema.keywordColumns ++ [column]
        flaggedKey := step.key?.or schema.flaggedKey } := by
  cases step with
  | column field column => rfl
  | keyword field column => exact addKeyword_eq _ _
  | key column => rfl
  | definition entry =>
    change schema.define entry = _
    rw [define, entry.columnName_eq_chosen, addKeyword_eq, SchemaStep.keyword?, SchemaStep.key?]
    cases entry.keyword <;> cases entry.key <;> rfl

theorem column?_step (step : SchemaStep) (field : String) :
    (schema.step step).column? field = (step.columnOf? field).or (schema.column? field) := by
  rw [step_eq, SchemaStep.columnOf?, column?, column?]
  cases step.mapping? with
  | none => rfl
  | some mapping =>
    rw [Option.elim_some, Std.ExtTreeMap.getElem?_insert, Option.filter_some]
    by_cases h : mapping.1 = field <;> simp [h]

/-! ## All steps -/

variable {schema} {name table : String} {steps : List SchemaStep}

theorem Follows.step (h : schema.Follows name table steps) (step : SchemaStep) :
    (schema.step step).Follows name table (steps ++ [step]) where
  name := by rw [step_eq, h.name]
  table := by rw [step_eq, h.table]
  column? field := by rw [column?_step, h.column?, getLast?_filterMap_concat]
  keywordColumns := by
    rw [step_eq, h.keywordColumns, List.filterMap_append]
    cases hkeyword : step.keyword? with
    | none => simp [hkeyword]
    | some column =>
      have hlast : [step].filterMap SchemaStep.keyword? = [column] := by simp [hkeyword]
      rw [hlast, eraseDups_concat]
      simp only [List.mem_eraseDups, Option.elim_some]
  flaggedKey := by rw [step_eq, h.flaggedKey, getLast?_filterMap_concat]

/-- A schema says what the steps that have built it say. -/
theorem follows_build (name table : String) (steps : List SchemaStep) :
    (build name table steps).Follows name table steps := by
  induction steps using List.reverseRecOn with
  | nil =>
    refine ⟨rfl, rfl, fun field => ?_, rfl, rfl⟩
    exact Std.ExtTreeMap.getElem?_empty
  | append_singleton steps last ih =>
    rw [build, List.foldl_concat]
    exact ih.step last

/-- Later steps only add keyword columns behind. -/
theorem keywordColumns_prefix (name table : String) (done rest : List SchemaStep) :
    (build name table done).keywordColumns <+:
      (build name table (done ++ rest)).keywordColumns := by
  rw [(follows_build name table done).keywordColumns,
    (follows_build name table (done ++ rest)).keywordColumns, List.filterMap_append,
    List.eraseDups_append]
  exact List.prefix_append _ _

end Schema

/-! ## Entities -/

/-- What a list of definitions gives, when a definition gives its column or nothing. -/
theorem filterMap_definitions {f : SchemaStep → Option String} {p : ColumnDefinition → Bool}
    (h : ∀ entry, f (.definition entry) = if p entry then some entry.chosen else none)
    (entries : List ColumnDefinition) :
    (entries.map SchemaStep.definition).filterMap f =
      (entries.filter p).map ColumnDefinition.chosen := by
  induction entries with
  | nil => rfl
  | cons entry rest ih =>
    rw [List.map_cons, List.filterMap_cons, h, ih, List.filter_cons]
    cases p entry <;> rfl

/-- **A schema follows its history.** At every moment, with some steps done and any others
to come:
* name and table are those given, the column of a field is that of the last step which
  has mapped the field, and the keyword columns are the columns of the keyword steps in
  the order in which they have first come, each once; later steps only add behind them;
* the key is the column of the last step that has flagged one, and as long as there is
  none, the column that the field of the key has at that moment.

The schema of an entity is that of its column definitions. -/
theorem schemas_follow_history :
    (∀ (name table : String) (done rest : List SchemaStep),
      (Schema.build name table done).Follows name table done ∧
      (Schema.build name table done).keywordColumns.Nodup ∧
      (Schema.build name table done).keywordColumns <+:
        (Schema.build name table (done ++ rest)).keywordColumns ∧
      (Schema.build name table done).keyColumn? =
        (done.filterMap SchemaStep.key?).getLast?.or
          (done.filterMap (SchemaStep.columnOf? "id")).getLast?) ∧
    ∀ entity : EntityDescription,
      entity.schema.name = entity.name ∧ entity.schema.table = entity.qualifiedTable ∧
      (∀ field, entity.schema.column? field =
        ((entity.columns.filter fun entry => entry.field = field).map
          ColumnDefinition.chosen).getLast?) ∧
      entity.schema.keywordColumns =
        ((entity.columns.filter ColumnDefinition.keyword).map
          ColumnDefinition.chosen).eraseDups ∧
      entity.schema.keyColumn? =
        ((entity.columns.filter ColumnDefinition.key).map ColumnDefinition.chosen).getLast?.or
          (entity.schema.column? "id") := by
  refine ⟨fun name table done rest => ?_, fun entity => ?_⟩
  · have hdone := Schema.follows_build name table done
    refine ⟨hdone, ?_, Schema.keywordColumns_prefix name table done rest, ?_⟩
    · rw [hdone.keywordColumns]
      exact nodup_eraseDups _
    · rw [Schema.keyColumn?, hdone.flaggedKey, Schema.keyField, hdone.column?]
  · have hentity := Schema.follows_build entity.name entity.qualifiedTable
      (entity.columns.map .definition)
    refine ⟨hentity.name, hentity.table, fun field => ?_, ?_, ?_⟩
    · rw [EntityDescription.schema, hentity.column?, filterMap_definitions fun entry => ?_]
      rw [SchemaStep.columnOf?, SchemaStep.mapping?, Option.filter_some]
      split_ifs <;> rfl
    · rw [EntityDescription.schema, hentity.keywordColumns, filterMap_definitions fun _ => rfl]
    · rw [Schema.keyColumn?, Schema.keyField, EntityDescription.schema, hentity.flaggedKey,
        filterMap_definitions fun _ => rfl]

/-- A field that is mapped anew leaves its keyword column and the key behind. -/
example :
    let schema := Schema.build "code" "CODES"
      [.definition { field := "id", keyword := true, key := true }, .column "id" "CODE_ID"]
    schema.column? "id" = some "CODE_ID" ∧ schema.keywordColumns = ["id"] ∧
      schema.keyColumn? = some "id" :=
  ⟨rfl, rfl, rfl⟩

end FilterSql
