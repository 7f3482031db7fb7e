import Mathlib.Tactic.Common
import FilterSql.Schema.Basic

/-!
# Columns of a schema

A schema is built in steps, and every column that a field is mapped to or that a
keyword search looks into comes from one of them.

Results:
* `Schema.EveryColumn.build`: what holds of the columns of all steps holds of every
  column of the schema.
-/

namespace FilterSql

/-- Every column that a filter can name or search has a property. -/
structure Schema.EveryColumn (P : String → Prop) (schema : Schema) : Prop where
  mapped : ∀ field column, schema.column? field = some column → P column
  searched : ∀ column ∈ schema.keywordColumns, P column

/-- The column that a step maps a field to. -/
def SchemaStep.column? : SchemaStep → Option String
  | .column _ name | .keyword _ name => some name
  | .key _ => none
  | .definition entry => some entry.columnName

namespace Schema.EveryColumn

variable {P : String → Prop} {schema : Schema}

theorem mapField (h : schema.EveryColumn P) {column : String} (hcolumn : P column)
    (field : String) : (schema.mapField field column).EveryColumn P := by
  refine ⟨fun other found hfound => ?_, h.searched⟩
  rw [Schema.column?, Schema.mapField, Std.ExtTreeMap.getElem?_insert] at hfound
  split_ifs at hfound
  · cases hfound
    exact hcolumn
  · exact h.mapped other found hfound

theorem addKeyword (h : schema.EveryColumn P) {column : String} (hcolumn : P column) :
    (schema.addKeyword column).EveryColumn P := by
  unfold Schema.addKeyword
  split_ifs with listed
  · exact h
  · refine ⟨h.mapped, fun other member => ?_⟩
    rcases List.mem_append.mp member with member | member
    · exact h.searched other member
    · rw [List.mem_singleton.mp member]
      exact hcolumn

theorem flagKey (h : schema.EveryColumn P) (column : String) :
    (schema.flagKey column).EveryColumn P :=
  ⟨h.mapped, h.searched⟩

theorem define (h : schema.EveryColumn P) {definition : ColumnDefinition}
    (hcolumn : P definition.columnName) : (schema.define definition).EveryColumn P := by
  have hmapped := h.mapField hcolumn definition.field
  unfold Schema.define
  dsimp only
  split_ifs
  · exact (hmapped.addKeyword hcolumn).flagKey _
  · exact hmapped.flagKey _
  · exact hmapped.addKeyword hcolumn
  · exact hmapped

theorem step (h : schema.EveryColumn P) {step : SchemaStep}
    (hcolumn : ∀ column ∈ step.column?, P column) : (schema.step step).EveryColumn P := by
  cases step with
  | column field name => exact h.mapField (hcolumn name rfl) field
  | keyword field name =>
    exact (h.mapField (hcolumn name rfl) field).addKeyword (hcolumn name rfl)
  | key name => exact h.flagKey name
  | definition entry => exact h.define (hcolumn _ rfl)

/-- What holds of the columns of all steps holds of every column of the schema. -/
theorem build {name table : String} {steps : List SchemaStep}
    (h : ∀ step ∈ steps, ∀ column ∈ step.column?, P column) :
    (Schema.build name table steps).EveryColumn P := by
  have hsteps : ∀ start : Schema, start.EveryColumn P →
      (steps.foldl Schema.step start).EveryColumn P := by
    induction steps with
    | nil => exact fun start hstart => hstart
    | cons first rest ih =>
      intro start hstart
      exact ih (fun other member => h other (List.mem_cons_of_mem _ member)) _
        (hstart.step (h first List.mem_cons_self))
  refine hsteps _ ⟨fun field column hmap => ?_, fun column member => nomatch member⟩
  rw [Schema.column?, Std.ExtTreeMap.getElem?_empty] at hmap
  cases hmap

end Schema.EveryColumn

end FilterSql
