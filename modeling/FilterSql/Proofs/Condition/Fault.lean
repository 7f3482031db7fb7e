import Mathlib.Tactic.Common
import FilterSql.Proofs.Condition.Slots

/-!
# Faults of filters

Which filters are rejected, and with which error, said without the compiler: a predicate
is checked in a fixed order, a group of one child is as its child, and any other group
has the fault of its first faulty child. Neither the stem nor the configuration has a
say in it.

Results:
* `Predicate.failure?_condition?`, `Filter.failure?_condition?`: the compiler reports the
  fault of a predicate, and of a filter.
* `compileAt_reports_first_fault`: a filter compiles when it has no fault, and is
  rejected with its fault otherwise.
-/

namespace FilterSql

/-! ## Specification -/

/-- What is wrong with a value under an operator. A range is an array of at most two
entries, none of which is an array or an object. -/
def Operator.valueFault? (field : String) : Operator → Json → Option OperationError
  | .equals, _ | .contains, _ => none
  | .between, .array items =>
    if 2 < items.length then some (.unfitValue field "'between' expects [from, to]")
    else if items.any Json.isNested then
      some (.unfitValue field "'between' bounds must be single values")
    else none
  | .between, _ => some (.unfitValue field "'between' expects [from, to]")
  | .order relation, value =>
    if value.isNested then
      some (.unfitValue field ("'" ++ relation.name ++ "' expects a single value"))
    else none
  | .unknown name, _ => some (.unknownOperator name)

/-- What is wrong with a predicate. With the value `null` nothing is, and in a keyword
search the operator is not looked at. -/
def Predicate.fault? (schema : Schema) (predicate : Predicate) : Option OperationError :=
  if predicate.value.isNull then none
  else if predicate.field = keywordField then
    if schema.keywordColumns = [] then some (.noKeywordColumns schema.name) else none
  else if schema.column? predicate.field = none then
    some (.unmappedField schema.name predicate.field)
  else
    match predicate.operator with
    | none => some (.unknownOperator "")
    | some operator => operator.valueFault? predicate.field predicate.value

namespace Filter

mutual

/-- What is wrong with a filter: the first fault in the order in which it is written. The
logic word of a group of one child is not looked at. -/
def fault? (schema : Schema) : Filter → Option OperationError
  | .test predicate => predicate.fault? schema
  | .group _ [only] => only.fault? schema
  | .group (.unknown word) _ => some (.unknownOperator word)
  | .group (.known _) children => childFault? schema children

/-- The fault of the first child that has one. -/
def childFault? (schema : Schema) : List Filter → Option OperationError
  | [] => none
  | child :: rest => (child.fault? schema).or (childFault? schema rest)

end

theorem childFault?_eq_findSome? (schema : Schema) (children : List Filter) :
    childFault? schema children = children.findSome? (fault? schema) := by
  induction children with
  | nil => rw [childFault?, List.findSome?_nil]
  | cons child rest ih =>
    rw [childFault?, ih, List.findSome?_cons]
    cases child.fault? schema <;> rfl

theorem fault?_group {schema : Schema} {logic : Logic} {children : List Filter}
    (many : ∀ only, children ≠ [only]) :
    fault? schema (.group logic children) =
      (failure? logic.connective).or (children.findSome? (fault? schema)) := by
  cases logic with
  | known connective =>
    rw [fault?, childFault?_eq_findSome?]
    · rfl
    · exact many
  | unknown word =>
    rw [fault?]
    · rfl
    · exact many

end Filter

/-! ## Predicates -/

namespace Predicate

/-- An entry that is `null` or missing is no bound, and is not nested either. -/
theorem any_isNested_bound? (items : List Json) (index : ℕ) :
    (bound? items index).toList.any Json.isNested = items[index]?.toList.any Json.isNested := by
  rw [bound?]
  cases items[index]? with
  | none => rfl
  | some entry => cases entry <;> rfl

theorem failure?_bounds (field : String) (value : Json) :
    failure? (bounds field value) = Operator.between.valueFault? field value := by
  cases value with
  | array items =>
    rw [bounds, Operator.valueFault?]
    by_cases hlong : 2 < items.length
    · rw [if_pos hlong, if_neg (Nat.not_le.mpr hlong), failure?_error]
    · have hitems : items = items[0]?.toList ++ items[1]?.toList := by
        rcases items with _ | ⟨low, _ | ⟨high, _ | ⟨third, rest⟩⟩⟩
        · rfl
        · rfl
        · rfl
        · simp at hlong
      have hnested : ((bound? items 0).toList ++ (bound? items 1).toList).any Json.isNested =
          items.any Json.isNested := by
        conv_rhs => rw [hitems]
        rw [List.any_append, List.any_append, any_isNested_bound?, any_isNested_bound?]
      rw [if_neg hlong, if_pos (Nat.not_lt.mp hlong)]
      simp only [hnested]
      split_ifs <;> rfl
  | _ => rfl

variable {schema : Schema} {config : Config} {stem : String}

theorem failure?_operatorCondition? (field column : String) (operator : Operator) (value : Json) :
    failure? (operatorCondition? config stem field column operator value) =
      operator.valueFault? field value := by
  cases operator with
  | equals =>
    rw [operatorCondition?]
    split_ifs <;> rfl
  | contains =>
    rw [operatorCondition?]
    split_ifs <;> rfl
  | between => rw [operatorCondition?, failure?_map, failure?_bounds]
  | order relation =>
    rw [operatorCondition?, Operator.valueFault?]
    split_ifs <;> rfl
  | unknown name => rfl

/-- The compiler reports the fault of a predicate. -/
theorem failure?_condition? (predicate : Predicate) :
    failure? (predicate.condition? schema config stem) = predicate.fault? schema := by
  rw [condition?, fault?]
  by_cases hnull : predicate.value.isNull = true
  · rw [if_pos hnull, if_pos hnull, failure?_ok]
  rw [if_neg hnull, if_neg hnull]
  by_cases hkeyword : predicate.field = keywordField
  · rw [if_pos hkeyword, if_pos hkeyword, failure?_map, keywordCondition]
    simp only [List.isEmpty_iff]
    split_ifs <;> rfl
  rw [if_neg hkeyword, if_neg hkeyword, Schema.resolve]
  cases hcolumn : schema.column? predicate.field with
  | none => rfl
  | some column =>
    rw [if_neg (Option.some_ne_none column)]
    cases predicate.operator with
    | none => rfl
    | some operator => exact failure?_operatorCondition? _ _ _ _

end Predicate

/-! ## Trees -/

namespace Filter

variable {schema : Schema} {config : Config} {stem : String}

/-- Children are compiled from left to right until one has a fault. -/
theorem failure?_childConditions {children : List Filter}
    (h : ∀ child ∈ children, ∀ stem,
      failure? (condition? schema config stem child) = child.fault? schema) (index : ℕ) :
    failure? (childConditions schema config stem index children) =
      children.findSome? (fault? schema) := by
  induction children generalizing index with
  | nil => rfl
  | cons child rest ih =>
    have hrest := ih (fun other member => h other (List.mem_cons_of_mem _ member)) (index + 1)
    rw [childConditions, List.findSome?_cons, failure?_bind (rest.findSome? (fault? schema)),
      h child List.mem_cons_self]
    · cases child.fault? schema <;> rfl
    · intro condition _
      rw [failure?_bind none (fun _ _ => rfl), hrest, Option.or_none]

/-- The compiler reports the fault of a filter, whatever the stem is. -/
theorem failure?_condition? (filter : Filter) :
    ∀ stem, failure? (condition? schema config stem filter) = filter.fault? schema := by
  induction filter using Filter.induct with
  | test predicate =>
    intro stem
    rw [condition?, fault?]
    exact predicate.failure?_condition?
  | single logic only ih =>
    intro stem
    rw [condition?, fault?]
    exact ih _
  | group logic children many ih =>
    intro stem
    rw [condition?_group many, fault?_group many,
      failure?_bind (children.findSome? (fault? schema))]
    intro connective _
    rw [failure?_bind none, failure?_childConditions ih, Option.or_none]
    intro conditions _
    split_ifs <;> rfl

theorem failure?_compileAt (filter : Filter) :
    failure? (filter.compileAt schema config stem) = filter.fault? schema := by
  rw [compileAt_eq_map]
  exact (failure?_map _ _).trans (filter.failure?_condition? stem)

end Filter

/-- **A filter is accepted when it is well formed, and else rejected with its first
fault.** For every schema, configuration, stem and filter, the compiler succeeds if and
only if the filter has no fault, and fails with its fault if it has one. So whether it
succeeds and how it fails depends on the schema and the filter only. -/
theorem compileAt_reports_first_fault (schema : Schema) (config : Config) (stem : String)
    (filter : Filter) :
    ((∃ restriction, filter.compileAt schema config stem = .ok restriction) ↔
        filter.fault? schema = none) ∧
      (∀ e, filter.compileAt schema config stem = .error e ↔ filter.fault? schema = some e) ∧
      ∀ (other : Config) (otherStem : String),
        ((∃ restriction, filter.compileAt schema config stem = .ok restriction) ↔
          ∃ restriction, filter.compileAt schema other otherStem = .ok restriction) ∧
        ∀ e, filter.compileAt schema config stem = .error e ↔
          filter.compileAt schema other otherStem = .error e := by
  have hok : ∀ (config : Config) (stem : String),
      (∃ restriction, filter.compileAt schema config stem = .ok restriction) ↔
        filter.fault? schema = none := by
    intro config stem
    rw [← failure?_eq_none_iff, filter.failure?_compileAt]
  have herror : ∀ (config : Config) (stem : String) (e : OperationError),
      filter.compileAt schema config stem = .error e ↔ filter.fault? schema = some e := by
    intro config stem e
    rw [← failure?_eq_some_iff, filter.failure?_compileAt]
  refine ⟨hok config stem, herror config stem, fun other otherStem => ⟨?_, fun e => ?_⟩⟩
  · exact (hok config stem).trans (hok other otherStem).symm
  · exact (herror config stem e).trans (herror other otherStem e).symm

end FilterSql
