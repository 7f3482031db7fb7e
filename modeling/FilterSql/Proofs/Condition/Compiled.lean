import Mathlib.Tactic.Common
import FilterSql.Condition.Compile
import FilterSql.Proofs.Failure

/-!
# What filters compile to

The compiler read backwards, once for all: from the fact that a filter has a
condition to what the filter is made of. Proofs about compiled filters use the
statements of this file and do not unfold the compiler.

Results:
* `Filter.induct`, `Condition.induct`: induction along the tree, with the case
  of a group of one child apart, because the compiler passes through it.
* `Predicate.compiled_of_condition?`: the seven things a predicate compiles to.
* `Filter.condition?_group_eq_ok_iff`, `Filter.childConditions_induct`: groups and their
  children.
-/

namespace FilterSql

theorem Schema.resolve_eq_ok_iff {schema : Schema} {field column : String} :
    schema.resolve field = .ok column ↔ schema.column? field = some column := by
  rw [resolve]
  cases schema.column? field <;> simp

theorem Json.isArray_of_not_isNested {value : Json} (h : value.isNested = false) :
    value.isArray = false := by
  cases value with
  | array items => cases h
  | _ => rfl

/-! ## Induction -/

mutual

theorem Filter.induct {P : Filter → Prop} (test : ∀ predicate, P (.test predicate))
    (single : ∀ logic only, P only → P (.group logic [only]))
    (group : ∀ logic children, (∀ only, children ≠ [only]) → (∀ child ∈ children, P child) →
      P (.group logic children)) : ∀ filter, P filter
  | .test predicate => test predicate
  | .group logic [only] => single logic only (Filter.induct test single group only)
  | .group logic [] => group logic [] (by simp) (Filter.induct_children test single group [])
  | .group logic (first :: second :: rest) =>
    group logic _ (by simp) (Filter.induct_children test single group (first :: second :: rest))

theorem Filter.induct_children {P : Filter → Prop} (test : ∀ predicate, P (.test predicate))
    (single : ∀ logic only, P only → P (.group logic [only]))
    (group : ∀ logic children, (∀ only, children ≠ [only]) → (∀ child ∈ children, P child) →
      P (.group logic children)) : ∀ children : List Filter, ∀ child ∈ children, P child
  | [], _, member => nomatch member
  | first :: rest, child, member => by
    rcases List.mem_cons.mp member with h | h
    · rw [h]; exact Filter.induct test single group first
    · exact Filter.induct_children test single group rest child h

end

mutual

theorem Condition.induct {P : Condition → Prop}
    (compare : ∀ column relation operand, P (.compare column relation operand))
    (among : ∀ column list, P (.among column list))
    (range : ∀ column low high, P (.range column low high))
    (like : ∀ columns escaped pattern, P (.like columns escaped pattern))
    (group : ∀ connective children, (∀ child ∈ children, P child) →
      P (.group connective children)) : ∀ condition, P condition
  | .compare column relation operand => compare column relation operand
  | .among column list => among column list
  | .range column low high => range column low high
  | .like columns escaped pattern => like columns escaped pattern
  | .group connective children =>
    group connective children (Condition.induct_children compare among range like group children)

theorem Condition.induct_children {P : Condition → Prop}
    (compare : ∀ column relation operand, P (.compare column relation operand))
    (among : ∀ column list, P (.among column list))
    (range : ∀ column low high, P (.range column low high))
    (like : ∀ columns escaped pattern, P (.like columns escaped pattern))
    (group : ∀ connective children, (∀ child ∈ children, P child) →
      P (.group connective children)) :
    ∀ children : List Condition, ∀ child ∈ children, P child
  | [], _, member => nomatch member
  | first :: rest, child, member => by
    rcases List.mem_cons.mp member with h | h
    · rw [h]; exact Condition.induct compare among range like group first
    · exact Condition.induct_children compare among range like group rest child h

end

/-! ## Predicates -/

namespace Predicate

/-- The bounds of a range are accepted when the value is an array of at most two
entries, none of which is an array or an object. -/
theorem bounds_eq_ok_iff {field : String} {value : Json} {bounds : Option Json × Option Json} :
    Predicate.bounds field value = .ok bounds ↔
      ∃ items, value = .array items ∧ items.length ≤ 2 ∧
        bounds = (bound? items 0, bound? items 1) ∧
        ∀ bound ∈ (bound? items 0).toList ++ (bound? items 1).toList, bound.isNested = false := by
  cases value with
  | array items =>
    by_cases short : items.length ≤ 2
    · by_cases nested : ((bound? items 0).toList ++ (bound? items 1).toList).any Json.isNested
      · simp only [Predicate.bounds, short, nested, if_true, reduceCtorEq, Json.array.injEq,
          exists_eq_left', true_and, false_iff, not_and]
        rintro -
        obtain ⟨bound, member, hbound⟩ := List.any_eq_true.mp nested
        intro single
        rw [single bound member] at hbound
        cases hbound
      · simp only [Predicate.bounds, short, nested, if_true, Bool.false_eq_true, if_false,
          Except.ok.injEq, Json.array.injEq, exists_eq_left', true_and]
        have single : ∀ bound ∈ (bound? items 0).toList ++ (bound? items 1).toList,
            bound.isNested = false := by
          intro bound member
          rw [Bool.eq_false_iff]
          exact fun hbound => nested (List.any_eq_true.mpr ⟨bound, member, hbound⟩)
        exact ⟨fun h => ⟨h.symm, single⟩, fun h => h.1.symm⟩
    · simp [Predicate.bounds, short]
  | _ => simp [Predicate.bounds]

theorem exists_of_rangeCondition? {column stem : String} {bounds : Option Json × Option Json}
    {condition : Condition} (h : rangeCondition? column stem bounds = some condition) :
    (∃ relation operand, condition = .compare column relation operand) ∨
      ∃ low high, condition = .range column low high := by
  obtain ⟨low | low, high | high⟩ := bounds <;> cases h
  · exact .inl ⟨_, _, rfl⟩
  · exact .inl ⟨_, _, rfl⟩
  · exact .inr ⟨_, _, rfl⟩

/-- The conditions that a predicate can compile to, with what the compiler has
checked on the way. -/
inductive Compiled (schema : Schema) (config : Config) (stem : String) (predicate : Predicate) :
    Option Condition → Prop where
  | unset (null : predicate.value.isNull = true) : Compiled schema config stem predicate none
  | keyword (set : predicate.value.isNull = false) (field : predicate.field = keywordField)
      (columns : schema.keywordColumns ≠ []) :
      Compiled schema config stem predicate (some (.like schema.keywordColumns
        config.escapeWildcards ⟨slotName stem 0,
          .string (Pattern.containing predicate.value config.escapeWildcards)⟩))
  | among {column : String} {items : List Json} (field : predicate.field ≠ keywordField)
      (mapped : schema.column? predicate.field = some column)
      (operator : predicate.operator = some .equals ∨ predicate.operator = some .contains)
      (value : predicate.value = .array items) :
      Compiled schema config stem predicate
        (some (.among column ⟨slotName stem 0, .array items⟩))
  | equal {column : String} (set : predicate.value.isNull = false)
      (field : predicate.field ≠ keywordField)
      (mapped : schema.column? predicate.field = some column)
      (operator : predicate.operator = some .equals) (value : predicate.value.isArray = false) :
      Compiled schema config stem predicate
        (some (.compare column .equal ⟨slotName stem 0, predicate.value⟩))
  | contains {column : String} (set : predicate.value.isNull = false)
      (field : predicate.field ≠ keywordField)
      (mapped : schema.column? predicate.field = some column)
      (operator : predicate.operator = some .contains) (value : predicate.value.isArray = false) :
      Compiled schema config stem predicate (some (.like [column] config.escapeWildcards
        ⟨slotName stem 0,
          .string (Pattern.containing predicate.value config.escapeWildcards)⟩))
  | between {column : String} {items : List Json} (field : predicate.field ≠ keywordField)
      (mapped : schema.column? predicate.field = some column)
      (operator : predicate.operator = some .between) (value : predicate.value = .array items)
      (short : items.length ≤ 2)
      (single : ∀ bound ∈ (bound? items 0).toList ++ (bound? items 1).toList,
        bound.isNested = false) :
      Compiled schema config stem predicate
        (rangeCondition? column stem (bound? items 0, bound? items 1))
  | order {column : String} {relation : OrderRelation} (set : predicate.value.isNull = false)
      (field : predicate.field ≠ keywordField)
      (mapped : schema.column? predicate.field = some column)
      (operator : predicate.operator = some (.order relation))
      (value : predicate.value.isNested = false) :
      Compiled schema config stem predicate
        (some (.compare column (.order relation) ⟨slotName stem 0, predicate.value⟩))

variable {schema : Schema} {config : Config} {stem : String} {predicate : Predicate}

theorem compiled_of_operatorCondition? {column : String} {operator : Operator}
    {result : Option Condition} (set : predicate.value.isNull = false)
    (field : predicate.field ≠ keywordField)
    (mapped : schema.column? predicate.field = some column)
    (hop : predicate.operator = some operator)
    (h : operatorCondition? config stem predicate.field column operator predicate.value =
      .ok result) : Compiled schema config stem predicate result := by
  cases operator with
  | equals =>
    cases hv : predicate.value with
    | array items =>
      simp only [operatorCondition?, hv, Json.isArray, if_true, Except.ok.injEq] at h
      subst h
      exact .among field mapped (.inl hop) hv
    | _ =>
      have value : predicate.value.isArray = false := by rw [hv]; rfl
      simp only [operatorCondition?, value, Bool.false_eq_true, if_false, Except.ok.injEq] at h
      subst h
      exact .equal set field mapped hop value
  | contains =>
    cases hv : predicate.value with
    | array items =>
      simp only [operatorCondition?, hv, Json.isArray, if_true, Except.ok.injEq] at h
      subst h
      exact .among field mapped (.inr hop) hv
    | _ =>
      have value : predicate.value.isArray = false := by rw [hv]; rfl
      simp only [operatorCondition?, value, Bool.false_eq_true, if_false, Except.ok.injEq] at h
      subst h
      exact .contains set field mapped hop value
  | between =>
    rw [operatorCondition?, map_eq_pure_bind, bind_eq_ok_iff] at h
    obtain ⟨bounds, hbounds, h⟩ := h
    obtain ⟨items, value, short, rfl, single⟩ := bounds_eq_ok_iff.mp hbounds
    cases h
    exact .between field mapped hop value short single
  | order relation =>
    cases value : predicate.value.isNested with
    | true => simp [operatorCondition?, value] at h
    | false =>
      simp only [operatorCondition?, value, Bool.false_eq_true, if_false, Except.ok.injEq] at h
      subst h
      exact .order set field mapped hop value
  | unknown name => simp [operatorCondition?] at h

/-- What a predicate has compiled to is one of the seven forms. -/
theorem compiled_of_condition? {result : Option Condition}
    (h : predicate.condition? schema config stem = .ok result) :
    Compiled schema config stem predicate result := by
  rw [Predicate.condition?] at h
  cases set : predicate.value.isNull with
  | true =>
    simp only [set, if_true, Except.ok.injEq] at h
    subst h
    exact .unset set
  | false =>
    simp only [set, Bool.false_eq_true, if_false] at h
    by_cases field : predicate.field = keywordField
    · simp only [field, if_true, keywordCondition] at h
      by_cases columns : schema.keywordColumns = []
      · simp [columns] at h
      · have hsome : schema.keywordColumns.isEmpty = false := by simp [columns]
        simp only [hsome, Bool.false_eq_true, if_false] at h
        cases h
        exact .keyword set field columns
    · rw [if_neg field, bind_eq_ok_iff] at h
      obtain ⟨column, hcolumn, h⟩ := h
      have mapped := Schema.resolve_eq_ok_iff.mp hcolumn
      cases hop : predicate.operator with
      | none => simp [hop] at h
      | some operator =>
        simp only [hop] at h
        exact compiled_of_operatorCondition? set field mapped hop h

end Predicate

/-! ## Groups -/

namespace Filter

variable {schema : Schema} {config : Config} {stem : String}

theorem condition?_group {logic : Logic} {children : List Filter}
    (many : ∀ only, children ≠ [only]) :
    condition? schema config stem (.group logic children) = (do
      let connective ← logic.connective
      let conditions ← childConditions schema config stem 0 children
      if conditions.isEmpty && !children.isEmpty then return none
      else return some (.group connective conditions)) := by
  rw [condition?]
  exact many

/-- A group that is not of one child compiles to the group of the conditions of its
children, or to nothing if it has children and none of them has a condition. -/
theorem condition?_group_eq_ok_iff {logic : Logic} {children : List Filter}
    (many : ∀ only, children ≠ [only]) {result : Option Condition} :
    condition? schema config stem (.group logic children) = .ok result ↔
      ∃ connective conditions, logic = .known connective ∧
        childConditions schema config stem 0 children = .ok conditions ∧
        result = if conditions = [] ∧ children ≠ [] then none
          else some (.group connective conditions) := by
  rw [condition?_group many, bind_eq_ok_iff]
  constructor
  · rintro ⟨connective, hlogic, h⟩
    obtain ⟨conditions, hconditions, h⟩ := bind_eq_ok_iff.mp h
    refine ⟨connective, conditions, ?_, hconditions, ?_⟩
    · cases logic with
      | known other => cases hlogic; rfl
      | unknown word => cases hlogic
    · cases conditions <;> cases children <;> cases h <;> rfl
  · rintro ⟨connective, conditions, rfl, hconditions, rfl⟩
    refine ⟨connective, rfl, ?_⟩
    rw [hconditions]
    cases conditions <;> cases children <;> rfl

theorem childConditions_cons_eq_ok_iff {index : Nat} {child : Filter} {rest : List Filter}
    {conditions : List Condition} :
    childConditions schema config stem index (child :: rest) = .ok conditions ↔
      ∃ first others, condition? schema config (childStem stem index) child = .ok first ∧
        childConditions schema config stem (index + 1) rest = .ok others ∧
        conditions = first.toList ++ others := by
  rw [childConditions, bind_eq_ok_iff]
  constructor
  · rintro ⟨first, hfirst, h⟩
    obtain ⟨others, hothers, h⟩ := bind_eq_ok_iff.mp h
    cases h
    exact ⟨first, others, hfirst, hothers, rfl⟩
  · rintro ⟨first, others, hfirst, hothers, rfl⟩
    refine ⟨first, hfirst, ?_⟩
    rw [hothers]
    rfl

/-- What holds of no conditions, and of more children as soon as it holds of fewer, holds of
the conditions that children compile to. -/
theorem childConditions_induct {P : Nat → List Filter → List Condition → Prop}
    {children : List Filter} (nil : ∀ index, P index [] [])
    (cons : ∀ index child rest first others, child ∈ children →
      condition? schema config (childStem stem index) child = .ok first →
      P (index + 1) rest others → P index (child :: rest) (first.toList ++ others))
    {index : Nat} {conditions : List Condition}
    (h : childConditions schema config stem index children = .ok conditions) :
    P index children conditions := by
  induction children generalizing index conditions with
  | nil =>
    cases h
    exact nil index
  | cons child rest ih =>
    obtain ⟨first, others, hfirst, hothers, rfl⟩ := childConditions_cons_eq_ok_iff.mp h
    refine cons index child rest first others List.mem_cons_self hfirst (ih ?_ hothers)
    exact fun index other rest first others member =>
      cons index other rest first others (List.mem_cons_of_mem _ member)

end Filter

end FilterSql
