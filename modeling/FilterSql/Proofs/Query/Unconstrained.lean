import FilterSql.Proofs.Condition.Meaning
import FilterSql.Proofs.Query.Base

/-!
# Filters without a constraint

A filter in which nothing is filled in compiles to the empty text, and a page query writes
no clause for it. The text of a condition is never empty, so a filter that does ask
something of a row is not taken for a blank one, which would let every row through.

Results:
* `Filter.unconstrained_iff`: which filters ask nothing of a row, and how it is decided.
* `Filter.sql_eq_empty_iff`: these are the filters that compile to the empty text.
* `unconstrained_filter_is_no_filter`: page queries with and without such a filter.
-/

namespace FilterSql

/-! ## Specification -/

/-- A filter asks nothing of a row. A group without children does ask something. -/
inductive Filter.Unconstrained : Filter → Prop where
  /-- A predicate without a value. -/
  | unset {predicate : Predicate} (null : predicate.value.isNull = true) :
      Unconstrained (.test predicate)
  /-- A range without a bound. -/
  | unbounded {predicate : Predicate} {items : List Json} (field : predicate.field ≠ keywordField)
      (operator : predicate.operator = some .between) (value : predicate.value = .array items)
      (short : items.length ≤ 2) (null : ∀ item ∈ items, item.isNull = true) :
      Unconstrained (.test predicate)
  /-- A group of one child, whatever its logic word is. -/
  | single {logic : Logic} {only : Filter} (h : Unconstrained only) :
      Unconstrained (.group logic [only])
  | group {logic : Logic} {first second : Filter} {rest : List Filter}
      (h : ∀ child ∈ first :: second :: rest, Unconstrained child) :
      Unconstrained (.group logic (first :: second :: rest))

/-! ## Deciding -/

theorem Predicate.isConstrained_eq_false_iff {predicate : Predicate} :
    predicate.isConstrained = false ↔ predicate.value.isNull = true ∨
      ∃ items, predicate.field ≠ keywordField ∧ predicate.operator = some .between ∧
        predicate.value = .array items ∧ items.length ≤ 2 ∧
          ∀ item ∈ items, item.isNull = true := by
  rw [isConstrained]
  cases predicate.value with
  | array items => simp [Json.isNull, and_assoc]
  | _ => simp [Json.isNull]

namespace Filter

theorem anyConstrained_eq_false_iff {children : List Filter} :
    anyConstrained children = false ↔ ∀ child ∈ children, child.isConstrained = false := by
  induction children with
  | nil => simp [anyConstrained]
  | cons child rest ih => rw [anyConstrained, Bool.or_eq_false_iff, ih, List.forall_mem_cons]

theorem isConstrained_of_unconstrained {filter : Filter} (h : filter.Unconstrained) :
    filter.isConstrained = false := by
  induction h with
  | unset null => exact Predicate.isConstrained_eq_false_iff.mpr (.inl null)
  | unbounded field operator value short null =>
    exact Predicate.isConstrained_eq_false_iff.mpr
      (.inr ⟨_, field, operator, value, short, null⟩)
  | single _ ih => exact ih
  | group _ ih =>
    rw [isConstrained_group (by simp), anyConstrained_eq_false_iff.mpr ih]
    rfl

theorem unconstrained_of_isConstrained {filter : Filter} (h : filter.isConstrained = false) :
    filter.Unconstrained := by
  induction filter using Filter.induct with
  | test predicate =>
    obtain null | ⟨items, field, operator, value, short, null⟩ :=
      Predicate.isConstrained_eq_false_iff.mp h
    · exact .unset null
    · exact .unbounded field operator value short null
  | single logic only ih => exact .single (ih h)
  | group logic children many ih =>
    rw [isConstrained_group many, Bool.or_eq_false_iff] at h
    have hchildren := anyConstrained_eq_false_iff.mp h.2
    match children, many with
    | [], _ => cases h.1
    | [only], many => exact absurd rfl (many only)
    | first :: second :: rest, _ =>
      exact .group fun child member => ih child member (hchildren child member)

theorem unconstrained_iff {filter : Filter} :
    filter.Unconstrained ↔ filter.isConstrained = false :=
  ⟨isConstrained_of_unconstrained, unconstrained_of_isConstrained⟩

instance (filter : Filter) : Decidable filter.Unconstrained :=
  decidable_of_iff _ unconstrained_iff.symm

end Filter

/-! ## The text of a condition -/

/-- A search that looks into some column has a text. -/
theorem Condition.text_like_ne_empty {columns : List String} (some : columns ≠ [])
    (escaped : Bool) (pattern : Slot) : (Condition.like columns escaped pattern).text ≠ "" := by
  rw [text]
  cases columns with
  | nil => exact absurd rfl some
  | cons first rest =>
    cases rest with
    | nil => simp [likeText]
    | cons second rest => simp [likeText, String.intercalate_cons_cons]

theorem Predicate.text_ne_empty_of_compiled {schema : Schema} {config : Config} {stem : String}
    {predicate : Predicate} {condition : Condition}
    (h : Compiled schema config stem predicate (some condition)) : condition.text ≠ "" := by
  generalize hresult : some condition = result at h
  cases h with
  | unset null => cases hresult
  | keyword set field columns =>
    cases hresult
    exact Condition.text_like_ne_empty columns _ _
  | contains set field mapped operator value =>
    cases hresult
    exact Condition.text_like_ne_empty (List.cons_ne_nil _ _) _ _
  | between field mapped operator value short single =>
    obtain ⟨_, _, rfl⟩ | ⟨_, _, rfl⟩ := exists_of_rangeCondition? hresult.symm
    · simp [Condition.text]
    · simp [Condition.text]
  | among field mapped operator value =>
    cases hresult
    simp [Condition.text]
  | equal set field mapped operator value =>
    cases hresult
    simp [Condition.text]
  | order set field mapped operator value =>
    cases hresult
    simp [Condition.text]

namespace Filter

variable {schema : Schema} {config : Config} {stem : String} {filter : Filter}

theorem text_ne_empty {condition : Condition}
    (h : filter.condition? schema config stem = .ok (some condition)) : condition.text ≠ "" := by
  induction filter using Filter.induct generalizing stem condition with
  | test predicate => exact Predicate.text_ne_empty_of_compiled (Predicate.compiled_of_condition? h)
  | single logic only ih =>
    rw [condition?] at h
    exact ih h
  | group logic children many _ =>
    obtain ⟨connective, conditions, _, _, hresult⟩ := (condition?_group_eq_ok_iff many).mp h
    split_ifs at hresult
    cases hresult
    cases connective <;> simp [Condition.text, Connective.seed]

/-- What a filter without a constraint compiles to. -/
theorem eq_empty_of_unconstrained {restriction : Restriction}
    (h : filter.compileAt schema config stem = .ok restriction)
    (unconstrained : filter.Unconstrained) : restriction = {} := by
  obtain ⟨result, hcondition, rfl⟩ := compileAt_eq_ok_iff.mp h
  have hnone : result.isSome = false :=
    (isSome_condition? hcondition).trans (unconstrained_iff.mp unconstrained)
  rw [Option.isSome_eq_false_iff, Option.isNone_iff_eq_none] at hnone
  rw [hnone, Restriction.of]

/-- The filters that compile to the empty text are those without a constraint. -/
theorem sql_eq_empty_iff {restriction : Restriction}
    (h : filter.compileAt schema config stem = .ok restriction) :
    restriction.sql = "" ↔ filter.Unconstrained := by
  refine ⟨fun hempty => ?_, fun unconstrained => ?_⟩
  · obtain ⟨result, hcondition, rfl⟩ := compileAt_eq_ok_iff.mp h
    rw [unconstrained_iff, ← isSome_condition? hcondition]
    cases result with
    | none => rfl
    | some condition => exact absurd hempty (text_ne_empty hcondition)
  · rw [eq_empty_of_unconstrained h unconstrained]

end Filter

/-! ## Page queries -/

/-- **A filter without a constraint is as no filter.** For every schema, configuration and
filter:
* at every stem, if the filter compiles, its text is empty if and only if it is without a
  constraint, and then there are no parameters;
* over every base, with every sort list and parameters of the base, if the filter compiles
  and is without a constraint, then the page query or its error is that without a filter;
  if it has a constraint, then both statements restrict the rows of the base to it. -/
theorem unconstrained_filter_is_no_filter (schema : Schema) (config : Config) (filter : Filter) :
    (∀ stem restriction, filter.compileAt schema config stem = .ok restriction →
      (restriction.sql = "" ↔ filter.Unconstrained) ∧
      (filter.Unconstrained → restriction.parameters = .empty)) ∧
    ∀ base sort baseParameters restriction, filter.compile schema config = .ok restriction →
      (filter.Unconstrained →
        PageQuery.compile schema config base (some filter) sort baseParameters =
          PageQuery.compile schema config base none sort baseParameters) ∧
      (¬ filter.Unconstrained → ∀ query,
        PageQuery.compile schema config base (some filter) sort baseParameters = .ok query →
        ∃ order, orderClause schema sort = .ok order ∧
          query.countSql = "SELECT count(*) AS cnt FROM " ++ base ++
            (" WHERE 1=1 AND (" ++ restriction.sql ++ ")") ∧
          query.resultSql = "SELECT * FROM " ++ base ++
            (" WHERE 1=1 AND (" ++ restriction.sql ++ ")") ++ order) := by
  refine ⟨fun stem restriction h => ⟨Filter.sql_eq_empty_iff h, fun unconstrained => ?_⟩,
    fun base sort baseParameters restriction h => ⟨fun unconstrained => ?_, ?_⟩⟩
  · rw [Filter.eq_empty_of_unconstrained h unconstrained]
    rfl
  · rw [Filter.eq_empty_of_unconstrained h unconstrained] at h
    rw [PageQuery.compile, PageQuery.compile, Restriction.ofFilter?, Restriction.ofFilter?, h]
  · intro constrained query hquery
    have hsome : restriction.isEmpty = false := by
      rw [Restriction.isEmpty, Bool.eq_false_iff]
      exact fun hempty => constrained ((Filter.sql_eq_empty_iff h).mp (String.isEmpty_iff.mp hempty))
    obtain ⟨compiled, _, order, hcompiled, _, horder, rfl⟩ := PageQuery.compile_eq_ok_iff.mp hquery
    obtain rfl : restriction = compiled := Except.ok.inj (h.symm.trans hcompiled)
    refine ⟨order, horder, ?_, ?_⟩
    · rw [Restriction.clause_of_constrained hsome]
    · rw [Restriction.clause_of_constrained hsome]

namespace Example

/-- A search form in which nothing is filled in. Its fields need not be mapped, and the word
of a group of one child need not be known. -/
def blank : Filter :=
  .any [.all [.equals "nowhere" .null, .between "amount" none none],
    .group (.unknown "xor") [.keyword .null]]

/-- A blank search beside a group without children. -/
def blankOrNever : Filter :=
  .all [blank, .any []]

end Example

/-- A blank search is no filter, and it drops out of a group that has a constraint. -/
theorem blank_is_no_filter :
    (∃ restriction, Example.blank.compileAt Example.orders {} "p" = .ok restriction ∧
      restriction.sql = "" ∧ restriction.parameters = .empty) ∧
    PageQuery.compile Example.orders {} "T" (some Example.blank) [⟨"amount", .descending⟩] .empty =
      PageQuery.compile Example.orders {} "T" none [⟨"amount", .descending⟩] .empty ∧
    ∃ query, PageQuery.compile Example.orders {} "T" (some Example.blankOrNever)
        [⟨"amount", .descending⟩] .empty = .ok query ∧
      query.countSql = "SELECT count(*) AS cnt FROM T WHERE 1=1 AND (1=1 AND (1=0))" ∧
      query.resultSql = "SELECT * FROM T WHERE 1=1 AND (1=1 AND (1=0)) ORDER BY AMOUNT DESC" := by
  obtain ⟨hcompiled, hqueries⟩ :=
    unconstrained_filter_is_no_filter Example.orders {} Example.blank
  obtain ⟨-, hothers⟩ :=
    unconstrained_filter_is_no_filter Example.orders {} Example.blankOrNever
  have hblank : Example.blank.Unconstrained := by decide
  have hnever : ¬ Example.blankOrNever.Unconstrained := by decide
  obtain ⟨hsql, hparameters⟩ := hcompiled "p" _ rfl
  obtain ⟨order, horder, hcount, hresult⟩ :=
    (hothers "T" [⟨"amount", .descending⟩] .empty _ rfl).2 hnever _ rfl
  cases horder
  exact ⟨⟨_, rfl, hsql.mpr hblank, hparameters hblank⟩,
    (hqueries "T" [⟨"amount", .descending⟩] .empty _ rfl).1 hblank, _, rfl, hcount, hresult⟩

end FilterSql
