import FilterSql.Query.Page
import FilterSql.Proofs.Condition.Alike
import FilterSql.Proofs.Condition.Positional

/-!
# Values do not reach the text of a statement

Two runs of everything that makes statements out of filters: compiling, assembling a
page query and binding. As in `Condition.Related`, what differs between the runs are
values.

Results:
* `Statement.agree_bind`: binding a template to parameters of the same lengths gives the
  same text, or the same error.
* `PageQuery.agree_compile`: page queries over restrictions that differ in values only
  differ in values only.
* `statements_of_alike_filters`: all of it for filters.
-/

namespace FilterSql

variable {V : Json → Json → Prop}

/-! ## Parameters -/

/-- Parameters of the same names with related values. -/
def Parameters.Related (V : Json → Json → Prop) (left right : Parameters) : Prop :=
  ∀ name, Option.Rel V (left.get? name) (right.get? name)

namespace Parameters

variable {left right : Parameters}

theorem contains_eq_of_related (h : left.Related V right) (name : String) :
    left.contains name = right.contains name := by
  have hname := h name
  rw [contains_eq_isSome, contains_eq_isSome]
  generalize left.get? name = value at hname ⊢
  generalize right.get? name = other at hname ⊢
  cases hname <;> rfl

theorem names_eq_of_related (h : left.Related V right) : left.names = right.names :=
  names_eq_of_contains fun name => by rw [contains_eq_of_related h]

theorem related_insert (h : left.Related V right) (name : String) {value other : Json}
    (hvalue : V value other) : (left.insert name value).Related V (right.insert name other) := by
  intro found
  rw [get?_insert, get?_insert]
  split_ifs
  · exact .some hvalue
  · exact h found

theorem related_ofSlots {slots others : List Slot}
    (h : List.Forall₂ (Slot.Related V) slots others) :
    (ofSlots slots).Related V (ofSlots others) := by
  have hfold : ∀ {left right : Parameters}, left.Related V right →
      ((slots.map fun slot => (slot.name, slot.value)).foldl
        (fun parameters entry => parameters.insert entry.1 entry.2) left).Related V
      ((others.map fun slot => (slot.name, slot.value)).foldl
        (fun parameters entry => parameters.insert entry.1 entry.2) right) := by
    induction h with
    | nil => exact fun h => h
    | @cons slot other rest others hslot _ ih =>
      intro left right hrelated
      obtain ⟨name, value⟩ := slot
      obtain ⟨rfl, hvalue⟩ := hslot
      exact ih (related_insert hrelated _ hvalue)
  refine hfold fun name => ?_
  rw [get?_empty]
  exact .none

theorem agree_merge (hV : ∀ value, V value value) (h : left.Related V right)
    (base : Parameters) : Agree Eq (Related V) (left.merge base) (right.merge base) := by
  have hcontains : left.contains = right.contains := by
    funext name
    exact contains_eq_of_related h name
  rw [merge, merge, hcontains]
  cases base.names.find? right.contains with
  | some name => exact .error rfl
  | none =>
    refine .ok fun name => ?_
    rw [get?_union, get?_union]
    cases base.get? name with
    | some value => exact .some (hV value)
    | none => exact h name

end Parameters

/-! ## Binding -/

/-- Values that put the same number of placeholders into a statement. -/
def Json.SameCount (value other : Json) : Prop :=
  (BoundValue.listOfJson value).length = (BoundValue.listOfJson other).length

theorem Json.sameCount_of_bothFlat {value other : Json} (h : BothFlat value other) :
    SameCount value other := by
  rw [SameCount, BoundValue.listOfJson_of_not_isArray h.1,
    BoundValue.listOfJson_of_not_isArray h.2]
  rfl

namespace Statement

/-- Filled pieces that differ in values only, which are of the same number. -/
inductive SameShape : Piece (List BoundValue) → Piece (List BoundValue) → Prop where
  | verbatim (c : Char) : SameShape (.verbatim c) (.verbatim c)
  | slot {values others : List BoundValue} (h : values.length = others.length) :
      SameShape (.slot values) (.slot others)

theorem marks_congr (dialect : Dialect) (before : ℕ) {values others : List BoundValue}
    (h : values.length = others.length) :
    marks dialect before values = marks dialect before others := by
  have hnil : values = [] ↔ others = [] := by
    rw [← List.length_eq_zero_iff, h, List.length_eq_zero_iff]
  rw [marks_eq, marks_eq, h]
  simp only [hnil]

theorem render_congr (dialect : Dialect) {filled others : List (Piece (List BoundValue))}
    (h : List.Forall₂ SameShape filled others) (before : ℕ) :
    render dialect before filled = render dialect before others := by
  induction h generalizing before with
  | nil => rfl
  | cons hpiece _ ih =>
    cases hpiece with
    | verbatim c => rw [render, render, ih]
    | slot h => rw [render, render, marks_congr dialect before h, h, ih]

theorem agree_fill {left right : Parameters} (h : left.Related Json.SameCount right)
    (pieces : List (Piece String)) :
    Agree Eq (List.Forall₂ SameShape) (pieces.mapM (fill left)) (pieces.mapM (fill right)) := by
  induction pieces with
  | nil => exact .ok .nil
  | cons piece rest ih =>
    have hpiece : Agree Eq SameShape (fill left piece) (fill right piece) := by
      cases piece with
      | verbatim c => exact .ok (.verbatim c)
      | slot name =>
        have hname := h name
        rw [fill, fill]
        generalize left.get? name = value at hname ⊢
        generalize right.get? name = other at hname ⊢
        cases hname with
        | none => exact .error rfl
        | some h => exact .ok (.slot h)
    rw [List.mapM_cons, List.mapM_cons]
    refine hpiece.bind fun first first' hfirst => ?_
    exact ih.bind fun others others' hothers => .ok (.cons hfirst hothers)

/-- Binding a template to parameters of the same lengths gives the same text, or the same
error. -/
theorem agree_bind {left right : Parameters} (h : left.Related Json.SameCount right)
    (dialect : Dialect) (template : String) :
    Agree Eq (fun statement other : Statement => statement.sql = other.sql)
      (bind dialect template left) (bind dialect template right) := by
  refine (agree_fill h _).bind fun filled others hfilled => .ok ?_
  exact congrArg String.ofList (render_congr dialect hfilled 0)

end Statement

/-! ## Restrictions and page queries -/

/-- Restrictions that differ in values only. -/
structure Restriction.Related (V : Json → Json → Prop) (restriction other : Restriction) :
    Prop where
  sql : restriction.sql = other.sql
  parameters : restriction.parameters.Related V other.parameters

/-- Page queries that differ in values only. -/
structure PageQuery.Related (V : Json → Json → Prop) (query other : PageQuery) : Prop where
  countSql : query.countSql = other.countSql
  resultSql : query.resultSql = other.resultSql
  parameters : query.parameters.Related V other.parameters

theorem Restriction.related_of {condition other : Option Condition}
    (h : Option.Rel (Condition.Related V) condition other) :
    (Restriction.of condition).Related V (Restriction.of other) := by
  have hempty : ∀ name, ({} : Parameters).get? name = none := Parameters.get?_empty
  cases h with
  | none => exact ⟨rfl, fun name => by rw [Restriction.of, hempty]; exact .none⟩
  | some h => exact ⟨h.text_eq, Parameters.related_ofSlots h.forall₂_slots⟩

theorem PageQuery.agree_compile (hV : ∀ value, V value value) {schema : Schema} {config : Config}
    {filter other : Filter}
    (h : Agree Eq (Restriction.Related V) (filter.compile schema config)
      (other.compile schema config)) (base : String) (sort : List SortEntry)
    (baseParameters : Parameters) :
    Agree Eq (PageQuery.Related V)
      (PageQuery.compile schema config base (some filter) sort baseParameters)
      (PageQuery.compile schema config base (some other) sort baseParameters) := by
  refine h.bind fun restriction restriction' hrestriction => ?_
  have hclause : restriction.clause = restriction'.clause := by
    rw [Restriction.clause, Restriction.clause, Restriction.isEmpty, Restriction.isEmpty,
      hrestriction.sql]
  refine (Parameters.agree_merge hV hrestriction.parameters baseParameters).bind
    fun parameters parameters' hparameters => ?_
  refine (Agree.refl (fun _ => rfl) (fun _ => rfl) (orderClause schema sort)).bind ?_
  rintro order _ rfl
  exact .ok ⟨by dsimp only; rw [hclause], by dsimp only; rw [hclause], hparameters⟩

/-! ## Filters -/

namespace Filter

variable {schema : Schema} {config : Config} {first second : Filter}

theorem agree_compileAt {E : OperationError → OperationError → Prop} {stem : String}
    (h : Agree E (Option.Rel (Condition.Related V)) (first.condition? schema config stem)
      (second.condition? schema config stem)) :
    Agree E (Restriction.Related V) (first.compileAt schema config stem)
      (second.compileAt schema config stem) := by
  rw [compileAt_eq_map, compileAt_eq_map]
  exact h.map fun _ _ => Restriction.related_of

theorem Related.mono {R S : Predicate → Predicate → Prop} (h : first.Related R second)
    (hRS : ∀ predicate other, R predicate other → S predicate other) :
    first.Related S second := by
  induction first using Filter.induct generalizing second with
  | test predicate =>
    obtain ⟨h⟩ := h
    exact .test (hRS _ _ h)
  | single logic only ih =>
    obtain ⟨other, rfl, hother⟩ := h.single
    exact .group (.cons (ih hother) .nil)
  | group logic children many ih =>
    obtain ⟨⟩ | ⟨h⟩ := h
    exact .group (forall₂_imp_of_mem h fun child member other h => ih child member h)

theorem agree_of_alike (h : first.Related Predicate.Alike second) (stem : String) :
    Agree Eq (Restriction.Related fun _ _ => True) (first.compileAt schema config stem)
      (second.compileAt schema config stem) :=
  agree_compileAt (agree_condition? (fun _ => rfl)
    (fun _ _ h stem => Predicate.agree_of_alike (fun _ _ _ => trivial) h (fun _ => trivial) stem)
    h stem)

theorem agree_of_alikeInLength (h : first.Related Predicate.AlikeInLength second)
    (stem : String) :
    Agree Eq (Restriction.Related Json.SameCount) (first.compileAt schema config stem)
      (second.compileAt schema config stem) := by
  have harray : ∀ predicate other : Predicate, predicate.AlikeInLength other →
      predicate.value.isArray = true → Json.SameCount predicate.value other.value := by
    intro predicate other h hvalue
    have hlength := h.length
    have hother := Json.isArray_eq_of_kind h.kind
    rw [hvalue] at hother
    cases hfirst : predicate.value with
    | array items =>
      cases hsecond : other.value with
      | array others =>
        rw [hfirst, hsecond] at hlength
        simpa [Json.SameCount, Json.arrayLength?, BoundValue.listOfJson] using hlength
      | _ => rw [hsecond] at hother; cases hother
    | _ => rw [hfirst] at hvalue; cases hvalue
  exact agree_compileAt (agree_condition? (fun _ => rfl)
    (fun predicate other h stem => Predicate.agree_of_alike (fun _ _ => Json.sameCount_of_bothFlat)
      h.toAlike (harray predicate other h) stem) h stem)

theorem agree_of_remapped (h : first.Related (Predicate.Remapped schema) second)
    (stem : String) :
    Agree (fun _ _ => True) (Restriction.Related Eq) (first.compileAt schema config stem)
      (second.compileAt schema config stem) := by
  have hpredicate : ∀ predicate other : Predicate, predicate.Remapped schema other → ∀ stem,
      Agree (fun _ _ => True) (Option.Rel (Condition.Related Eq))
        (predicate.condition? schema config stem) (other.condition? schema config stem) := by
    intro predicate other h stem
    refine (Predicate.agree_of_remapped h stem).mono ?_
    rintro condition _ rfl
    cases condition with
    | none => exact .none
    | some condition => exact .some (.refl (fun _ => rfl) condition)
  exact agree_compileAt (agree_condition? (fun _ => trivial) hpredicate h stem)

end Filter

/-- **Values do not reach the text of a statement.** Let two filters have the same groups
and logic words.
* If their predicates are alike, then compiling fails on both with the same error, or
  gives the same text and the same names, and so do the statements of a page query.
* If also the arrays have the same lengths, the text of the statements is still the same
  after binding. Where no column contains a quote, a colon, a hyphen or a slash and the
  configuration is valid, the compiled filters can be bound.
* If their predicates differ in fields that are mapped to the same column, and one filter
  compiles, the other one compiles to the same text. -/
theorem statements_of_alike_filters (schema : Schema) (config : Config) (first second : Filter) :
    (first.Related Predicate.Alike second →
      (∀ stem, Agree Eq (fun restriction other : Restriction =>
          restriction.sql = other.sql ∧ restriction.parameters.names = other.parameters.names)
        (first.compileAt schema config stem) (second.compileAt schema config stem)) ∧
      ∀ base sort baseParameters, Agree Eq (fun query other : PageQuery =>
          query.countSql = other.countSql ∧ query.resultSql = other.resultSql ∧
            query.parameters.names = other.parameters.names)
        (PageQuery.compile schema config base (some first) sort baseParameters)
        (PageQuery.compile schema config base (some second) sort baseParameters)) ∧
    (first.Related Predicate.AlikeInLength second → ∀ dialect,
      (schema.EveryColumn IsInertText → config.check = .ok () →
        Agree Eq (fun restriction other : Restriction => ∃ statement statement',
            Statement.bind dialect restriction.sql restriction.parameters = .ok statement ∧
            Statement.bind dialect other.sql other.parameters = .ok statement' ∧
            statement.sql = statement'.sql)
          (first.compile schema config) (second.compile schema config)) ∧
      ∀ base sort baseParameters, Agree Eq (fun query other : PageQuery =>
          Agree Eq (fun statement other : Statement => statement.sql = other.sql)
            (Statement.bind dialect query.countSql query.parameters)
            (Statement.bind dialect other.countSql other.parameters) ∧
          Agree Eq (fun statement other : Statement => statement.sql = other.sql)
            (Statement.bind dialect query.resultSql query.parameters)
            (Statement.bind dialect other.resultSql other.parameters))
        (PageQuery.compile schema config base (some first) sort baseParameters)
        (PageQuery.compile schema config base (some second) sort baseParameters)) ∧
    (first.Related (Predicate.Remapped schema) second → ∀ stem restriction,
      first.compileAt schema config stem = .ok restriction →
        ∃ other, second.compileAt schema config stem = .ok other ∧
          other.sql = restriction.sql) := by
  refine ⟨fun h => ⟨fun stem => ?_, fun base sort baseParameters => ?_⟩,
    fun h dialect => ⟨fun columns valid => ?_, fun base sort baseParameters => ?_⟩,
    fun h stem restriction hrestriction => ?_⟩
  · exact (Filter.agree_of_alike h stem).mono fun _ _ h =>
      ⟨h.sql, Parameters.names_eq_of_related h.parameters⟩
  · exact (PageQuery.agree_compile (fun _ => trivial) (Filter.agree_of_alike h config.stem) base
      sort baseParameters).mono fun _ _ h =>
        ⟨h.countSql, h.resultSql, Parameters.names_eq_of_related h.parameters⟩
  · refine (Filter.agree_of_alikeInLength h config.stem).imp_of_ok
      fun restriction other hfirst hsecond hrelated => ?_
    have hstem := Config.check_eq_ok_iff.mp valid
    obtain ⟨_, _, hbind⟩ := Filter.bind_compileAt columns hstem hfirst dialect
    obtain ⟨_, _, hbind'⟩ := Filter.bind_compileAt columns hstem hsecond dialect
    refine ⟨_, _, hbind, hbind', ?_⟩
    have hagree := Statement.agree_bind hrelated.parameters dialect restriction.sql
    rw [hbind, hrelated.sql, hbind'] at hagree
    obtain ⟨hsql⟩ := hagree
    exact hsql
  · have hV : ∀ value, Json.SameCount value value := fun _ => rfl
    refine (PageQuery.agree_compile hV (Filter.agree_of_alikeInLength h config.stem) base sort
      baseParameters).mono fun _ _ h => ?_
    rw [h.countSql, h.resultSql]
    exact ⟨Statement.agree_bind h.parameters dialect _, Statement.agree_bind h.parameters dialect _⟩
  · obtain ⟨other, hother, hrelated⟩ := (Filter.agree_of_remapped h stem).exists_of_ok hrestriction
    exact ⟨other, hother, hrelated.sql.symm⟩

namespace Example

/-- The search with other values of the same kinds. -/
def otherSearch : Filter :=
  .any [.keyword (.string "' OR 1=1 --"),
    .all [.equals "status" (.array [.string "X", .string "';"]),
      .between "amount" (some (.number (.integer 7))) (some (.string ")")),
      .equals "status" .null, .between "amount" none (some (.bool true))]]

theorem alikeInLength_search : search.Related Predicate.AlikeInLength otherSearch :=
  have hpredicate : ∀ {field : String} {operator : Option Operator} {value other : Json},
      value.kind = other.kind → value.entryKinds = other.entryKinds →
      value.arrayLength? = other.arrayLength? →
      Predicate.AlikeInLength ⟨field, operator, value⟩ ⟨field, operator, other⟩ :=
    fun hkind hentries hlength => ⟨⟨rfl, rfl, hkind, fun _ => hentries⟩, hlength⟩
  .group (.cons (.test (hpredicate rfl rfl rfl)) (.cons
    (.group (.cons (.test (hpredicate rfl rfl rfl)) (.cons (.test (hpredicate rfl rfl rfl))
      (.cons (.test (hpredicate rfl rfl rfl))
        (.cons (.test (hpredicate rfl rfl rfl)) .nil))))) .nil))

theorem remapped_search : search.Related (Predicate.Remapped orders) (searchBy "state") :=
  have hkeyword : "status" ≠ keywordField ∧ "state" ≠ keywordField := by decide
  have hmapped : orders.column? "status" = some "STATUS_CD" := rfl
  have hmapped' : orders.column? "state" = some "STATUS_CD" := rfl
  have hstatus : ∀ {operator : Option Operator} {value : Json},
      Predicate.Remapped orders ⟨"status", operator, value⟩ ⟨"state", operator, value⟩ :=
    ⟨rfl, rfl, .inr ⟨hkeyword.1, hkeyword.2, "STATUS_CD", hmapped, hmapped'⟩⟩
  .group (.cons (.test ⟨rfl, rfl, .inl rfl⟩) (.cons
    (.group (.cons (.test hstatus) (.cons (.test ⟨rfl, rfl, .inl rfl⟩)
      (.cons (.test hstatus) (.cons (.test ⟨rfl, rfl, .inl rfl⟩) .nil))))) .nil))

end Example

theorem searches_same_text :
    (∃ restriction other, Example.search.compile Example.orders {} = .ok restriction ∧
      Example.otherSearch.compile Example.orders {} = .ok other ∧
      restriction.sql = other.sql ∧ restriction.parameters.names = other.parameters.names ∧
      ∃ statement statement',
        Statement.bind .postgres restriction.sql restriction.parameters = .ok statement ∧
        Statement.bind .postgres other.sql other.parameters = .ok statement' ∧
        statement.sql = statement'.sql) ∧
    ∃ restriction other, Example.search.compile Example.orders {} = .ok restriction ∧
      (Example.searchBy "state").compile Example.orders {} = .ok other ∧
      other.sql = restriction.sql := by
  obtain ⟨halike, hlength, -⟩ :=
    statements_of_alike_filters Example.orders {} Example.search Example.otherSearch
  obtain ⟨-, -, hremapped⟩ :=
    statements_of_alike_filters Example.orders {} Example.search (Example.searchBy "state")
  have htext := (halike (Example.alikeInLength_search.mono fun _ _ h => h.toAlike)).1 "p"
  have hbind := (hlength Example.alikeInLength_search .postgres).1 Example.everyColumn_orders rfl
  obtain ⟨other, hother, hsql, hnames⟩ := htext.exists_of_ok rfl
  obtain ⟨same, hsame, hstatements⟩ := hbind.exists_of_ok rfl
  cases hother.symm.trans hsame
  obtain ⟨renamed, hrenamed, heq⟩ := hremapped Example.remapped_search "p" _ rfl
  exact ⟨⟨_, other, rfl, hother, hsql, hnames, hstatements⟩, _, renamed, rfl, hrenamed, heq⟩

end FilterSql
