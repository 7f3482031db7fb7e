import FilterSql.Proofs.Condition.Pattern
import FilterSql.Proofs.Query.Base
import FilterSql.Proofs.Statement.Literal

/-!
# Literals in page queries

The only literals that a page query adds to its base are those of escape clauses, one for
each column that is searched with escaping. So whether a store reads the statements as
they are meant depends on its dialect and on the searches in the filter.

Results:
* `Condition.escapeClauses_statement`: the escape clauses in what a condition is bound to.
* `Filter.escapedColumns_ne_nil_iff`: a compiled filter has an escape clause exactly when
  it searches and escaping is on.
* `pageQuery_completes_literals_iff`: when the literals of both statements of a page query
  are terminated, and when the scanner of templates and the store agree on them.
-/

namespace FilterSql

open Statement (ofFilled marks)
open Template (Separated)

/-! ## Specification -/

/-- A filter searches with escaping. -/
def EscapesSearch (config : Config) (filter : Option Filter) : Prop :=
  config.escapeWildcards = true ∧
    ∃ searching ∈ filter, ∃ predicate ∈ searching.predicates, predicate.IsSearch

namespace Condition

mutual

/-- The columns of a condition that are compared with an escaped pattern. -/
def escapedColumns : Condition → List String
  | .compare _ _ _ | .among _ _ | .range _ _ _ => []
  | .like columns escaped _ => if escaped then columns else []
  | .group _ children => childEscapedColumns children

/-- The columns of children that are compared with an escaped pattern. -/
def childEscapedColumns : List Condition → List String
  | [] => []
  | child :: rest => child.escapedColumns ++ childEscapedColumns rest

end

theorem escapedColumns_group (connective : Connective) (children : List Condition) :
    (group connective children).escapedColumns = children.flatMap escapedColumns := by
  rw [escapedColumns]
  induction children with
  | nil => rfl
  | cons child rest ih => rw [childEscapedColumns, ih, List.flatMap_cons]

end Condition

/-! ## Clauses in a statement -/

namespace Statement

/-- Filled pieces are written with a number of escape clauses, wherever their placeholders
are numbered from. -/
def WritesClauses (dialect : Dialect) (n : ℕ) (filled : List (Piece (List BoundValue))) : Prop :=
  ∀ before, EscapeClauses n (ofFilled dialect before filled).sql

namespace WritesClauses

variable {dialect : Dialect}

theorem nil : WritesClauses dialect 0 [] :=
  fun _ => .inert rfl

theorem append {m n : ℕ} {first second : List (Piece (List BoundValue))}
    (h : WritesClauses dialect m first) (h' : WritesClauses dialect n second) :
    WritesClauses dialect (m + n) (first ++ second) := by
  intro before
  rw [ofFilled_append]
  exact (h before).append (h' _)

theorem of_clauses {n : ℕ} {text : String} (h : EscapeClauses n text) :
    WritesClauses dialect n (verbatim text) := by
  intro before
  rw [ofFilled_verbatim]
  exact h

theorem slot (values : List BoundValue) : WritesClauses dialect 0 [.slot values] := by
  intro before
  rw [ofFilled_slot]
  exact .inert (all_isInert_marks dialect before values)

/-- Inert text in front of pieces adds no clause. -/
theorem inert_append {n : ℕ} {text : String} {filled : List (Piece (List BoundValue))}
    (htext : IsInertText text) (h : WritesClauses dialect n filled) :
    WritesClauses dialect n (verbatim text ++ filled) := by
  have hboth := append (of_clauses (.inert htext)) h
  rwa [Nat.zero_add] at hboth

/-- A placeholder in front of pieces adds no clause. -/
theorem slot_append {n : ℕ} (values : List BoundValue) {filled : List (Piece (List BoundValue))}
    (h : WritesClauses dialect n filled) : WritesClauses dialect n ([.slot values] ++ filled) := by
  have hboth := append (slot values) h
  rwa [Nat.zero_add] at hboth

end WritesClauses

end Statement

namespace Condition

open Statement (WritesClauses)

variable {dialect : Dialect}

theorem writesClauses_likeTemplate {column : String} (hcolumn : IsInertText column)
    (escaped : Bool) (pattern : Slot) :
    WritesClauses dialect (if escaped then 1 else 0)
      (likeTemplate Slot.boundValues column escaped pattern) := by
  refine .inert_append (hcolumn.append (by decide)) (.slot_append _ (.of_clauses ?_))
  cases escaped with
  | false => exact .inert rfl
  | true => exact .clause

theorem writesClauses_likeTemplates {columns : List String}
    (hcolumns : ∀ column ∈ columns, IsInertText column) (escaped : Bool) (pattern : Slot) :
    WritesClauses dialect (columns.length * if escaped then 1 else 0)
      (likeTemplates Slot.boundValues escaped pattern columns) := by
  induction columns with
  | nil =>
    rw [List.length_nil, Nat.zero_mul]
    exact .nil
  | cons column rest ih =>
    have hfirst : WritesClauses dialect _ (likeTemplate Slot.boundValues column escaped pattern) :=
      writesClauses_likeTemplate (hcolumns column List.mem_cons_self) escaped pattern
    cases rest with
    | nil => simpa [likeTemplates] using hfirst
    | cons second rest =>
      have hothers := ih fun other member => hcolumns other (List.mem_cons_of_mem _ member)
      rw [List.length_cons, Nat.succ_mul, Nat.add_comm, likeTemplates]
      · exact hfirst.append (.inert_append (by decide) hothers)
      · simp

theorem writesClauses_childTemplates {children : List Condition}
    (ih : ∀ child ∈ children,
      WritesClauses dialect child.escapedColumns.length (child.template Slot.boundValues))
    (connective : Connective) :
    WritesClauses dialect (childEscapedColumns children).length
      (childTemplates Slot.boundValues connective children) := by
  induction children with
  | nil => exact .nil
  | cons child rest ihrest =>
    have hothers := ihrest fun other member => ih other (List.mem_cons_of_mem _ member)
    have hopen : IsInertText (connective.joiner ++ "(") := by cases connective <;> decide
    rw [childEscapedColumns, List.length_append]
    exact .inert_append hopen ((ih child List.mem_cons_self).append
      (.inert_append (by decide) hothers))

/-- A condition is written with one escape clause for each escaped column. -/
theorem writesClauses_template {condition : Condition}
    (hcolumns : ∀ column ∈ condition.columns, IsInertText column) :
    WritesClauses dialect condition.escapedColumns.length
      (condition.template Slot.boundValues) := by
  induction condition using Condition.induct with
  | compare column relation operand =>
    have hcolumn : IsInertText column := hcolumns column (by simp [columns])
    exact .inert_append (((hcolumn.append (by decide)).append (isInertText_sign relation)).append
      (by decide)) (.slot _)
  | among column list =>
    have hcolumn : IsInertText column := hcolumns column (by simp [columns])
    exact .inert_append (hcolumn.append (by decide))
      (.slot_append _ (.of_clauses (.inert (by decide))))
  | range column low high =>
    have hcolumn : IsInertText column := hcolumns column (by simp [columns])
    exact .inert_append (hcolumn.append (by decide))
      (.slot_append _ (.inert_append (by decide) (.slot _)))
  | like columns escaped pattern =>
    have hlength : (like columns escaped pattern).escapedColumns.length =
        columns.length * if escaped then 1 else 0 := by
      cases escaped <;> simp [escapedColumns]
    rw [hlength]
    exact writesClauses_likeTemplates hcolumns escaped pattern
  | group connective children ih =>
    rw [columns] at hcolumns
    have hseed : IsInertText connective.seed := by cases connective <;> decide
    exact .inert_append hseed (writesClauses_childTemplates (fun child member =>
      ih child member fun column h => hcolumns column (mem_childColumns member h)) connective)

end Condition

/-! ## Escaped columns of a filter -/

section Filter

variable {schema : Schema} {config : Config} {stem : String}

theorem Predicate.escapedColumns_of_compiled {predicate : Predicate} {result : Option Condition}
    (h : predicate.Compiled schema config stem result) :
    result.toList.flatMap Condition.escapedColumns =
      if config.escapeWildcards then predicate.searchedColumns schema else [] := by
  by_cases search : predicate.IsSearch
  · rw [(eq_like_of_isSearch h search).2]
    simp [Condition.escapedColumns]
  · have hnone : result.toList.flatMap Condition.escapedColumns = [] := by
      cases h with
      | keyword set field => exact absurd ⟨set, .inl field⟩ search
      | contains set field mapped operator value =>
        exact absurd ⟨set, .inr ⟨operator, value⟩⟩ search
      | between field mapped operator value short single =>
        cases hresult : rangeCondition? _ stem _ with
        | none => rfl
        | some condition =>
          obtain ⟨_, _, rfl⟩ | ⟨_, _, rfl⟩ := exists_of_rangeCondition? hresult
          · simp [Condition.escapedColumns]
          · simp [Condition.escapedColumns]
      | _ => simp [Condition.escapedColumns]
    rw [hnone, searchedColumns, if_neg search, ite_self]

/-- A compiled filter has an escape clause exactly when it searches and escaping is on. -/
theorem Filter.escapedColumns_ne_nil_iff {filter : Filter} {result : Option Condition}
    (h : filter.condition? schema config stem = .ok result) :
    result.toList.flatMap Condition.escapedColumns ≠ [] ↔ EscapesSearch config (some filter) := by
  rw [flatMap_condition? Predicate.escapedColumns_of_compiled Condition.escapedColumns_group h]
  constructor
  · intro hsome
    obtain ⟨column, hcolumn⟩ := List.exists_mem_of_ne_nil _ hsome
    obtain ⟨predicate, member, hcolumn⟩ := List.mem_flatMap.mp hcolumn
    split_ifs at hcolumn with escaping
    · refine ⟨escaping, filter, rfl, predicate, member, ?_⟩
      by_contra search
      rw [Predicate.searchedColumns, if_neg search] at hcolumn
      cases hcolumn
    · cases hcolumn
  · rintro ⟨escaping, _, ⟨⟩, predicate, member, search⟩ hnone
    obtain ⟨_, _, hcompiled⟩ := exists_compiled h predicate member
    refine (Predicate.eq_like_of_isSearch hcompiled search).1 ?_
    have := List.flatMap_eq_nil_iff.mp hnone predicate member
    rwa [if_pos escaping] at this

end Filter

/-! ## Both statements of a page query -/

variable {schema : Schema} {config : Config} {table : String} {filter : Option Filter}
variable {sort : List SortEntry} {baseParameters : Parameters} {query : PageQuery}

/-- Inert text around a template that can be bound adds no escape clause. -/
theorem EscapeClauses.exists_bind_enclosed {n : ℕ} {dialect : Dialect} {parameters : Parameters}
    {head middle tail : String} {source : Statement} (h : EscapeClauses n source.sql)
    (hbind : Statement.bind dialect middle parameters = .ok source) (hhead : IsInertText head)
    (htail : IsInertText tail) (hsep : Separated tail.toList) :
    ∃ statement, Statement.bind dialect (head ++ middle ++ tail) parameters = .ok statement ∧
      EscapeClauses n statement.sql := by
  have hcolon : ':' ∉ tail.toList := fun member =>
    absurd (List.all_eq_true.mp htail _ member) (by decide)
  rw [Statement.bind_enclosed hhead middle hsep hcolon, hbind]
  exact ⟨_, rfl, h.enclosed hhead htail⟩

/-- The clause of a filter can be bound. What it is bound to has escape clauses exactly when
the filter searches with escaping. -/
theorem Restriction.exists_clauses {restriction : Restriction}
    (columns : schema.EveryColumn IsInertText) (valid : config.check = .ok ())
    (h : Restriction.ofFilter? schema config filter = .ok restriction) (dialect : Dialect) :
    ∃ n statement,
      Statement.bind dialect restriction.clause restriction.parameters = .ok statement ∧
      EscapeClauses n statement.sql ∧ (n ≠ 0 ↔ EscapesSearch config filter) := by
  cases filter with
  | none =>
    cases h
    exact ⟨0, ⟨"", []⟩, rfl, .inert rfl, fun hzero => absurd rfl hzero, by rintro ⟨_, _, ⟨⟩, _⟩⟩
  | some filter =>
    obtain ⟨result, hcondition, rfl⟩ := Filter.compileAt_eq_ok_iff.mp h
    have hsearches := Filter.escapedColumns_ne_nil_iff hcondition
    cases result with
    | none => exact ⟨0, ⟨"", []⟩, rfl, .inert rfl, by simpa using hsearches⟩
    | some condition =>
      rw [Option.toList_some, List.flatMap_singleton, ← List.length_pos_iff,
        Nat.pos_iff_ne_zero] at hsearches
      have hclauses : EscapeClauses _ (condition.statement dialect 0).sql :=
        Condition.writesClauses_template (Filter.columns_condition? columns hcondition) 0
      have hbind := Filter.bind_condition columns (Config.check_eq_ok_iff.mp valid) hcondition
        dialect
      refine ⟨condition.escapedColumns.length, ?_⟩
      cases constrained : (Restriction.of (some condition)).isEmpty with
      | true =>
        have htext : condition.text = "" := String.isEmpty_iff.mp constrained
        have hnothing : condition.statement dialect 0 = ⟨"", []⟩ := by
          rw [htext] at hbind
          exact (Except.ok.inj hbind).symm
        rw [Restriction.clause, if_pos constrained]
        rw [hnothing] at hclauses
        exact ⟨_, rfl, hclauses, hsearches⟩
      | false =>
        have hclosing : Separated ")".toList := by
          intro c hc
          cases hc
          rfl
        rw [Restriction.clause_of_constrained constrained]
        obtain ⟨statement, hstatement, hclauses⟩ := hclauses.exists_bind_enclosed hbind
          (show IsInertText " WHERE 1=1 AND (" by decide) (show IsInertText ")" by decide) hclosing
        exact ⟨statement, hstatement, hclauses, hsearches⟩

/-- **When literals are complete.** Let no column and no part of the name of the table contain
a quote, a colon, a hyphen or a slash, let the configuration be valid, and let a page query be
made. Then both of its statements can be bound, in every dialect and for every page. All their
literals are terminated, and the scanner of templates and the store agree on what is inside
quotes, exactly when it is not the case that MySQL reads a search with escaping. -/
theorem pageQuery_completes_literals_iff (columns : schema.EveryColumn IsInertText)
    (valid : config.check = .ok ()) (plain : IsInertText table)
    (compiled : PageQuery.compile schema config table filter sort baseParameters = .ok query)
    (page size : UInt64) (dialect : Dialect) :
    ∃ count rows, Statement.bind dialect query.countSql query.parameters = .ok count ∧
      Statement.bind dialect (query.resultSql ++ (RowCut.ofPage page size).clause)
        query.parameters = .ok rows ∧
      ∀ statement ∈ [count, rows],
        (dialect.CompletesLiterals statement.sql ↔
          ¬(dialect = .mysql ∧ EscapesSearch config filter)) ∧
        (dialect.SharesQuotes statement.sql ↔
          ¬(dialect = .mysql ∧ EscapesSearch config filter)) := by
  obtain ⟨restriction, parameters, order, hrestriction, hmerge, horder, rfl⟩ :=
    PageQuery.compile_eq_ok_iff.mp compiled
  obtain ⟨n, source, hbind, hclauses, hsearches⟩ :=
    Restriction.exists_clauses columns valid hrestriction dialect
  have hmerged : Statement.bind dialect restriction.clause parameters = .ok source :=
    Statement.bind_mono hbind fun _ _ => Parameters.get?_left_of_merge hmerge
  -- Behind the clause of the filter stand the order clause and the cut, which are inert.
  have horderInert : IsInertText order := all_orderClause (by decide)
    (fun entry _ column => columns.mapped entry.field column) horder
  have hcutInert : IsInertText (RowCut.ofPage page size).clause :=
    RowCut.all_clause (by decide) (fun _ => Template.isInert_of_isDigit) _
  have hsep : Separated (order ++ (RowCut.ofPage page size).clause).toList := by
    rw [String.toList_append]
    exact (separated_orderClause horder).append (RowCut.separated_clause _)
  have hcountHead : IsInertText ("SELECT count(*) AS cnt FROM " ++ table) :=
    IsInertText.append (by decide) plain
  have hrowsHead : IsInertText ("SELECT * FROM " ++ table) := IsInertText.append (by decide) plain
  obtain ⟨count, hcount, hcountClauses⟩ := hclauses.exists_bind_enclosed hmerged hcountHead
    (show IsInertText "" by decide) nofun
  obtain ⟨rows, hrows, hrowsClauses⟩ := hclauses.exists_bind_enclosed hmerged hrowsHead
    (horderInert.append hcutInert) hsep
  rw [String.append_empty] at hcount
  rw [← String.append_assoc] at hrows
  refine ⟨count, rows, hcount, hrows, ?_⟩
  rw [List.forall_mem_cons, List.forall_mem_singleton, ← hsearches]
  exact ⟨⟨hcountClauses.completesLiterals_iff dialect, hcountClauses.sharesQuotes_iff dialect⟩,
    hrowsClauses.completesLiterals_iff dialect, hrowsClauses.sharesQuotes_iff dialect⟩

/-- With two escape clauses, the literals of both statements are complete in PostgreSQL. In
MySQL the second clause closes the literal of the first one, and opens another. -/
theorem search_completes_literals_in_postgres :
    ∃ query, PageQuery.compile Example.orders { escapeWildcards := true } "ORDERS"
        (some Example.search) [⟨"amount", .descending⟩] .empty = .ok query ∧
      (∃ count rows, Statement.bind .postgres query.countSql query.parameters = .ok count ∧
        Statement.bind .postgres (query.resultSql ++ " LIMIT 3 OFFSET 6") query.parameters =
          .ok rows ∧
        Dialect.postgres.CompletesLiterals count.sql ∧
        Dialect.postgres.SharesQuotes rows.sql) ∧
      ∃ count rows, Statement.bind .mysql query.countSql query.parameters = .ok count ∧
        Statement.bind .mysql (query.resultSql ++ " LIMIT 3 OFFSET 6") query.parameters =
          .ok rows ∧
        ¬ Dialect.mysql.CompletesLiterals count.sql ∧ ¬ Dialect.mysql.SharesQuotes rows.sql := by
  have plain : IsInertText "ORDERS" := by decide
  have escapes : EscapesSearch { escapeWildcards := true } (some Example.search) :=
    ⟨rfl, Example.search, rfl, _, List.mem_cons_self, by decide⟩
  have compiled : PageQuery.compile Example.orders { escapeWildcards := true } "ORDERS"
      (some Example.search) [⟨"amount", .descending⟩] .empty = .ok _ := rfl
  obtain ⟨count, rows, hcount, hrows, hcomplete⟩ :=
    pageQuery_completes_literals_iff Example.everyColumn_orders rfl plain compiled 2 3 .postgres
  obtain ⟨count', rows', hcount', hrows', hbroken⟩ :=
    pageQuery_completes_literals_iff Example.everyColumn_orders rfl plain compiled 2 3 .mysql
  have hsafe : ¬(Dialect.postgres = .mysql ∧ EscapesSearch { escapeWildcards := true }
      (some Example.search)) := nofun
  refine ⟨_, rfl, ⟨count, rows, hcount, hrows, ?_, ?_⟩, count', rows', hcount', hrows', ?_, ?_⟩
  · exact (hcomplete count List.mem_cons_self).1.mpr hsafe
  · exact (hcomplete rows (List.mem_cons_of_mem _ List.mem_cons_self)).2.mpr hsafe
  · exact mt (hbroken count' List.mem_cons_self).1.mp (not_not_intro ⟨rfl, escapes⟩)
  · exact mt (hbroken rows' (List.mem_cons_of_mem _ List.mem_cons_self)).2.mp
      (not_not_intro ⟨rfl, escapes⟩)

/-- A search for one column, as MySQL reads it: the quote that should end the literal is
a part of it. -/
theorem mysql_leaves_literal_open :
    ∃ query count, PageQuery.compile Example.orders { escapeWildcards := true } "ORDERS"
        (some (.contains "name" (.string "50%"))) [] .empty = .ok query ∧
      Statement.bind .mysql query.countSql query.parameters = .ok count ∧
      count.sql = "SELECT count(*) AS cnt FROM ORDERS WHERE 1=1 AND (NAME LIKE ? ESCAPE '\\')" ∧
      ¬ Dialect.mysql.CompletesLiterals count.sql := by
  refine ⟨_, _, rfl, rfl, rfl, ?_⟩
  intro complete
  have hplace : LiteralPlace.inside '\x27' = .outside := complete
  cases hplace

end FilterSql
