import FilterSql.Query.Page
import FilterSql.Proofs.Condition.Alike
import FilterSql.Proofs.Query.OrderBy
import FilterSql.Proofs.Statement.Filling

/-!
# The source of the rows of a page query

The statement that counts and the statement that returns rows are read one after the
other, each from its own beginning. What they have in common is the base and the clause
of the filter; what differs is inert text before it, and an order clause and a cut behind
it. So both are bound as the common part is bound on its own, also if the base leaves a
quote or a comment open.

Results:
* `PageQuery.compile_eq_ok_iff`: what a page query is made of.
* `bind_pageQuery_from_one_source`: both statements fail with the same error, or they
  have the same values and select from the same text.
-/

namespace FilterSql

open Template (Separated)

/-- A page query is made of the restriction of the filter, the parameters of the filter
and of the base, and the clause of the sort list. -/
theorem PageQuery.compile_eq_ok_iff {schema : Schema} {config : Config} {base : String}
    {filter : Option Filter} {sort : List SortEntry} {baseParameters : Parameters}
    {query : PageQuery} :
    PageQuery.compile schema config base filter sort baseParameters = .ok query ↔
      ∃ restriction parameters order,
        Restriction.ofFilter? schema config filter = .ok restriction ∧
        restriction.parameters.merge baseParameters = .ok parameters ∧
        orderClause schema sort = .ok order ∧
        query = ⟨"SELECT count(*) AS cnt FROM " ++ base ++ restriction.clause,
          "SELECT * FROM " ++ base ++ restriction.clause ++ order, parameters⟩ := by
  rw [PageQuery.compile, bind_eq_ok_iff]
  constructor
  · rintro ⟨restriction, hrestriction, h⟩
    obtain ⟨parameters, hparameters, h⟩ := bind_eq_ok_iff.mp h
    obtain ⟨order, horder, h⟩ := bind_eq_ok_iff.mp h
    cases h
    exact ⟨restriction, parameters, order, hrestriction, hparameters, horder, rfl⟩
  · rintro ⟨restriction, parameters, order, hrestriction, hparameters, horder, rfl⟩
    refine ⟨restriction, hrestriction, bind_eq_ok_iff.mpr ⟨parameters, hparameters, ?_⟩⟩
    rw [horder]
    rfl

/-! ## What stands behind the source -/

theorem Template.Separated.append {first second : List Char} (h : Separated first)
    (h' : Separated second) : Separated (first ++ second) := by
  cases first with
  | nil => exact h'
  | cons c rest => exact h

theorem separated_orderClause {schema : Schema} {sort : List SortEntry} {order : String}
    (h : orderClause schema sort = .ok order) : Separated order.toList := by
  obtain ⟨terms, _, rfl⟩ := orderClause_eq_ok_iff.mp h
  split_ifs
  · intro c hc
    cases hc
  · intro c hc
    rw [String.toList_append] at hc
    cases hc
    rfl

theorem RowCut.separated_clause (cut : RowCut) : Separated cut.clause.toList := by
  unfold RowCut.clause
  cases cut.limit with
  | none =>
    intro c hc
    cases hc
  | some limit =>
    intro c hc
    simp only [String.toList_append] at hc
    cases hc
    rfl

/-- What holds of the characters of the words and of all digits holds of all characters
of the text of a cut. -/
theorem RowCut.all_clause {P : Char → Bool} (hwords : " LIMIT  OFFSET ".toList.all P = true)
    (hdigits : ∀ c, c.isDigit = true → P c = true) (cut : RowCut) :
    cut.clause.toList.all P = true := by
  unfold RowCut.clause
  cases cut.limit with
  | none => rfl
  | some limit =>
    have hlead : " LIMIT ".toList.all P = true ∧ " OFFSET ".toList.all P = true := by
      rw [show " LIMIT  OFFSET ".toList = " LIMIT ".toList ++ " OFFSET ".toList by rfl,
        List.all_append, Bool.and_eq_true] at hwords
      exact hwords
    simp only [String.toList_append, List.all_append, Bool.and_eq_true]
    exact ⟨⟨⟨hlead.1, all_toString hdigits limit⟩, hlead.2⟩, all_toString hdigits cut.offset⟩

/-! ## Both statements -/

/-- **One source for both statements.** Let no column of the sort list contain a colon,
and let a page query be made, over any base. Then binding the statement that counts and
binding the statement that is cut to a page either fail with the same error, or succeed
with the same values; and then there is one text that both select from, behind which
the order clause and the cut stand as they were written. -/
theorem bind_pageQuery_from_one_source {schema : Schema} {config : Config} {base : String}
    {filter : Option Filter} {sort : List SortEntry} {baseParameters : Parameters}
    {query : PageQuery}
    (columns : ∀ entry ∈ sort, ∀ column, schema.column? entry.field = some column →
      ':' ∉ column.toList)
    (compiled : PageQuery.compile schema config base filter sort baseParameters = .ok query)
    (page size : UInt64) (dialect : Dialect) :
    ∃ order, orderClause schema sort = .ok order ∧
      Agree Eq (fun count rows : Statement => count.values = rows.values ∧
          ∃ source, count.sql = "SELECT count(*) AS cnt FROM " ++ source ∧
            rows.sql = "SELECT * FROM " ++ source ++
              (order ++ (RowCut.ofPage page size).clause))
        (Statement.bind dialect query.countSql query.parameters)
        (Statement.bind dialect (query.resultSql ++ (RowCut.ofPage page size).clause)
          query.parameters) := by
  obtain ⟨restriction, parameters, order, _, _, horder, rfl⟩ :=
    PageQuery.compile_eq_ok_iff.mp compiled
  refine ⟨order, horder, ?_⟩
  have hcolumns : ∀ entry ∈ sort, ∀ column, schema.column? entry.field = some column →
      column.toList.all (· != ':') = true := by
    intro entry member column hcolumn
    rw [List.all_eq_true]
    intro c hc
    rw [bne_iff_ne]
    rintro rfl
    exact columns entry member column hcolumn hc
  have htail : ':' ∉ (order ++ (RowCut.ofPage page size).clause).toList := by
    apply not_mem_of_all_ne
    rw [String.toList_append, List.all_append, Bool.and_eq_true]
    constructor
    · exact all_orderClause (by decide) hcolumns horder
    · refine RowCut.all_clause (by decide) ?_ _
      intro c hc
      rw [bne_iff_ne]
      rintro rfl
      revert hc
      decide
  have hsep : Separated (order ++ (RowCut.ofPage page size).clause).toList := by
    rw [String.toList_append]
    exact (separated_orderClause horder).append (RowCut.separated_clause _)
  -- Both statements are the common part with something around it.
  have hcountHead : "SELECT count(*) AS cnt FROM ".toList.all Template.isInert = true := by decide
  have hrowsHead : "SELECT * FROM ".toList.all Template.isInert = true := by decide
  have hnothing : Separated "".toList ∧ ':' ∉ "".toList := by simp [Separated]
  have hcount := Statement.bind_enclosed hcountHead (base ++ restriction.clause) hnothing.1
    hnothing.2 dialect parameters
  have hrows := Statement.bind_enclosed hrowsHead (base ++ restriction.clause) hsep htail
    dialect parameters
  simp only [String.append_empty] at hcount
  simp only [String.append_assoc] at hcount hrows ⊢
  rw [hcount, hrows]
  cases Statement.bind dialect (base ++ restriction.clause) parameters with
  | error e => exact .error rfl
  | ok source => exact .ok ⟨rfl, source.sql, rfl, rfl⟩

/-- A base that ends in a comment takes the clause of the filter into the comment, in
both statements alike. -/
theorem bind_open_comment :
    ∃ query, PageQuery.compile Example.orders {} "T, (:ids) t --"
        (some (.equals "status" (.string "A"))) [⟨"amount", .descending⟩]
        (.ofList [("ids", .array [.bool true, .null])]) = .ok query ∧
      ∃ count rows, Statement.bind .postgres query.countSql query.parameters = .ok count ∧
        Statement.bind .postgres (query.resultSql ++ " LIMIT 3 OFFSET 6") query.parameters =
          .ok rows ∧
        count.values = [.bool true, .string none] ∧ count.values = rows.values ∧
        ∃ source, count.sql = "SELECT count(*) AS cnt FROM " ++ source ∧
          rows.sql = "SELECT * FROM " ++ source ++ " ORDER BY AMOUNT DESC LIMIT 3 OFFSET 6" := by
  have columns : ∀ entry ∈ [(⟨"amount", .descending⟩ : SortEntry)], ∀ column,
      Example.orders.column? entry.field = some column → ':' ∉ column.toList := by
    intro entry member column hcolumn
    rw [List.mem_singleton.mp member] at hcolumn
    have hmapped : some "AMOUNT" = some column := hcolumn
    cases hmapped
    decide
  obtain ⟨order, horder, hagree⟩ := bind_pageQuery_from_one_source columns
    (show PageQuery.compile Example.orders {} "T, (:ids) t --"
      (some (.equals "status" (.string "A"))) [⟨"amount", .descending⟩]
      (.ofList [("ids", .array [.bool true, .null])]) = .ok _ from rfl) 2 3 .postgres
  cases horder
  obtain ⟨rows, hrows, hvalues, hsource⟩ := hagree.exists_of_ok rfl
  exact ⟨_, rfl, _, rows, rfl, hrows, rfl, hvalues, hsource⟩

end FilterSql
