import FilterSql.Query.Page
import FilterSql.Proofs.Condition.Compiled
import FilterSql.Proofs.Statement.Pieces

/-!
# Order clauses, read backwards

What a sort list is made of when it has an order clause, and which characters the clause
can hold.

Results:
* `orderClause_eq_ok_iff`: there is a clause exactly when every entry has a column and a
  known direction, and it lists them in order.
* `all_orderClause`: what holds of the characters of all columns, and of those of the
  words of a clause, holds of all characters of the clause.
-/

namespace FilterSql

/-! ## Entries and clauses -/

theorem SortEntry.term_eq_ok_iff {schema : Schema} {entry : SortEntry} {term : String} :
    entry.term schema = .ok term ↔
      ∃ column direction, schema.column? entry.field = some column ∧
        entry.direction.keyword = .ok direction ∧ term = column ++ " " ++ direction := by
  rw [SortEntry.term, bind_eq_ok_iff]
  constructor
  · rintro ⟨column, hcolumn, h⟩
    obtain ⟨direction, hdirection, h⟩ := bind_eq_ok_iff.mp h
    cases h
    exact ⟨column, direction, Schema.resolve_eq_ok_iff.mp hcolumn, hdirection, rfl⟩
  · rintro ⟨column, direction, hcolumn, hdirection, rfl⟩
    refine ⟨column, Schema.resolve_eq_ok_iff.mpr hcolumn, ?_⟩
    rw [hdirection]
    rfl

/-- There is a clause exactly when every entry has a column and a known direction. -/
theorem orderClause_eq_ok_iff {schema : Schema} {sort : List SortEntry} {order : String} :
    orderClause schema sort = .ok order ↔
      ∃ terms, List.Forall₂ (fun entry term => entry.term schema = .ok term) sort terms ∧
        order = if terms = [] then "" else " ORDER BY " ++ ", ".intercalate terms := by
  rw [orderClause, bind_eq_ok_iff]
  constructor
  · rintro ⟨terms, hterms, h⟩
    refine ⟨terms, mapM_eq_ok_iff.mp hterms, ?_⟩
    cases terms <;> cases h <;> rfl
  · rintro ⟨terms, hterms, rfl⟩
    refine ⟨terms, mapM_eq_ok_iff.mpr hterms, ?_⟩
    cases terms <;> rfl

/-! ## Characters of a clause -/

/-- The words of order clauses. -/
def orderWords : String := " ORDER BY , ASC DESC"

section Words

variable {P : Char → Bool} (hwords : orderWords.toList.all P = true)
include hwords

theorem all_of_subset_orderWords {word : String}
    (h : word.toList.all orderWords.toList.contains = true) : word.toList.all P = true := by
  rw [List.all_eq_true] at h hwords ⊢
  intro c hc
  exact hwords c (List.contains_iff_mem.mp (h c hc))

theorem all_keyword {direction : Direction} {keyword : String}
    (h : direction.keyword = .ok keyword) : keyword.toList.all P = true := by
  cases direction with
  | ascending =>
    cases h
    exact all_of_subset_orderWords hwords (by decide)
  | descending =>
    cases h
    exact all_of_subset_orderWords hwords (by decide)
  | unknown word => cases h

theorem all_term {schema : Schema} {entry : SortEntry} {term : String}
    (hcolumn : ∀ column, schema.column? entry.field = some column → column.toList.all P = true)
    (h : entry.term schema = .ok term) : term.toList.all P = true := by
  obtain ⟨column, keyword, hmapped, hkeyword, rfl⟩ := SortEntry.term_eq_ok_iff.mp h
  have hspace : " ".toList.all P = true := all_of_subset_orderWords hwords (by decide)
  simp only [String.toList_append, List.all_append, Bool.and_eq_true]
  exact ⟨⟨hcolumn column hmapped, hspace⟩, all_keyword hwords hkeyword⟩

/-- What holds of the characters of all columns and of the words holds of all characters
of a clause. -/
theorem all_orderClause {schema : Schema} {sort : List SortEntry} {order : String}
    (hcolumns : ∀ entry ∈ sort, ∀ column, schema.column? entry.field = some column →
      column.toList.all P = true)
    (h : orderClause schema sort = .ok order) : order.toList.all P = true := by
  obtain ⟨terms, hterms, rfl⟩ := orderClause_eq_ok_iff.mp h
  have hparts : ∀ term ∈ terms, term.toList.all P = true := by
    clear h
    induction hterms with
    | nil =>
      intro term member
      cases member
    | cons hfirst _ ih =>
      intro term member
      rcases List.mem_cons.mp member with rfl | member
      · exact all_term hwords (hcolumns _ List.mem_cons_self) hfirst
      · exact ih (fun entry hentry => hcolumns entry (List.mem_cons_of_mem _ hentry)) term member
  split_ifs
  · rfl
  · have hlead : " ORDER BY ".toList.all P = true := all_of_subset_orderWords hwords (by decide)
    have hcomma : ", ".toList.all P = true := all_of_subset_orderWords hwords (by decide)
    rw [String.toList_append, List.all_append, hlead, all_intercalate hcomma hparts]
    rfl

end Words

end FilterSql
