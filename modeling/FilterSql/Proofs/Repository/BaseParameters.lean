import FilterSql.Repository
import FilterSql.Proofs.Query.Base
import FilterSql.Proofs.Query.Fetch

/-!
# Parameters that a base lacks

A base names parameters, and their values are given next to it. The operands of the filter
are bound in the same set of parameters, under generated names, and a conflict is looked
for among the names that have a value only. So a name of the base without a value is
reported before anything is sent, unless it happens to be the name of an operand: then the
base is bound to what the client has sent.

Results:
* `rowsFrom_reports_missing_iff`: when a name of the base without a value is reported.
* `rowsFrom_takes_operand`: a base that is bound to the operand of a filter.
-/

namespace FilterSql

open Session (runOn)

/-- **A missing parameter of a base.** Let a page query be made over a base. A name of the
base that the parameters of the base do not bind is reported, and nothing is sent, exactly
when one such name is not the name of an operand of the filter. -/
theorem rowsFrom_reports_missing_iff {α : Type} {repository : Repository α}
    {request : PageRequest} {base : String} {baseParameters : Parameters} {query : PageQuery}
    (assembled : repository.pageQuery request base baseParameters = .ok query)
    (connection : Connection) :
    (∃ name, .slot name ∈ Template.pieces base ∧ baseParameters.contains name = false ∧
      runOn (repository.rowsFrom request base baseParameters) connection =
        (.error (.storeFailure "count query failed" (.unboundParameter name)), connection)) ↔
    ∃ name, .slot name ∈ Template.pieces base ∧ baseParameters.contains name = false ∧
      name ∉ operandNames repository.config request.filter := by
  have hvalue := PageQuery.get?_eq_none_iff assembled
  have hrun : runOn (repository.rowsFrom request base baseParameters) connection =
      runOn (query.fetch repository.entity.decode request.page request.size) connection := by
    apply Session.runOn_bind_of_ok
    rw [assembled, Session.runOn_liftM]
  rw [hrun]
  constructor
  · rintro ⟨name, member, missing, hfail⟩
    refine ⟨name, member, missing, ?_⟩
    cases hbind : Statement.bind connection.dialect query.countSql query.parameters with
    | error e =>
      obtain ⟨other, _, hnone, rfl⟩ := Statement.exists_unbound_of_bind hbind
      rw [PageQuery.runOn_fetch_of_unbound hbind] at hfail
      cases hfail
      exact ((hvalue name).mp hnone).2
    | ok statement =>
      -- The bound count statement would be in the log.
      have hsent := PageQuery.log_fetch_of_bound hbind repository.entity.decode request.page
        request.size
      rw [hfail] at hsent
      have hlength := hsent.length_le
      rw [List.length_append, List.length_singleton] at hlength
      exact absurd hlength (Nat.not_succ_le_self _)
  · rintro ⟨name, member, missing, hforeign⟩
    have hnone := (hvalue name).mpr ⟨missing, hforeign⟩
    obtain ⟨other, hother, hunbound, hbind⟩ :=
      exists_unbound_in_base assembled member hnone connection.dialect
    exact ⟨other, hother, ((hvalue other).mp hunbound).1,
      PageQuery.runOn_fetch_of_unbound hbind _ _ _⟩

namespace Example

/-- The repository of a table of codes. -/
def codes : Repository String where
  entity := {
    table := "CODES"
    catalog := some ""
    columns := [{ field := "code", column := some "CODE" }]
    decode := fun row => row.text "CODE" }

/-- A request for the rows with one code. -/
def oneCode : PageRequest where
  filter := some (.equals "code" (.string "A"))

/-- A connection that finds one row. -/
def oneRow : Connection where
  dialect := .sqlite
  queries := [.ok [[("cnt", .bigInt 1)]], .ok [[("CODE", .string (some "A"))]]]

end Example

/-- A name that no operand has is reported. -/
theorem rowsFrom_reports_owner :
    (∃ query, Example.codes.pageQuery Example.oneCode "(SELECT :owner) t" .empty = .ok query) ∧
      runOn (Example.codes.rowsFrom Example.oneCode "(SELECT :owner) t" .empty) Example.oneRow =
        (.error (.storeFailure "count query failed" (.unboundParameter "owner")),
          Example.oneRow) := by
  have hpieces : Template.pieces "(SELECT :owner) t" =
      verbatim "(SELECT " ++ ([.slot "owner"] ++ verbatim ") t") := rfl
  have hmissing : ∀ name, Parameters.empty.contains name = false := by
    intro name
    rw [Parameters.contains_eq_isSome, Parameters.get?_empty]
    rfl
  obtain ⟨name, member, _, hreport⟩ :=
    (rowsFrom_reports_missing_iff
      (show Example.codes.pageQuery Example.oneCode "(SELECT :owner) t" .empty = .ok _ from rfl)
      Example.oneRow).mpr ⟨"owner", by simp [hpieces], hmissing _, by decide⟩
  have hname : name = "owner" := by
    rw [hpieces] at member
    simpa [verbatim] using member
  rw [hname] at hreport
  exact ⟨⟨_, rfl⟩, hreport⟩

/-- A name of the base that the parameters of the base do not bind, and that an operand
of the filter has: both statements are sent, with the operand in the place of the missing
value. -/
theorem rowsFrom_takes_operand :
    .slot "p__0" ∈ Template.pieces "(SELECT :p__0) t" ∧
      Parameters.empty.contains "p__0" = false ∧
      runOn (Example.codes.rowsFrom Example.oneCode "(SELECT :p__0) t" .empty) Example.oneRow =
        (.ok ⟨1, ["A"]⟩, { dialect := .sqlite, log := [
          ⟨.queryOne, "SELECT count(*) AS cnt FROM (SELECT ?) t WHERE 1=1 AND (CODE = ?)",
            [.string (some "A"), .string (some "A")]⟩,
          ⟨.queryAll, "SELECT * FROM (SELECT ?) t WHERE 1=1 AND (CODE = ?)",
            [.string (some "A"), .string (some "A")]⟩] }) := by
  have hpieces : Template.pieces "(SELECT :p__0) t" =
      verbatim "(SELECT " ++ ([.slot "p__0"] ++ verbatim ") t") := rfl
  refine ⟨?_, rfl, rfl⟩
  rw [hpieces]
  exact List.mem_append_right _ (List.mem_append_left _ (List.mem_singleton.mpr rfl))

end FilterSql
