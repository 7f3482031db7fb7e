import FilterSql.Proofs.Condition.Positional
import FilterSql.Proofs.Query.Source

/-!
# Base and filter side by side

A page query sets the clause of a filter behind a base, and binds both from one set of
parameters. When the base ends outside of quotes and comments, each of the two is read as
if it stood alone, and each finds its own parameters; only the placeholders of the filter
are numbered on from those of the base.

Results:
* `bind_base_beside_filter`: the statement that counts, from the base and the filter
  bound on their own.
* `PageQuery.get?_eq_none_iff`: the names without a value.
* `exists_unbound_in_base`: a name of the base without a value is reported, whatever
  stands behind the base.
-/

namespace FilterSql

open Template (Spells Separated)
open Statement (Fills textWith valuesOf ofFilled)

variable {schema : Schema} {config : Config} {base : String} {sort : List SortEntry}
variable {baseParameters : Parameters} {query : PageQuery}

theorem Restriction.clause_of_constrained {restriction : Restriction}
    (constrained : restriction.isEmpty = false) :
    restriction.clause = " WHERE 1=1 AND (" ++ restriction.sql ++ ")" := by
  rw [Restriction.clause, constrained]
  rfl

theorem Restriction.separated_clause (restriction : Restriction) :
    Separated restriction.clause.toList := by
  unfold Restriction.clause
  split_ifs
  · intro c hc
    cases hc
  · intro c hc
    simp only [String.toList_append] at hc
    cases hc
    rfl

/-! ## A filter behind a base -/

/-- A restriction that has been compiled has the pieces of its condition, and its
parameters fill them. -/
theorem Filter.exists_spells_fills {filter : Filter} {restriction : Restriction}
    (columns : schema.EveryColumn IsInertText) (valid : config.check = .ok ())
    (compiled : filter.compile schema config = .ok restriction)
    (constrained : restriction.isEmpty = false) :
    ∃ pieces filled, Spells restriction.sql.toList pieces ∧
      Fills restriction.parameters pieces filled := by
  obtain ⟨result, hcondition, rfl⟩ := Filter.compileAt_eq_ok_iff.mp compiled
  cases result with
  | none => cases constrained
  | some condition =>
    have hstem := Config.check_eq_ok_iff.mp valid
    refine ⟨condition.template Slot.name, condition.template Slot.boundValues,
      Condition.spells_text (Filter.columns_condition? columns hcondition)
        (Filter.isIdentifier_slots_condition hstem hcondition), ?_⟩
    exact Condition.fills_template fun _ member => Filter.get?_slots_condition hcondition member

/-- A closed base and a clause behind it have the pieces that they have on their own. -/
theorem spells_countSql {text : String} {pieces : List (Piece String)}
    (closed : (Template.scan .plain base.toList).2.IsOpen) (h : Spells text.toList pieces) :
    Spells ("SELECT count(*) AS cnt FROM " ++ (base ++ (" WHERE 1=1 AND (" ++ (text ++ ")")))).toList
      (verbatim "SELECT count(*) AS cnt FROM " ++ (Template.pieces base ++
        (verbatim " WHERE 1=1 AND (" ++ (pieces ++ verbatim ")")))) := by
  have hbase : Spells base.toList (Template.pieces base) := ⟨rfl, closed⟩
  have hclosing : Separated ")".toList := by
    intro c hc
    cases hc
    rfl
  have htext : Spells (text ++ ")").toList (pieces ++ verbatim ")") := by
    rw [String.toList_append]
    exact h.append hclosing (Condition.spells_inert (by decide))
  have hclause : Spells (" WHERE 1=1 AND (" ++ (text ++ ")")).toList
      (verbatim " WHERE 1=1 AND (" ++ (pieces ++ verbatim ")")) :=
    Condition.spells_inert_append (by decide) htext
  apply Condition.spells_inert_append (by decide)
  rw [String.toList_append]
  exact hbase.append (Condition.separated_append _ _ rfl rfl) hclause

/-- The statement of two filled parts with text around them: the second part is numbered
on from the first. -/
theorem ofFilled_two_parts (dialect : Dialect) (head between tail : String)
    (first second : List (Piece (List BoundValue))) :
    ofFilled dialect 0
        (verbatim head ++ (first ++ (verbatim between ++ (second ++ verbatim tail)))) =
      ⟨head ++ (ofFilled dialect 0 first).sql ++ between ++
          textWith (fun number => dialect.mark ((valuesOf first).length + number)) second ++ tail,
        valuesOf first ++ valuesOf second⟩ := by
  simp only [Statement.ofFilled_append, Statement.ofFilled_verbatim, Statement.valuesOf_append,
    Statement.valuesOf_verbatim, List.length_nil, List.nil_append, List.append_nil, Nat.add_zero,
    Nat.zero_add, ← Statement.sql_ofFilled, String.append_assoc]

/-- **Base and filter are bound side by side.** Let no column contain a quote, a colon, a
hyphen or a slash, let the configuration be valid, and let a base end outside of quotes
and comments and name parameters of its own only. Then the statement that counts the rows
of the base under a filter can be bound. Its values are those of the base followed by
those of the filter, each bound alone from its own parameters. Its text holds the bound
base and the bound filter, in which the placeholder with number `n` has got the number
`n` behind all values of the base. -/
theorem bind_base_beside_filter {filter : Filter} {restriction : Restriction}
    (columns : schema.EveryColumn IsInertText) (valid : config.check = .ok ())
    (closed : (Template.scan .plain base.toList).2.IsOpen)
    (bound : ∀ name, .slot name ∈ Template.pieces base → baseParameters.contains name = true)
    (compiled : filter.compile schema config = .ok restriction)
    (constrained : restriction.isEmpty = false)
    (assembled : PageQuery.compile schema config base (some filter) sort baseParameters =
      .ok query) (dialect : Dialect) :
    ∃ baseStatement filled,
      Statement.bind dialect base baseParameters = .ok baseStatement ∧
      Fills restriction.parameters (Template.pieces restriction.sql) filled ∧
      Statement.bind dialect restriction.sql restriction.parameters =
        .ok ⟨textWith dialect.mark filled, valuesOf filled⟩ ∧
      Statement.bind dialect query.countSql query.parameters =
        .ok ⟨"SELECT count(*) AS cnt FROM " ++ baseStatement.sql ++ " WHERE 1=1 AND (" ++
            textWith (fun number => dialect.mark (baseStatement.values.length + number)) filled ++
            ")",
          baseStatement.values ++ valuesOf filled⟩ := by
  obtain ⟨other, parameters, _, hother, hmerge, _, rfl⟩ := PageQuery.compile_eq_ok_iff.mp assembled
  have hsame : Except.ok other = Except.ok restriction := hother.symm.trans compiled
  cases hsame
  obtain ⟨pieces, filled, hspells, hfilter⟩ :=
    Filter.exists_spells_fills columns valid compiled constrained
  have hvalue : ∀ name, .slot name ∈ Template.pieces base →
      ∃ value, baseParameters.get? name = some value := by
    intro name member
    rw [← Option.isSome_iff_exists, ← Parameters.contains_eq_isSome]
    exact bound name member
  obtain ⟨baseFilled, hbase⟩ := Statement.exists_fills hvalue
  have hfilterAlone : Fills restriction.parameters (Template.pieces restriction.sql) filled := by
    rw [Template.pieces_eq, hspells.pieces_eq]
    exact hfilter
  -- Merging takes no value away, neither from the base nor from the filter.
  have hbaseMerged := hbase.mono fun _ _ => Parameters.get?_right_of_merge hmerge
  have hfilterMerged := hfilter.mono fun _ _ => Parameters.get?_left_of_merge hmerge
  have hcount : Fills parameters (Template.pieces
        ("SELECT count(*) AS cnt FROM " ++ base ++ restriction.clause))
      (verbatim "SELECT count(*) AS cnt FROM " ++ (baseFilled ++ (verbatim " WHERE 1=1 AND (" ++
        (filled ++ verbatim ")")))) := by
    rw [Restriction.clause_of_constrained constrained]
    simp only [String.append_assoc]
    rw [Template.pieces_eq, (spells_countSql closed hspells).pieces_eq]
    exact .append (.verbatim _) (hbaseMerged.append (.append (.verbatim _)
      (hfilterMerged.append (.verbatim _))))
  have halone : ofFilled dialect 0 filled = ⟨textWith dialect.mark filled, valuesOf filled⟩ := by
    have hsql := Statement.sql_ofFilled dialect 0 filled
    simp only [Nat.zero_add] at hsql
    rw [← hsql]
    rfl
  refine ⟨ofFilled dialect 0 baseFilled, filled, Statement.bind_of_fills hbase dialect,
    hfilterAlone, ?_, ?_⟩
  · rw [Statement.bind_of_fills hfilterAlone, halone]
  · rw [Statement.bind_of_fills hcount, ofFilled_two_parts]
    rfl

/-- The value of the filter is numbered on from the elements of a list of the base. -/
theorem bind_list_beside_filter :
    ∃ query, PageQuery.compile Example.orders {} "T, (:ids) t"
        (some (.equals "status" (.string "A"))) []
        (.ofList [("ids", .array [.bool true, .null])]) = .ok query ∧
      Statement.bind .postgres query.countSql query.parameters =
        .ok ⟨"SELECT count(*) AS cnt FROM T, ($1, $2) t WHERE 1=1 AND (STATUS_CD = $3)",
          [.bool true, .string none, .string "A"]⟩ := by
  have closed : (Template.scan .plain "T, (:ids) t".toList).2.IsOpen := trivial
  have bound : ∀ name, .slot name ∈ Template.pieces "T, (:ids) t" →
      (Parameters.ofList [("ids", .array [.bool true, .null])]).contains name = true := by
    intro name member
    have hname : name = "ids" := by
      have hpieces : Template.pieces "T, (:ids) t" =
          verbatim "T, (" ++ ([.slot "ids"] ++ verbatim ") t") := rfl
      rw [hpieces] at member
      simpa [verbatim] using member
    rw [hname]
    rfl
  obtain ⟨baseStatement, filled, hbase, hfills, -, hcount⟩ :=
    bind_base_beside_filter Example.everyColumn_orders rfl closed bound
      (show (Filter.equals "status" (.string "A")).compile Example.orders {} = .ok _ from rfl)
      rfl (show PageQuery.compile Example.orders {} "T, (:ids) t"
        (some (.equals "status" (.string "A"))) []
        (.ofList [("ids", .array [.bool true, .null])]) = .ok _ from rfl) .postgres
  cases hbase
  cases hfills
  exact ⟨_, rfl, hcount⟩

/-! ## A name of the base without a value -/

/-- The names of the operands of a filter, if there is one. -/
def operandNames (config : Config) : Option Filter → List String
  | none => []
  | some filter => (filter.slots config.escapeWildcards config.stem).map Slot.name

/-- A filter binds the names of its operands. -/
theorem Restriction.contains_iff_of_filter {filter : Option Filter} {restriction : Restriction}
    (h : Restriction.ofFilter? schema config filter = .ok restriction) (name : String) :
    restriction.parameters.contains name = true ↔ name ∈ operandNames config filter := by
  cases filter with
  | none =>
    cases h
    have hempty : ({} : Parameters).contains name = false :=
      Parameters.contains_eq_false_iff.mpr (Parameters.get?_empty name)
    simp [operandNames, hempty]
  | some filter =>
    obtain ⟨result, hcondition, rfl⟩ := Filter.compileAt_eq_ok_iff.mp h
    have hslots := Filter.slots_condition? hcondition
    have hparameters : (Restriction.of result).parameters =
        .ofSlots (result.toList.flatMap Condition.slots) := by
      cases result with
      | none => rfl
      | some condition => simp [Restriction.of]
    rw [hparameters, hslots, Parameters.ofSlots, Parameters.contains_ofList, map_fst_slots]
    rfl

/-- A page query has no value for a name that neither the parameters of the base bind nor
an operand of the filter has. -/
theorem PageQuery.get?_eq_none_iff {filter : Option Filter}
    (assembled : PageQuery.compile schema config base filter sort baseParameters = .ok query)
    (name : String) :
    query.parameters.get? name = none ↔
      baseParameters.contains name = false ∧ name ∉ operandNames config filter := by
  obtain ⟨restriction, parameters, _, hrestriction, hmerge, _, rfl⟩ :=
    PageQuery.compile_eq_ok_iff.mp assembled
  rw [← Restriction.contains_iff_of_filter hrestriction, Parameters.get?_of_merge hmerge,
    Option.or_eq_none_iff, Parameters.contains_eq_isSome, Parameters.contains_eq_isSome]
  simp

/-- When a name of the base has no value, the statement that counts cannot be bound,
whatever stands behind the base, and a name of the base is reported. -/
theorem exists_unbound_in_base {filter : Option Filter}
    (assembled : PageQuery.compile schema config base filter sort baseParameters = .ok query)
    {name : String} (member : .slot name ∈ Template.pieces base)
    (missing : query.parameters.get? name = none) (dialect : Dialect) :
    ∃ other, .slot other ∈ Template.pieces base ∧ query.parameters.get? other = none ∧
      Statement.bind dialect query.countSql query.parameters =
        .error (.unboundParameter other) := by
  obtain ⟨restriction, parameters, _, _, _, _, rfl⟩ := PageQuery.compile_eq_ok_iff.mp assembled
  obtain ⟨other, hother, hnone, herror⟩ := Statement.exists_unbound member missing
  refine ⟨other, hother, hnone, ?_⟩
  have hpieces : Template.pieces ("SELECT count(*) AS cnt FROM " ++ base ++ restriction.clause) =
      verbatim "SELECT count(*) AS cnt FROM " ++ (Template.pieces base ++
        Template.piecesFrom (Template.scan .plain base.toList).2.settle
          restriction.clause.toList) := by
    rw [String.append_assoc, Template.pieces_inert_append (by decide),
      Template.pieces_append_settle base restriction.separated_clause]
  rw [Statement.bind, hpieces, List.mapM_append, Statement.Fills.verbatim, List.mapM_append,
    herror]
  rfl

end FilterSql
