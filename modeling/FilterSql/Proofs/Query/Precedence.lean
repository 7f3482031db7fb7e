import FilterSql.Proofs.Query.Source

/-!
# Outcomes of page queries

Three parts of a page query can be wrong: the filter, the names of the parameters that
come with the base, and the entries of the sort list. They are looked at in this order, and
the first fault is reported. When there is none, both statements have the clause of the
filter, the sort list shows in the order clause only, and no parameter is lost.

Results:
* `SortEntry.failure?_term`, `failure?_orderClause`: the fault of a sort entry, and of a
  sort list.
* `exists_terms`: a sort list without a fault has one term for each entry.
* `pageQuery_reports_in_order`: what a page query comes to.
-/

namespace FilterSql

open Parameters (IsFirstCommon)

/-! ## Specification -/

/-- What is wrong with a sort entry. A field without a column comes before a word that is
no direction. -/
def SortEntry.fault? (schema : Schema) (entry : SortEntry) : Option OperationError :=
  if schema.column? entry.field = none then some (.unmappedField schema.name entry.field)
  else
    match entry.direction with
    | .unknown word => some (.unknownDirection word)
    | .ascending | .descending => none

/-- The term that stands for a sort entry in a clause. -/
inductive SortEntry.HasTerm (schema : Schema) : SortEntry → String → Prop where
  | ascending {field column : String} (mapped : schema.column? field = some column) :
      HasTerm schema ⟨field, .ascending⟩ (column ++ " ASC")
  | descending {field column : String} (mapped : schema.column? field = some column) :
      HasTerm schema ⟨field, .descending⟩ (column ++ " DESC")

/-! ## Sort lists -/

theorem SortEntry.failure?_term {schema : Schema} (entry : SortEntry) :
    failure? (entry.term schema) = entry.fault? schema := by
  rw [term, fault?, Schema.resolve]
  cases schema.column? entry.field with
  | none => rfl
  | some column =>
    rw [if_neg (Option.some_ne_none column)]
    cases entry.direction <;> rfl

theorem SortEntry.hasTerm_of_term {schema : Schema} {entry : SortEntry} {term : String}
    (h : entry.term schema = .ok term) : entry.HasTerm schema term := by
  obtain ⟨column, keyword, mapped, hkeyword, rfl⟩ := term_eq_ok_iff.mp h
  rw [String.append_assoc]
  obtain ⟨field, direction⟩ := entry
  cases direction with
  | ascending =>
    cases hkeyword
    exact .ascending mapped
  | descending =>
    cases hkeyword
    exact .descending mapped
  | unknown word => cases hkeyword

/-- The fault of a sort list is that of its first faulty entry. -/
theorem failure?_orderClause (schema : Schema) (sort : List SortEntry) :
    failure? (orderClause schema sort) = sort.findSome? (SortEntry.fault? schema) := by
  rw [orderClause, failure?_bind none (fun _ _ => rfl), failure?_mapM, Option.or_none]
  simp only [SortEntry.failure?_term]

/-- A sort list without a fault has one term for each entry, in the order of the list. -/
theorem exists_terms {schema : Schema} {sort : List SortEntry}
    (h : sort.findSome? (SortEntry.fault? schema) = none) :
    ∃ terms, List.Forall₂ (SortEntry.HasTerm schema) sort terms ∧
      orderClause schema sort =
        .ok (if sort = [] then "" else " ORDER BY " ++ ", ".intercalate terms) := by
  rw [← failure?_orderClause, failure?_eq_none_iff] at h
  obtain ⟨order, horder⟩ := h
  obtain ⟨terms, hterms, rfl⟩ := orderClause_eq_ok_iff.mp horder
  have hempty : sort = [] ↔ terms = [] := by
    rw [← List.length_eq_zero_iff, ← List.length_eq_zero_iff, hterms.length_eq]
  refine ⟨terms, hterms.imp fun _ _ => SortEntry.hasTerm_of_term, ?_⟩
  simp only [horder, hempty]

/-! ## Page queries -/

/-- **Faults are reported in order, and without a fault nothing is lost.** For every
schema, configuration, base, filter, sort list and parameters of the base:
* when the filter does not compile, its error is reported;
* else, when a parameter of the base has the name of a parameter of the filter, a conflict
  is reported, and it is for the smallest such name;
* else there are a clause and parameters that do not depend on the sort list. The clause is
  empty when the filter compiles to the empty text. A name has a value exactly when it has
  it in the filter or in the base, and in only one of them. When a sort entry is faulty, the
  fault of the first such entry is reported; and when there is none, the statements are
  the base with the clause, and the one for the rows has one term for each entry behind
  it. -/
theorem pageQuery_reports_in_order (schema : Schema) (config : Config) (base : String)
    (filter : Option Filter) (baseParameters : Parameters) :
    (∀ e, Restriction.ofFilter? schema config filter = .error e → ∀ sort,
      PageQuery.compile schema config base filter sort baseParameters = .error e) ∧
    ∀ restriction, Restriction.ofFilter? schema config filter = .ok restriction →
      (∀ name, restriction.parameters.contains name = true →
        baseParameters.contains name = true →
        ∃ first, IsFirstCommon restriction.parameters baseParameters first ∧ ∀ sort,
          PageQuery.compile schema config base filter sort baseParameters =
            .error (.nameBoundTwice first)) ∧
      ((∀ name, restriction.parameters.contains name = true →
          baseParameters.contains name = false) →
        ∃ clause parameters,
          clause = (if restriction.sql = "" then "" else
            " WHERE 1=1 AND (" ++ restriction.sql ++ ")") ∧
          (∀ name value, parameters.get? name = some value ↔
            restriction.parameters.get? name = some value ∨
              baseParameters.get? name = some value) ∧
          ∀ sort,
            (∀ e, sort.findSome? (SortEntry.fault? schema) = some e →
              PageQuery.compile schema config base filter sort baseParameters = .error e) ∧
            (sort.findSome? (SortEntry.fault? schema) = none →
              ∃ terms, List.Forall₂ (SortEntry.HasTerm schema) sort terms ∧
                PageQuery.compile schema config base filter sort baseParameters =
                  .ok ⟨"SELECT count(*) AS cnt FROM " ++ base ++ clause,
                    "SELECT * FROM " ++ base ++ clause ++
                      (if sort = [] then "" else " ORDER BY " ++ ", ".intercalate terms),
                    parameters⟩)) := by
  refine ⟨fun e hfilter sort => ?_, fun restriction hfilter => ⟨?_, fun disjoint => ?_⟩⟩
  · rw [PageQuery.compile]
    exact bind_eq_error_iff.mpr (.inl hfilter)
  · intro name hleft hright
    obtain ⟨first, hfirst, hmerge⟩ := Parameters.exists_first_common hleft hright
    refine ⟨first, hfirst, fun sort => ?_⟩
    rw [PageQuery.compile]
    exact bind_eq_error_iff.mpr (.inr ⟨_, hfilter, bind_eq_error_iff.mpr (.inl hmerge)⟩)
  · have hmerge := Parameters.merge_of_disjoint disjoint
    have hclause : restriction.clause =
        if restriction.sql = "" then "" else " WHERE 1=1 AND (" ++ restriction.sql ++ ")" := by
      simp only [Restriction.clause, Restriction.isEmpty, String.isEmpty_iff]
    refine ⟨restriction.clause, _, hclause, Parameters.get?_of_merge_eq_some_iff hmerge,
      fun sort => ⟨fun e hfault => ?_, fun hfault => ?_⟩⟩
    · rw [← failure?_orderClause, failure?_eq_some_iff] at hfault
      rw [PageQuery.compile]
      exact bind_eq_error_iff.mpr (.inr ⟨_, hfilter, bind_eq_error_iff.mpr
        (.inr ⟨_, hmerge, bind_eq_error_iff.mpr (.inl hfault)⟩)⟩)
    · obtain ⟨terms, hterms, horder⟩ := exists_terms hfault
      exact ⟨terms, hterms, PageQuery.compile_eq_ok_iff.mpr
        ⟨restriction, _, _, hfilter, hmerge, horder, rfl⟩⟩

namespace Example

/-- A filter of two operands. -/
def amounts : Filter :=
  .between "amount" (some (.number (.ofInt64 1))) (some (.number (.ofInt64 2)))

/-- Parameters of a base with the names of both operands. -/
def namesTaken : Parameters :=
  .ofList [("tenant", .null), ("p__1", .null), ("p__0", .null)]

end Example

/-- Requests with several faults at once, and one without a fault. -/
theorem faults_beside_amounts :
    PageQuery.compile Example.orders {} "T" (some (.equals "nowhere" (.bool true)))
        [⟨"amount", .unknown "up"⟩] Example.namesTaken =
      .error (.unmappedField "order" "nowhere") ∧
    PageQuery.compile Example.orders {} "T" (some Example.amounts) [⟨"amount", .unknown "up"⟩]
        Example.namesTaken = .error (.nameBoundTwice "p__0") ∧
    PageQuery.compile Example.orders {} "T" (some Example.amounts)
        [⟨"amount", .descending⟩, ⟨"nowhere", .unknown "up"⟩, ⟨"amount", .unknown "down"⟩]
        (.ofList [("tenant", .null)]) = .error (.unmappedField "order" "nowhere") ∧
    ∃ query, PageQuery.compile Example.orders {} "T" (some Example.amounts)
        [⟨"amount", .descending⟩, ⟨"state", .ascending⟩] (.ofList [("tenant", .null)]) =
          .ok query ∧
      query.countSql = "SELECT count(*) AS cnt FROM T WHERE 1=1 AND " ++
        "(AMOUNT BETWEEN :p__0 AND :p__1)" ∧
      query.resultSql = "SELECT * FROM T WHERE 1=1 AND (AMOUNT BETWEEN :p__0 AND :p__1)" ++
        " ORDER BY AMOUNT DESC, STATUS_CD ASC" ∧
      query.parameters.get? "tenant" = some .null := by
  obtain ⟨hfilter, -⟩ := pageQuery_reports_in_order Example.orders {} "T"
    (some (.equals "nowhere" (.bool true))) Example.namesTaken
  obtain ⟨-, hconflict⟩ := pageQuery_reports_in_order Example.orders {} "T"
    (some Example.amounts) Example.namesTaken
  obtain ⟨-, hothers⟩ := pageQuery_reports_in_order Example.orders {} "T"
    (some Example.amounts) (.ofList [("tenant", .null)])
  obtain ⟨first, -, hfirst⟩ := (hconflict _ rfl).1 "p__1" rfl rfl
  have herror := hfirst [⟨"amount", .unknown "up"⟩]
  cases herror
  have hdisjoint : ∀ name, (Parameters.ofList [("p__0", .number (.ofInt64 1)),
      ("p__1", .number (.ofInt64 2))]).contains name = true →
        (Parameters.ofList [("tenant", .null)]).contains name = false := by
    intro name h
    rw [Parameters.contains_ofList] at h
    rcases List.mem_pair.mp h with rfl | rfl <;> rfl
  obtain ⟨clause, parameters, rfl, hvalues, hsort⟩ := (hothers _ rfl).2 hdisjoint
  obtain ⟨terms, hterms, hquery⟩ :=
    (hsort [⟨"amount", .descending⟩, ⟨"state", .ascending⟩]).2 rfl
  obtain _ | ⟨hamount, _ | ⟨hstate, _ | _⟩⟩ := hterms
  cases hamount with
  | descending mapped =>
    cases mapped
    cases hstate with
    | ascending mapped =>
      cases mapped
      exact ⟨hfilter _ rfl _, hfirst _, (hsort _).1 _ rfl, _, hquery, rfl, rfl,
        (hvalues _ _).mpr (.inr rfl)⟩

end FilterSql
