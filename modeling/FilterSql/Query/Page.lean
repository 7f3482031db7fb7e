import FilterSql.Condition.Compile
import FilterSql.Request.Basic

/-!
# Page queries

A page request over a base, a table or a subselect, becomes two statements that share one set of
parameters: one counts the rows and one returns them in order. Every mistake in the request is
reported here, before anything is sent.

The sort list becomes an `ORDER BY` clause with one column and direction per entry, in the order of
the list (`parse_order`, `order_by_clause`). Which rows of the result make up the page is told by
two numbers, both kept below `2 ^ 63`, the largest that a store accepts, so that a page far past
the end is empty instead of being refused (`PageBounds`).
-/

namespace FilterSql

/-! ## Order clauses -/

/-- The keyword of a direction that has to be known (`parse_order`). -/
def Direction.keyword : Direction → Except OperationError String
  | .ascending => .ok "ASC"
  | .descending => .ok "DESC"
  | .unknown word => .error (.unknownDirection word)

/-- The column and the direction of a sort entry. -/
def SortEntry.term (schema : Schema) (entry : SortEntry) : Except OperationError String := do
  let column ← schema.resolve entry.field
  let direction ← entry.direction.keyword
  return column ++ " " ++ direction

/-- The clause of a sort list, which is empty for an empty list (`order_by_clause`). The first entry
that has no column or no direction is reported. -/
def orderClause (schema : Schema) (sort : List SortEntry) : Except OperationError String := do
  let terms ← sort.mapM (SortEntry.term schema)
  return if terms.isEmpty then "" else " ORDER BY " ++ ", ".intercalate terms

/-! ## Page bounds -/

/-- A cut through a list of rows: the rows to skip, and the number of rows to keep, if limited. -/
structure RowCut where
  limit : Option Nat
  offset : Nat
deriving DecidableEq, Repr

/-- The largest number of rows that a statement may name (`MAX_SQL_ROWS`). -/
def maximumRows : Nat := Nat.pow 2 63 - 1

/-- The product of two words, or the largest word when no word holds the product. -/
def saturatingProduct (first second : UInt64) : UInt64 :=
  if first.toNat * second.toNat < UInt64.size then first * second
  else .ofNat (UInt64.size - 1)

/-- The cut of a page: none for a size of zero (`PageBounds.limit_offset`). -/
def RowCut.ofPage (page size : UInt64) : RowCut :=
  if size = 0 then ⟨none, 0⟩
  else ⟨some (min size.toNat maximumRows), min (saturatingProduct size page).toNat maximumRows⟩

/-- The rows that a cut keeps. -/
def RowCut.apply {α : Type} (cut : RowCut) (rows : List α) : List α :=
  match cut.limit with
  | none => rows
  | some limit => (rows.drop cut.offset).take limit

/-- The text that makes a statement return the rows of a cut, as `execute_query` adds it. -/
def RowCut.clause (cut : RowCut) : String :=
  match cut.limit with
  | none => ""
  | some limit => " LIMIT " ++ toString limit ++ " OFFSET " ++ toString cut.offset

/-! ## Statements of a page request -/

/-- The statements of a page request (`AssembledQuery`). -/
structure PageQuery where
  countSql : String
  resultSql : String
  parameters : Parameters

/-- The column under which the count statement returns its count (`COUNT_ALIAS`). -/
def countColumn : String := "cnt"

/-- The clause of a restriction, which is empty if it admits every row. -/
def Restriction.clause (restriction : Restriction) : String :=
  if restriction.isEmpty then "" else " WHERE 1=1 AND (" ++ restriction.sql ++ ")"

/-- The restriction of a filter, if there is one. -/
def Restriction.ofFilter? (schema : Schema) (config : Config) :
    Option Filter → Except OperationError Restriction
  | none => .ok {}
  | some filter => filter.compile schema config

/-- The statements over a base (`assemble`). The parameters of the base must not use the names of
the filter. -/
def PageQuery.compile (schema : Schema) (config : Config) (base : String)
    (filter : Option Filter) (sort : List SortEntry) (baseParameters : Parameters) :
    Except OperationError PageQuery := do
  let restriction ← Restriction.ofFilter? schema config filter
  let parameters ← restriction.parameters.merge baseParameters
  let order ← orderClause schema sort
  return {
    countSql := "SELECT count(*) AS " ++ countColumn ++ " FROM " ++ base ++ restriction.clause
    resultSql := "SELECT * FROM " ++ base ++ restriction.clause ++ order
    parameters }

end FilterSql
