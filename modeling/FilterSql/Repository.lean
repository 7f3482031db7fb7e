import FilterSql.Store.Connection

/-!
# Repositories

The operations on the rows of one entity: pages of rows, look-up by key, and deletion by key. A
request that cannot be compiled fails before anything is sent, and a deletion is always restricted
to keys. A page is fetched with at most two statements. The count comes first; if it is zero nothing
else is sent. Otherwise the rows of the page are fetched and all of them are decoded, and a failure
of any part leaves no page.

Models `Repository` and `fetch_page`.
-/

namespace FilterSql

/-- Runs a page query and decodes the rows of one page (`fetch_page`). -/
def PageQuery.fetch {α : Type} (query : PageQuery) (decode : Row → Except StoreError α)
    (page size : UInt64) : Session OperationError (Page α) := do
  let total ← (Session.count query.countSql query.parameters).inContext "count query failed"
  if total = 0 then return .empty
  else
    let found ← (Session.rows query.resultSql query.parameters (.ofPage page size)).inContext
      "result query failed"
    let decoding : Session StoreError (List α) := liftM (found.mapM decode)
    let rows ← decoding.inContext "row decoding failed"
    return ⟨total, rows⟩

/-- An entity whose rows are read as values of a type (`Persistent`). -/
structure Entity (α : Type) extends EntityDescription where
  decode : Row → Except StoreError α

/-- Access to the rows of an entity, under a configuration that can be used. -/
structure Repository (α : Type) where
  entity : Entity α
  config : Config := {}
  valid : config.check = .ok () := by rfl

namespace Repository

variable {α : Type}

/-- A repository under a configuration that has to be checked (`with_config`). -/
def configured (entity : Entity α) (config : Config) : Except OperationError (Repository α) :=
  match valid : config.check with
  | .ok () => .ok { entity, config, valid }
  | .error error => .error error

/-- The schema of the entity. -/
def schema (repository : Repository α) : Schema :=
  repository.entity.schema

/-- A short description for logs. -/
def describe (repository : Repository α) : String :=
  let entity := Json.quote repository.schema.name
  let table := Json.quote repository.schema.table
  let stem := Json.quote repository.config.stem
  let escape := if repository.config.escapeWildcards then "true" else "false"
  "Repository \x7b entity: " ++ entity ++ ", table: " ++ table ++
    ", config: QueryConfig \x7b param_prefix: " ++ stem ++
    ", escape_like_wildcards: " ++ escape ++ " \x7d \x7d"

/-- The restriction that a filter puts on the rows of the entity (`build_sql_conditions`). -/
def restriction (repository : Repository α) (filter : Filter) :
    Except OperationError Restriction :=
  filter.compile repository.schema repository.config

/-- The statements of a page request over a base (`prepare`). -/
def pageQuery (repository : Repository α) (request : PageRequest) (base : String)
    (baseParameters : Parameters) : Except OperationError PageQuery :=
  PageQuery.compile repository.schema repository.config base request.filter request.sort
    baseParameters

/-! ## Pages -/

/-- The page of rows that a request asks for, read from a base (`get_rows_from`). -/
def rowsFrom (repository : Repository α) (request : PageRequest) (base : String)
    (baseParameters : Parameters) : Session OperationError (Page α) := do
  let query ← liftM (repository.pageQuery request base baseParameters)
  query.fetch repository.entity.decode request.page request.size

/-- The page of rows that a request asks for, read from the table of the entity (`get_rows`). -/
def rows (repository : Repository α) (request : PageRequest) :
    Session OperationError (Page α) :=
  repository.rowsFrom request repository.schema.table .empty

/-! ## Access by key -/

/-- The row with a key, if there is one (`find_by_key`). -/
def find (repository : Repository α) (key : Json) : Session OperationError (Option α) := do
  let column ← liftM repository.schema.resolveKey
  let template := "SELECT * FROM " ++ repository.schema.table ++ " WHERE " ++ column ++ " = :id"
  let found ← (Session.rows template (.ofList [("id", key)]) ⟨some 1, 0⟩).inContext
    "key lookup failed"
  match found with
  | [] => return none
  | row :: _ =>
    let decoding : Session StoreError α := liftM (repository.entity.decode row)
    return some (← decoding.inContext "row decoding failed")

/-- Deletes the row with a key; the number of rows that are gone (`delete_by_key`). -/
def delete (repository : Repository α) (key : Json) : Session OperationError UInt64 := do
  let column ← liftM repository.schema.resolveKey
  let template := "DELETE FROM " ++ repository.schema.table ++ " WHERE " ++ column ++ " = :id"
  (Session.update template (.ofList [("id", key)])).inContext "delete failed"

/-- Deletes the rows with any of some keys; the number of rows that are gone (`delete_by_keys`).
Without keys nothing is sent. -/
def deleteMany (repository : Repository α) (keys : List Json) : Session OperationError UInt64 := do
  let column ← liftM repository.schema.resolveKey
  if keys.isEmpty then return 0
  else
    let template := "DELETE FROM " ++ repository.schema.table ++ " WHERE " ++ column ++ " IN (:ids)"
    (Session.update template (.ofList [("ids", .array keys)])).inContext "delete failed"

end Repository

end FilterSql
