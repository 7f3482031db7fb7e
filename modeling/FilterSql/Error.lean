import FilterSql.Json.Printer

/-!
# Errors

Two kinds of failure. A `StoreError` comes from a data store, or from binding a statement for it or
reading its replies. An `OperationError` ends an operation: either the request is rejected before
anything is sent, or the store has failed. A client is told what is wrong with its request, and
nothing about the store.

`OperationError` models `QueryError`.
-/

namespace FilterSql

/-! ## Errors of a store -/

/-- The kinds of error that a store reports. -/
inductive ReportKind where
  | custom
  | recordNotFound
  | type
  | json
  | migration
  | query
  | execution
  | connection
  | recordNotInserted
deriving DecidableEq, Repr

/-- An error on the way to a store, in it, or on the way back. -/
inductive StoreError where
  /-- The store reports an error of its own. -/
  | reported (kind : ReportKind) (text : String)
  /-- A placeholder of a statement has no value. -/
  | unboundParameter (name : String)
  /-- A column of a row has no value of the type that is read from it. -/
  | missingValue (column : String)
  /-- A count statement returned no row. -/
  | missingCount
  /-- A count statement returned a negative number. -/
  | negativeCount (count : Int64)
  /-- The store has no reply to a query. -/
  | noQueryReply
  /-- The store has no reply to a data-modifying statement. -/
  | noExecutionReply
deriving DecidableEq, Repr

/-- The message of an error of a given kind. -/
def ReportKind.describe (kind : ReportKind) (text : String) : String :=
  match kind with
  | .custom => "Custom Error: " ++ text
  | .recordNotFound => "RecordNotFound Error: " ++ text
  | .type => "Type Error: " ++ text
  | .json => "Json Error: " ++ text
  | .migration => "Migration Error: " ++ text
  | .query => "Query Error: " ++ text
  | .execution => "Execution Error: " ++ text
  | .connection => "Connection Error: " ++ text
  | .recordNotInserted => "None of the records are inserted"

/-- The message of a store error. -/
def StoreError.message : StoreError → String
  | .reported kind text => kind.describe text
  | .unboundParameter name =>
    ReportKind.custom.describe ("no value bound for parameter '" ++ name ++ "'")
  | .missingValue column =>
    ReportKind.type.describe ("A null value was encountered while decoding \"" ++ column ++ "\"")
  | .missingCount => ReportKind.recordNotFound.describe "count query returned no row"
  | .negativeCount count => ReportKind.type.describe ("negative row count " ++ toString count.toInt)
  | .noQueryReply => ReportKind.query.describe "`query_results` buffer is empty."
  | .noExecutionReply => ReportKind.execution.describe "`exec_results` buffer is empty"

/-! ## Errors of an operation -/

/-- Why an operation failed. -/
inductive OperationError where
  /-- A field has no column in the schema of the entity. -/
  | unmappedField (entity field : String)
  /-- An operator or a logic word is unknown, or an operator is missing. -/
  | unknownOperator (operator : String)
  /-- A sort direction is neither ascending nor descending. -/
  | unknownDirection (direction : String)
  /-- The value of a predicate does not fit its operator. -/
  | unfitValue (field reason : String)
  /-- A keyword search on an entity without keyword columns. -/
  | noKeywordColumns (entity : String)
  /-- Two parameters of one statement have the same name. -/
  | nameBoundTwice (name : String)
  /-- A configuration cannot be used. -/
  | unusableConfig (reason : String)
  /-- The store has failed. -/
  | storeFailure (context : String) (cause : StoreError)
deriving DecidableEq, Repr

namespace OperationError

/-- The message of an error. -/
def message : OperationError → String
  | .unmappedField entity field =>
    "no column is mapped for field '" ++ field ++ "' of entity '" ++ entity ++ "'"
  | .unknownOperator operator => "invalid operator '" ++ operator ++ "'"
  | .unknownDirection direction => "invalid sort direction '" ++ direction ++ "'"
  | .unfitValue field reason => "invalid value for field '" ++ field ++ "': " ++ reason
  | .noKeywordColumns entity =>
    "keyword search requested on entity '" ++ entity ++ "' which has no keyword columns"
  | .nameBoundTwice name => "parameter '" ++ name ++ "' is bound twice"
  | .unusableConfig reason => "invalid query configuration: " ++ reason
  | .storeFailure context cause => context ++ ": " ++ cause.message

/-- The store error behind an error. -/
def cause? : OperationError → Option StoreError
  | .storeFailure _ cause => some cause
  | _ => none

/-- Has the store failed (`is_execution_error`)? -/
def isStoreFailure (error : OperationError) : Bool :=
  error.cause?.isSome

/-- Was the request rejected before anything was sent (`is_compile_error`)? -/
def isRejection (error : OperationError) : Bool :=
  !error.isStoreFailure

/-! ## Responses to clients -/

/-- What a client may read about an error: nothing about the store (`user_message`). -/
def publicMessage (error : OperationError) : String :=
  if error.isStoreFailure then "A database error occurred" else error.message

/-- The HTTP status of an error: the fault of the server or of the request (`status_code`). -/
def status (error : OperationError) : Nat :=
  if error.isStoreFailure then 500 else 400

/-- The body of the response to an error (`into_response`). -/
def body (error : OperationError) : String :=
  (Json.object [("error", .string error.publicMessage)]).text

end OperationError

end FilterSql
