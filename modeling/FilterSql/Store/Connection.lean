import FilterSql.Query.Page
import FilterSql.Statement.Bind

/-!
# Connections

A connection is a store seen from outside: it answers each query and each data-modifying statement
with the next of the replies it has in wait, and keeps a log of the statements that have reached it.
A session is a computation that sends statements; what it has sent stays sent when it fails. A store
returns rows, a value per column, from which typed values are read.

`Session.count`, `Session.rows` and `Session.update` model the three operations of `QueryExecutor`
on a connection.
-/

namespace FilterSql

/-! ## Rows -/

/-- The values of a row by column. -/
abbrev Row := List (String × BoundValue)

namespace Row

/-- The value of a column. -/
def value? (row : Row) (column : String) : Option BoundValue :=
  (row.find? fun entry => entry.1 == column).map (·.2)

/-- The signed integer in a column. -/
def int (row : Row) (column : String) : Except StoreError Int64 :=
  match row.value? column with
  | some (.bigInt value) => .ok value
  | _ => .error (.missingValue column)

/-- The text in a column. -/
def text (row : Row) (column : String) : Except StoreError String :=
  match row.value? column with
  | some (.string (some text)) => .ok text
  | _ => .error (.missingValue column)

/-- The text in a column, if it has one. -/
def text? (row : Row) (column : String) : Option String :=
  match row.value? column with
  | some (.string text) => text
  | _ => none

end Row

/-! ## Connections -/

/-- The ways in which a statement is sent. -/
inductive Call where
  /-- For the first row of the reply. -/
  | queryOne
  /-- For all rows of the reply. -/
  | queryAll
  /-- For the number of rows that it changes. -/
  | execute
deriving DecidableEq, Repr

/-- A statement that has reached a connection. -/
structure Sent where
  call : Call
  statement : Statement
deriving DecidableEq, Repr

/-- A connection to a store: the replies it will give, and the statements it has been sent. -/
structure Connection where
  dialect : Dialect
  queries : List (Except StoreError (List Row)) := []
  executions : List (Except StoreError UInt64) := []
  log : List Sent := []

/-- A computation on a connection that may fail. -/
abbrev Session (ε α : Type) := ExceptT ε (StateM Connection) α

namespace Session

/-- The dialect of the connection. -/
def dialect {ε : Type} : Session ε Dialect := do
  return (← get).dialect

/-- Sends a query. -/
def query (call : Call) (statement : Statement) : Session StoreError (List Row) := do
  let connection ← get
  let log := connection.log ++ [⟨call, statement⟩]
  match connection.queries with
  | [] =>
    set { connection with log }
    throw .noQueryReply
  | reply :: queries =>
    set { connection with log, queries }
    liftM reply

/-- Sends a data-modifying statement. -/
def execute (statement : Statement) : Session StoreError UInt64 := do
  let connection ← get
  let log := connection.log ++ [⟨.execute, statement⟩]
  match connection.executions with
  | [] =>
    set { connection with log }
    throw .noExecutionReply
  | reply :: executions =>
    set { connection with log, executions }
    liftM reply

/-- Binds a template for the dialect of the connection (`to_statement`). -/
def bind (template : String) (parameters : Parameters) : Session StoreError Statement := do
  liftM (Statement.bind (← dialect) template parameters)

/-- The row count that a statement returns, in the first row of its reply (`execute_count`). -/
def count (template : String) (parameters : Parameters) : Session StoreError UInt64 := do
  let statement ← bind template parameters
  match ← query .queryOne statement with
  | [] => throw .missingCount
  | row :: _ =>
    let count ← liftM (row.int countColumn)
    if count < 0 then throw (.negativeCount count)
    else return count.toUInt64

/-- The rows of a cut through what a statement returns (`execute_query`). -/
def rows (template : String) (parameters : Parameters) (cut : RowCut) :
    Session StoreError (List Row) := do
  let statement ← bind (template ++ cut.clause) parameters
  query .queryAll statement

/-- The number of rows that a data-modifying statement changes (`execute_update`). -/
def update (template : String) (parameters : Parameters) : Session StoreError UInt64 := do
  let statement ← bind template parameters
  execute statement

/-- A session whose store error ends an operation (`QueryError.execution`). -/
def inContext {α : Type} (context : String) (session : Session StoreError α) :
    Session OperationError α :=
  session.adapt (OperationError.storeFailure context)

end Session

end FilterSql
