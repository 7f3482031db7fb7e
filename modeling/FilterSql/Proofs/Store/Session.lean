import Mathlib.Tactic.Common
import FilterSql.Store.Connection

/-!
# Running sessions

A session on a connection has an outcome and leaves a connection behind. A session is run
part by part, each part on what the parts before it have left, up to the first one that
fails.

Results:
* `runOn_bind`, `runOn_inContext`: sessions made of sessions.
* `runOn_query`, `runOn_execute`: what one statement does to a connection.
* `runOn_count`, `runOn_rows`, `runOn_update`: the template is bound before anything is
  sent; when it cannot be bound, the connection stays as it is.
* `KeepsLog`: what has been sent stays sent, also when the session fails.
* `SendsOnly`: every statement that a session sends has a property.
-/

namespace FilterSql

/-! ## Statements that reach a connection -/

namespace Connection

/-- The reply to the next query. -/
def queryReply (connection : Connection) : Except StoreError (List Row) :=
  connection.queries.headD (.error .noQueryReply)

/-- The connection behind a query. -/
def afterQuery (connection : Connection) (call : Call) (statement : Statement) : Connection :=
  { connection with
    log := connection.log ++ [⟨call, statement⟩]
    queries := connection.queries.tail }

/-- The reply to a query, counted from the next one. A store without another reply says
so. -/
def reply (connection : Connection) (index : ℕ) : Except StoreError (List Row) :=
  connection.queries.getD index (.error .noQueryReply)

/-- The connection behind some queries. -/
def after (connection : Connection) (sent : List Sent) : Connection :=
  { connection with
    log := connection.log ++ sent
    queries := connection.queries.drop sent.length }

theorem queryReply_eq_reply (connection : Connection) :
    connection.queryReply = connection.reply 0 := by
  rw [queryReply, reply]
  cases connection.queries <;> rfl

theorem afterQuery_eq_after (connection : Connection) (call : Call) (statement : Statement) :
    connection.afterQuery call statement = connection.after [⟨call, statement⟩] := by
  rw [afterQuery, after, List.length_singleton, List.drop_one]

theorem after_nil (connection : Connection) : connection.after [] = connection := by
  rw [after, List.append_nil]
  rfl

theorem after_after (connection : Connection) (first second : List Sent) :
    (connection.after first).after second = connection.after (first ++ second) := by
  simp [after, List.drop_drop]

theorem reply_after (connection : Connection) (sent : List Sent) (index : ℕ) :
    (connection.after sent).reply index = connection.reply (sent.length + index) := by
  simp [reply, after, List.getD_eq_getElem?_getD]

/-- The reply to the next data-modifying statement. -/
def executionReply (connection : Connection) : Except StoreError UInt64 :=
  connection.executions.headD (.error .noExecutionReply)

/-- The connection behind a data-modifying statement. -/
def afterExecution (connection : Connection) (statement : Statement) : Connection :=
  { connection with
    log := connection.log ++ [⟨.execute, statement⟩]
    executions := connection.executions.tail }

end Connection

namespace Session

variable {ε α β : Type}

/-- The outcome of a session on a connection, and the connection behind it. -/
def runOn (session : Session ε α) (connection : Connection) : Except ε α × Connection :=
  session.run.run connection

/-! ## Sessions made of sessions -/

/-- What needs no connection leaves it as it is. -/
@[simp] theorem runOn_liftM (outcome : Except ε α) (connection : Connection) :
    runOn (liftM outcome : Session ε α) connection = (outcome, connection) := rfl

/-- A session goes on from the connection that its first part leaves behind, unless that
part fails. -/
theorem runOn_bind (session : Session ε α) (next : α → Session ε β) (connection : Connection) :
    runOn (session >>= next) connection =
      match runOn session connection with
      | (.ok a, behind) => runOn (next a) behind
      | (.error e, behind) => (.error e, behind) := by
  rw [runOn, ExceptT.run_bind]
  change StateT.run (match (runOn session connection).1 with
    | .ok a => (next a).run
    | .error e => pure (.error e)) (runOn session connection).2 = _
  rcases runOn session connection with ⟨outcome, behind⟩
  cases outcome <;> rfl

theorem runOn_bind_of_ok {session : Session ε α} {connection behind : Connection} {a : α}
    (h : runOn session connection = (.ok a, behind)) (next : α → Session ε β) :
    runOn (session >>= next) connection = runOn (next a) behind := by
  rw [runOn_bind, h]

theorem runOn_bind_of_error {session : Session ε α} {connection behind : Connection} {e : ε}
    (h : runOn session connection = (.error e, behind)) (next : α → Session ε β) :
    runOn (session >>= next) connection = (.error e, behind) := by
  rw [runOn_bind, h]

/-- What is done without the connection leaves it as the first part has left it. -/
theorem behind_bind_of_unchanged {next : α → Session ε β}
    (hnext : ∀ a connection, (runOn (next a) connection).2 = connection) (session : Session ε α)
    (connection : Connection) :
    (runOn (session >>= next) connection).2 = (runOn session connection).2 := by
  rw [runOn_bind]
  rcases runOn session connection with ⟨outcome, behind⟩
  cases outcome with
  | error e => rfl
  | ok a => exact hnext a behind

theorem runOn_inContext (context : String) (session : Session StoreError α)
    (connection : Connection) :
    runOn (session.inContext context) connection =
      ((runOn session connection).1.mapError (.storeFailure context),
        (runOn session connection).2) := rfl

/-! ## Statements -/

theorem runOn_query (call : Call) (statement : Statement) (connection : Connection) :
    runOn (query call statement) connection =
      (connection.queryReply, connection.afterQuery call statement) := by
  obtain ⟨dialect, queries, executions, log⟩ := connection
  cases queries <;> rfl

theorem runOn_execute (statement : Statement) (connection : Connection) :
    runOn (execute statement) connection =
      (connection.executionReply, connection.afterExecution statement) := by
  obtain ⟨dialect, queries, executions, log⟩ := connection
  cases executions <;> rfl

/-- Binding a template sends nothing. -/
theorem runOn_bindTemplate (template : String) (parameters : Parameters)
    (connection : Connection) :
    runOn (Session.bind template parameters) connection =
      (Statement.bind connection.dialect template parameters, connection) := rfl

/-- The row count in the reply to a statement that counts. -/
def countOf : List Row → Except StoreError UInt64
  | [] => .error .missingCount
  | row :: _ => do
    let count ← row.int countColumn
    if count < 0 then .error (.negativeCount count) else .ok count.toUInt64

/-- A statement that counts is sent once it is bound, and its reply is read. -/
theorem runOn_count (template : String) (parameters : Parameters) (connection : Connection) :
    runOn (count template parameters) connection =
      match Statement.bind connection.dialect template parameters with
      | .error e => (.error e, connection)
      | .ok statement =>
        (connection.queryReply >>= countOf, connection.afterQuery .queryOne statement) := by
  rw [count]
  cases hbind : Statement.bind connection.dialect template parameters with
  | error e => exact runOn_bind_of_error (by rw [runOn_bindTemplate, hbind]) _
  | ok statement =>
    rw [runOn_bind_of_ok (by rw [runOn_bindTemplate, hbind]), runOn_bind, runOn_query]
    cases connection.queryReply with
    | error e => rfl
    | ok rows =>
      cases rows with
      | nil => rfl
      | cons row rest =>
        change runOn ((liftM (row.int countColumn) : Session StoreError Int64) >>= _) _ =
          ((row.int countColumn >>= _ : Except StoreError UInt64), _)
        rw [runOn_bind, runOn_liftM]
        cases row.int countColumn with
        | error e => rfl
        | ok count =>
          change runOn (ite _ _ _) _ = (ite _ _ _, _)
          split_ifs <;> rfl

/-- A statement that returns rows is sent once it is bound, cut included. -/
theorem runOn_rows (template : String) (parameters : Parameters) (cut : RowCut)
    (connection : Connection) :
    runOn (rows template parameters cut) connection =
      match Statement.bind connection.dialect (template ++ cut.clause) parameters with
      | .error e => (.error e, connection)
      | .ok statement => (connection.queryReply, connection.afterQuery .queryAll statement) := by
  rw [rows]
  cases hbind : Statement.bind connection.dialect (template ++ cut.clause) parameters with
  | error e => exact runOn_bind_of_error (by rw [runOn_bindTemplate, hbind]) _
  | ok statement => rw [runOn_bind_of_ok (by rw [runOn_bindTemplate, hbind]), runOn_query]

/-- A data-modifying statement is sent once it is bound. -/
theorem runOn_update (template : String) (parameters : Parameters) (connection : Connection) :
    runOn (update template parameters) connection =
      match Statement.bind connection.dialect template parameters with
      | .error e => (.error e, connection)
      | .ok statement => (connection.executionReply, connection.afterExecution statement) := by
  rw [update]
  cases hbind : Statement.bind connection.dialect template parameters with
  | error e => exact runOn_bind_of_error (by rw [runOn_bindTemplate, hbind]) _
  | ok statement => rw [runOn_bind_of_ok (by rw [runOn_bindTemplate, hbind]), runOn_execute]

section Bound

variable {template : String} {parameters : Parameters} {connection : Connection}

theorem runOn_count_of_bound {statement : Statement}
    (bound : Statement.bind connection.dialect template parameters = .ok statement) :
    runOn (count template parameters) connection =
      (connection.reply 0 >>= countOf, connection.after [⟨.queryOne, statement⟩]) := by
  rw [runOn_count, bound, ← connection.queryReply_eq_reply, ← connection.afterQuery_eq_after]

theorem runOn_rows_of_bound {cut : RowCut} {statement : Statement}
    (bound : Statement.bind connection.dialect (template ++ cut.clause) parameters =
      .ok statement) :
    runOn (rows template parameters cut) connection =
      (connection.reply 0, connection.after [⟨.queryAll, statement⟩]) := by
  rw [runOn_rows, bound, ← connection.queryReply_eq_reply, ← connection.afterQuery_eq_after]

theorem runOn_update_of_bound {statement : Statement}
    (bound : Statement.bind connection.dialect template parameters = .ok statement) :
    runOn (update template parameters) connection =
      (connection.executionReply, connection.afterExecution statement) := by
  rw [runOn_update, bound]

end Bound

/-! ## What has been sent stays sent -/

/-- On every connection, the log behind the session begins with the log before it. -/
def KeepsLog (session : Session ε α) : Prop :=
  ∀ connection, connection.log <+: (runOn session connection).2.log

namespace KeepsLog

theorem pure (a : α) : KeepsLog (pure a : Session ε α) := by
  intro connection
  exact List.prefix_refl _

theorem liftM (outcome : Except ε α) : KeepsLog (liftM outcome : Session ε α) := by
  intro connection
  exact List.prefix_refl _

/-- What the first part of a session has sent stays in the log. -/
theorem prefix_bind {next : α → Session ε β} (hnext : ∀ a, KeepsLog (next a))
    (session : Session ε α) (connection : Connection) :
    (runOn session connection).2.log <+: (runOn (session >>= next) connection).2.log := by
  rw [runOn_bind]
  rcases runOn session connection with ⟨outcome, behind⟩
  cases outcome with
  | error e => exact List.prefix_refl _
  | ok a => exact hnext a behind

theorem bind {session : Session ε α} {next : α → Session ε β} (h : KeepsLog session)
    (hnext : ∀ a, KeepsLog (next a)) : KeepsLog (session >>= next) := by
  intro connection
  exact (h connection).trans (prefix_bind hnext session connection)

theorem inContext {session : Session StoreError α} (h : KeepsLog session) (context : String) :
    KeepsLog (session.inContext context) := by
  intro connection
  rw [runOn_inContext]
  exact h connection

theorem query (call : Call) (statement : Statement) : KeepsLog (query call statement) := by
  intro connection
  rw [runOn_query]
  exact List.prefix_append _ _

theorem execute (statement : Statement) : KeepsLog (execute statement) := by
  intro connection
  rw [runOn_execute]
  exact List.prefix_append _ _

theorem bindTemplate (template : String) (parameters : Parameters) :
    KeepsLog (Session.bind template parameters) := by
  intro connection
  exact List.prefix_refl _

theorem rows (template : String) (parameters : Parameters) (cut : RowCut) :
    KeepsLog (rows template parameters cut) :=
  bind (bindTemplate _ _) (query .queryAll)

theorem update (template : String) (parameters : Parameters) :
    KeepsLog (update template parameters) :=
  bind (bindTemplate _ _) execute

end KeepsLog

/-! ## What is sent -/

/-- On every connection, what the session adds to the log has a property, and the dialect
of the connection stays the same. -/
def SendsOnly (P : Dialect → Sent → Prop) (session : Session ε α) : Prop :=
  ∀ connection, (runOn session connection).2.dialect = connection.dialect ∧
    ∃ sent, (runOn session connection).2.log = connection.log ++ sent ∧
      ∀ s ∈ sent, P connection.dialect s

namespace SendsOnly

variable {P : Dialect → Sent → Prop}

theorem of_unchanged {session : Session ε α}
    (h : ∀ connection, (runOn session connection).2 = connection) : SendsOnly P session := by
  intro connection
  rw [h]
  exact ⟨rfl, [], (List.append_nil _).symm, fun _ member => nomatch member⟩

theorem pure (a : α) : SendsOnly P (pure a : Session ε α) :=
  of_unchanged fun _ => rfl

theorem liftM (outcome : Except ε α) : SendsOnly P (liftM outcome : Session ε α) :=
  of_unchanged fun _ => rfl

theorem bind {session : Session ε α} {next : α → Session ε β} (h : SendsOnly P session)
    (hnext : ∀ a, SendsOnly P (next a)) : SendsOnly P (session >>= next) := by
  intro connection
  rw [runOn_bind]
  obtain ⟨hdialect, first, hlog, hfirst⟩ := h connection
  rcases hrun : runOn session connection with ⟨outcome, behind⟩
  rw [hrun] at hdialect hlog
  cases outcome with
  | error e => exact ⟨hdialect, first, hlog, hfirst⟩
  | ok a =>
    obtain ⟨hdialect', second, hlog', hsecond⟩ := hnext a behind
    refine ⟨hdialect'.trans hdialect, first ++ second, ?_, fun s member => ?_⟩
    · show (runOn (next a) behind).2.log = _
      rw [hlog', hlog, List.append_assoc]
    · rcases List.mem_append.mp member with member | member
      · exact hfirst s member
      · exact hdialect ▸ hsecond s member

theorem inContext {session : Session StoreError α} (h : SendsOnly P session)
    (context : String) : SendsOnly P (session.inContext context) := by
  intro connection
  rw [runOn_inContext]
  exact h connection

/-- A session that sends one statement once it is bound, and nothing when it cannot be
bound. -/
theorem of_bound {session : Session ε α} {template : String} {parameters : Parameters}
    {call : Call}
    (unbound : ∀ connection e,
      Statement.bind connection.dialect template parameters = .error e →
        (runOn session connection).2 = connection)
    (bound : ∀ connection statement,
      Statement.bind connection.dialect template parameters = .ok statement →
        (runOn session connection).2.dialect = connection.dialect ∧
          (runOn session connection).2.log = connection.log ++ [⟨call, statement⟩])
    (h : ∀ dialect statement, Statement.bind dialect template parameters = .ok statement →
      P dialect ⟨call, statement⟩) : SendsOnly P session := by
  intro connection
  cases hbind : Statement.bind connection.dialect template parameters with
  | error e =>
    rw [unbound connection e hbind]
    exact ⟨rfl, [], (List.append_nil _).symm, fun _ member => nomatch member⟩
  | ok statement =>
    obtain ⟨hdialect, hlog⟩ := bound connection statement hbind
    refine ⟨hdialect, [_], hlog, fun s member => ?_⟩
    rw [List.mem_singleton.mp member]
    exact h _ _ hbind

section Bound

variable {template : String} {parameters : Parameters}

theorem count (h : ∀ dialect statement,
    Statement.bind dialect template parameters = .ok statement →
      P dialect ⟨.queryOne, statement⟩) : SendsOnly P (count template parameters) := by
  refine of_bound (fun connection e hbind => ?_) (fun connection statement hbind => ?_) h
  · rw [runOn_count, hbind]
  · rw [runOn_count, hbind]
    exact ⟨rfl, rfl⟩

theorem rows {cut : RowCut} (h : ∀ dialect statement,
    Statement.bind dialect (template ++ cut.clause) parameters = .ok statement →
      P dialect ⟨.queryAll, statement⟩) : SendsOnly P (rows template parameters cut) := by
  refine of_bound (fun connection e hbind => ?_) (fun connection statement hbind => ?_) h
  · rw [runOn_rows, hbind]
  · rw [runOn_rows, hbind]
    exact ⟨rfl, rfl⟩

theorem update (h : ∀ dialect statement,
    Statement.bind dialect template parameters = .ok statement →
      P dialect ⟨.execute, statement⟩) : SendsOnly P (update template parameters) := by
  refine of_bound (fun connection e hbind => ?_) (fun connection statement hbind => ?_) h
  · rw [runOn_update, hbind]
  · rw [runOn_update, hbind]
    exact ⟨rfl, rfl⟩

end Bound

end SendsOnly

end Session

end FilterSql
