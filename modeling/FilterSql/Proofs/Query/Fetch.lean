import FilterSql.Repository
import FilterSql.Proofs.Failure
import FilterSql.Proofs.Store.Session

/-!
# Fetching pages, statement by statement

The count is the first thing that a fetch sends. When the statement that counts cannot be
bound, it is also the last thing that a fetch tries. A count of zero ends the fetch; for
any other count the rows are asked for, and they are returned all or not at all.

Between the two statements there is a step that can fail as well: the statement that
returns the rows is bound when the count has already been sent.

Results:
* `PageQuery.runOn_fetch_of_unbound`: without a bound count statement nothing is sent.
* `PageQuery.log_fetch_of_bound`: otherwise the bound count statement is sent first.
* `PageQuery.keepsLog_fetch`: what has been sent before a fetch stays in the log.
* `runOn_fetch_iff_exchange`: the seven exchanges with a connection that a fetch can come
  to.
* `fetch_sends_no_unbound_rows`: a count that no statement for the rows follows.
-/

namespace FilterSql

open Session (runOn KeepsLog)

namespace PageQuery

variable {α : Type} {query : PageQuery} {connection : Connection}

/-- A page query whose count statement cannot be bound fails, and sends nothing. -/
theorem runOn_fetch_of_unbound {e : StoreError}
    (h : Statement.bind connection.dialect query.countSql query.parameters = .error e)
    (decode : Row → Except StoreError α) (page size : UInt64) :
    runOn (query.fetch decode page size) connection =
      (.error (.storeFailure "count query failed" e), connection) := by
  apply Session.runOn_bind_of_error
  rw [Session.runOn_inContext, Session.runOn_count, h]
  rfl

/-- A page query whose count statement can be bound sends it before anything else. -/
theorem log_fetch_of_bound {statement : Statement}
    (h : Statement.bind connection.dialect query.countSql query.parameters = .ok statement)
    (decode : Row → Except StoreError α) (page size : UInt64) :
    connection.log ++ [⟨.queryOne, statement⟩] <+:
      (runOn (query.fetch decode page size) connection).2.log := by
  have hcount : (runOn ((Session.count query.countSql query.parameters).inContext
      "count query failed") connection).2 = connection.afterQuery .queryOne statement := by
    rw [Session.runOn_inContext, Session.runOn_count, h]
  have hlog : connection.log ++ [⟨.queryOne, statement⟩] =
      (connection.afterQuery .queryOne statement).log := rfl
  rw [hlog, ← hcount, fetch]
  apply KeepsLog.prefix_bind
  intro total
  split_ifs
  · exact .pure _
  · refine .bind (.inContext (.rows _ _ _) _) fun found => ?_
    exact .bind (.inContext (.liftM _) _) fun rows => .pure _

theorem keepsLog_fetch (query : PageQuery) (decode : Row → Except StoreError α)
    (page size : UInt64) : KeepsLog (query.fetch decode page size) := by
  intro connection
  cases h : Statement.bind connection.dialect query.countSql query.parameters with
  | error e =>
    have hlog : (runOn (query.fetch decode page size) connection).2.log = connection.log := by
      rw [runOn_fetch_of_unbound h]
    exact ⟨[], by rw [hlog, List.append_nil]⟩
  | ok statement =>
    exact (List.prefix_append _ _).trans (log_fetch_of_bound h decode page size)

end PageQuery

/-! ## Exchanges with a connection -/

/-- What a reply to a statement that counts comes to: the count in the first row, if it is
there and is not negative. -/
inductive Counted : Except StoreError (List Row) → Except StoreError UInt64 → Prop where
  | refused (e : StoreError) : Counted (.error e) (.error e)
  | noRow : Counted (.ok []) (.error .missingCount)
  | unreadable {row : Row} {rest : List Row}
      (value : ∀ count, row.value? countColumn ≠ some (.bigInt count)) :
      Counted (.ok (row :: rest)) (.error (.missingValue countColumn))
  | negative {row : Row} {rest : List Row} {count : Int64}
      (value : row.value? countColumn = some (.bigInt count)) (below : count < 0) :
      Counted (.ok (row :: rest)) (.error (.negativeCount count))
  | counted {row : Row} {rest : List Row} {count : Int64}
      (value : row.value? countColumn = some (.bigInt count)) (notBelow : ¬count < 0) :
      Counted (.ok (row :: rest)) (.ok count.toUInt64)

theorem Row.int_of_bigInt {row : Row} {column : String} {value : Int64}
    (h : row.value? column = some (.bigInt value)) : row.int column = .ok value := by
  rw [int, h]

theorem Row.int_of_no_bigInt {row : Row} {column : String}
    (h : ∀ value, row.value? column ≠ some (.bigInt value)) :
    row.int column = .error (.missingValue column) := by
  rw [int]
  split
  · next value hvalue => exact absurd hvalue (h value)
  · rfl

/-- Every reply comes to what is read from it, and to nothing else. -/
theorem counted_iff {reply : Except StoreError (List Row)} {outcome : Except StoreError UInt64} :
    Counted reply outcome ↔ reply >>= Session.countOf = outcome := by
  have hrow : ∀ (row : Row) (rest : List Row),
      (Except.ok (row :: rest) >>= Session.countOf) = (do
        let count ← row.int countColumn
        if count < 0 then .error (.negativeCount count) else .ok count.toUInt64) :=
    fun _ _ => rfl
  constructor
  · intro h
    cases h with
    | refused e => rfl
    | noRow => rfl
    | unreadable value => rw [hrow, Row.int_of_no_bigInt value]; rfl
    | negative value below => rw [hrow, Row.int_of_bigInt value]; exact if_pos below
    | counted value notBelow => rw [hrow, Row.int_of_bigInt value]; exact if_neg notBelow
  · rintro rfl
    cases reply with
    | error e => exact .refused e
    | ok rows =>
      cases rows with
      | nil => exact .noRow
      | cons row rest =>
        rw [hrow]
        by_cases hvalue : ∃ count, row.value? countColumn = some (.bigInt count)
        · obtain ⟨count, hcount⟩ := hvalue
          rw [Row.int_of_bigInt hcount]
          show Counted _ (if count < 0 then .error (.negativeCount count) else .ok count.toUInt64)
          split_ifs with below
          · exact .negative hcount below
          · exact .counted hcount below
        · rw [not_exists] at hvalue
          rw [Row.int_of_no_bigInt hvalue]
          exact .unreadable hvalue

namespace PageQuery

section Exchange

variable {α : Type} (query : PageQuery) (decode : Row → Except StoreError α) (page size : UInt64)
  (connection : Connection)

/-- What is sent for the rows of a page once they have been counted, and what it comes to.
The reply to it is the one behind the count. -/
inductive RowsExchange (total : UInt64) :
    List Sent → Except OperationError (Page α) → Prop where
  /-- The statement cannot be bound. -/
  | unbound {e : StoreError}
      (bound : Statement.bind connection.dialect
        (query.resultSql ++ (RowCut.ofPage page size).clause) query.parameters = .error e) :
      RowsExchange total [] (.error (.storeFailure "result query failed" e))
  /-- The reply is an error. -/
  | refused {statement : Statement} {e : StoreError}
      (bound : Statement.bind connection.dialect
        (query.resultSql ++ (RowCut.ofPage page size).clause) query.parameters = .ok statement)
      (reply : connection.reply 1 = .error e) :
      RowsExchange total [⟨.queryAll, statement⟩] (.error (.storeFailure "result query failed" e))
  /-- A row of the reply cannot be decoded, and those before it can. -/
  | undecoded {statement : Statement} {before : List Row} {row : Row} {behind : List Row}
      {e : StoreError}
      (bound : Statement.bind connection.dialect
        (query.resultSql ++ (RowCut.ofPage page size).clause) query.parameters = .ok statement)
      (reply : connection.reply 1 = .ok (before ++ row :: behind))
      (decoded : ∀ other ∈ before, ∃ a, decode other = .ok a) (undecoded : decode row = .error e) :
      RowsExchange total [⟨.queryAll, statement⟩] (.error (.storeFailure "row decoding failed" e))
  /-- Every row of the reply is decoded. -/
  | decoded {statement : Statement} {found : List Row} {rows : List α}
      (bound : Statement.bind connection.dialect
        (query.resultSql ++ (RowCut.ofPage page size).clause) query.parameters = .ok statement)
      (reply : connection.reply 1 = .ok found)
      (decoded : List.Forall₂ (fun row a => decode row = .ok a) found rows) :
      RowsExchange total [⟨.queryAll, statement⟩] (.ok ⟨total, rows⟩)

/-- What a fetch sends, and what it comes to. -/
inductive Exchange : List Sent → Except OperationError (Page α) → Prop where
  /-- The statement that counts cannot be bound. -/
  | unbound {e : StoreError}
      (bound : Statement.bind connection.dialect query.countSql query.parameters = .error e) :
      Exchange [] (.error (.storeFailure "count query failed" e))
  /-- The reply does not come to a count. -/
  | uncounted {statement : Statement} {e : StoreError}
      (bound : Statement.bind connection.dialect query.countSql query.parameters = .ok statement)
      (reply : Counted (connection.reply 0) (.error e)) :
      Exchange [⟨.queryOne, statement⟩] (.error (.storeFailure "count query failed" e))
  /-- The count is zero. -/
  | empty {statement : Statement}
      (bound : Statement.bind connection.dialect query.countSql query.parameters = .ok statement)
      (reply : Counted (connection.reply 0) (.ok 0)) :
      Exchange [⟨.queryOne, statement⟩] (.ok ⟨0, []⟩)
  /-- The count is not zero, and the rows are asked for. -/
  | counted {statement : Statement} {total : UInt64} {sent : List Sent}
      {outcome : Except OperationError (Page α)}
      (bound : Statement.bind connection.dialect query.countSql query.parameters = .ok statement)
      (reply : Counted (connection.reply 0) (.ok total)) (nonzero : total ≠ 0)
      (rows : RowsExchange query decode page size connection total sent outcome) :
      Exchange (⟨.queryOne, statement⟩ :: sent) outcome

/-- The part of a fetch behind a count that is not zero. -/
def fetchRows (total : UInt64) : Session OperationError (Page α) := do
  let found ← (Session.rows query.resultSql query.parameters (.ofPage page size)).inContext
    "result query failed"
  let decoding : Session StoreError (List α) := liftM (found.mapM decode)
  let rows ← decoding.inContext "row decoding failed"
  return ⟨total, rows⟩

theorem fetch_eq : query.fetch decode page size = (do
    let total ← (Session.count query.countSql query.parameters).inContext "count query failed"
    if total = 0 then return .empty else query.fetchRows decode page size total) := rfl

end Exchange

variable {α : Type} {query : PageQuery} {decode : Row → Except StoreError α}
  {page size : UInt64} {connection : Connection}

/-! ## Exchanges and runs -/

theorem RowsExchange.runOn_fetchRows {total : UInt64} {sent : List Sent}
    {outcome : Except OperationError (Page α)}
    (h : RowsExchange query decode page size connection total sent outcome) (first : Sent) :
    runOn (query.fetchRows decode page size total) (connection.after [first]) =
      (outcome, connection.after (first :: sent)) := by
  -- The dialect is the same behind the count, and the next reply is the second one.
  have hrows : ∀ statement, Statement.bind connection.dialect
      (query.resultSql ++ (RowCut.ofPage page size).clause) query.parameters = .ok statement →
      runOn ((Session.rows query.resultSql query.parameters (.ofPage page size)).inContext
        "result query failed") (connection.after [first]) =
        ((connection.reply 1).mapError (.storeFailure "result query failed"),
          connection.after [first, ⟨.queryAll, statement⟩]) := by
    intro statement bound
    have hbound : Statement.bind (connection.after [first]).dialect
        (query.resultSql ++ (RowCut.ofPage page size).clause) query.parameters =
          .ok statement := bound
    rw [Session.runOn_inContext, Session.runOn_rows_of_bound hbound, Connection.reply_after,
      Connection.after_after]
    rfl
  have hdecode : ∀ (found : List Row) (behind : Connection),
      runOn ((liftM (found.mapM decode) : Session StoreError (List α)).inContext
        "row decoding failed") behind =
        ((found.mapM decode).mapError (.storeFailure "row decoding failed"), behind) :=
    fun _ _ => rfl
  cases h with
  | unbound bound =>
    apply Session.runOn_bind_of_error
    have hbound : Statement.bind (connection.after [first]).dialect
        (query.resultSql ++ (RowCut.ofPage page size).clause) query.parameters =
          .error _ := bound
    rw [Session.runOn_inContext, Session.runOn_rows, hbound]
    rfl
  | refused bound reply =>
    apply Session.runOn_bind_of_error
    rw [hrows _ bound, reply]
    rfl
  | @undecoded _ before row behind _ bound reply decoded undecoded =>
    have hfails := mapM_eq_error_iff.mpr ⟨before, row, behind, rfl, decoded, undecoded⟩
    rw [fetchRows, Session.runOn_bind_of_ok (by rw [hrows _ bound, reply]; rfl)]
    apply Session.runOn_bind_of_error
    rw [hdecode, hfails]
    rfl
  | decoded bound reply decoded =>
    rw [fetchRows, Session.runOn_bind_of_ok (by rw [hrows _ bound, reply]; rfl)]
    rw [Session.runOn_bind_of_ok (by rw [hdecode, mapM_eq_ok_iff.mpr decoded]; rfl)]
    rfl

theorem Exchange.runOn_fetch {sent : List Sent} {outcome : Except OperationError (Page α)}
    (h : Exchange query decode page size connection sent outcome) :
    runOn (query.fetch decode page size) connection = (outcome, connection.after sent) := by
  have hcount : ∀ statement outcome,
      Statement.bind connection.dialect query.countSql query.parameters = .ok statement →
      Counted (connection.reply 0) outcome →
      runOn ((Session.count query.countSql query.parameters).inContext "count query failed")
        connection = (outcome.mapError (.storeFailure "count query failed"),
          connection.after [⟨.queryOne, statement⟩]) := by
    intro statement outcome bound reply
    rw [Session.runOn_inContext, Session.runOn_count_of_bound bound, counted_iff.mp reply]
  cases h with
  | unbound bound =>
    rw [runOn_fetch_of_unbound bound, connection.after_nil]
  | uncounted bound reply =>
    exact Session.runOn_bind_of_error (hcount _ _ bound reply) _
  | empty bound reply =>
    rw [fetch_eq, Session.runOn_bind_of_ok (hcount _ _ bound reply), if_pos rfl]
    rfl
  | counted bound reply nonzero rows =>
    rw [fetch_eq, Session.runOn_bind_of_ok (hcount _ _ bound reply), if_neg nonzero]
    exact rows.runOn_fetchRows _

theorem exists_rowsExchange (query : PageQuery) (decode : Row → Except StoreError α)
    (page size : UInt64) (connection : Connection) (total : UInt64) :
    ∃ sent outcome, RowsExchange query decode page size connection total sent outcome := by
  cases bound : Statement.bind connection.dialect
      (query.resultSql ++ (RowCut.ofPage page size).clause) query.parameters with
  | error e => exact ⟨_, _, .unbound bound⟩
  | ok statement =>
    cases reply : connection.reply 1 with
    | error e => exact ⟨_, _, .refused bound reply⟩
    | ok found =>
      cases hdecode : found.mapM decode with
      | error e =>
        obtain ⟨before, row, behind, rfl, hbefore, hrow⟩ := mapM_eq_error_iff.mp hdecode
        exact ⟨_, _, .undecoded bound reply hbefore hrow⟩
      | ok rows => exact ⟨_, _, .decoded bound reply (mapM_eq_ok_iff.mp hdecode)⟩

theorem exists_exchange (query : PageQuery) (decode : Row → Except StoreError α)
    (page size : UInt64) (connection : Connection) :
    ∃ sent outcome, Exchange query decode page size connection sent outcome := by
  cases bound : Statement.bind connection.dialect query.countSql query.parameters with
  | error e => exact ⟨_, _, .unbound bound⟩
  | ok statement =>
    have reply := counted_iff.mpr (rfl : connection.reply 0 >>= Session.countOf = _)
    cases hcount : connection.reply 0 >>= Session.countOf with
    | error e =>
      rw [hcount] at reply
      exact ⟨_, _, .uncounted bound reply⟩
    | ok total =>
      rw [hcount] at reply
      by_cases hzero : total = 0
      · rw [hzero] at reply
        exact ⟨_, _, .empty bound reply⟩
      · obtain ⟨sent, outcome, rows⟩ :=
          exists_rowsExchange query decode page size connection total
        exact ⟨_, _, .counted bound reply hzero rows⟩

/-- The count comes first, and at most the rows are asked for behind it. -/
theorem Exchange.calls {sent : List Sent} {outcome : Except OperationError (Page α)}
    (h : Exchange query decode page size connection sent outcome) :
    sent.map Sent.call <+: [.queryOne, .queryAll] := by
  cases h with
  | unbound bound => exact List.nil_prefix
  | uncounted bound reply => exact ⟨[.queryAll], rfl⟩
  | empty bound reply => exact ⟨[.queryAll], rfl⟩
  | counted bound reply nonzero rows =>
    cases rows with
    | unbound => exact ⟨[.queryAll], rfl⟩
    | refused => exact List.prefix_refl _
    | undecoded => exact List.prefix_refl _
    | decoded => exact List.prefix_refl _

end PageQuery

/-- **The exchange of a fetch with a connection.** Whatever the query, the page and the
replies are, a fetch comes to one outcome and leaves one connection behind exactly when
that is the outcome of an exchange, and the connection has been sent the statements of the
exchange and has used up one reply for each. The first of them counts, and there is at most
one behind it, which returns rows. -/
theorem runOn_fetch_iff_exchange {α : Type} (query : PageQuery)
    (decode : Row → Except StoreError α) (page size : UInt64)
    (connection behind : Connection) (outcome : Except OperationError (Page α)) :
    runOn (query.fetch decode page size) connection = (outcome, behind) ↔
      ∃ sent, sent.map Sent.call <+: [.queryOne, .queryAll] ∧
        query.Exchange decode page size connection sent outcome ∧
        behind = connection.after sent := by
  constructor
  · intro h
    obtain ⟨sent, other, hexchange⟩ := query.exists_exchange decode page size connection
    rw [hexchange.runOn_fetch] at h
    cases h
    exact ⟨sent, hexchange.calls, hexchange, rfl⟩
  · rintro ⟨sent, _, hexchange, rfl⟩
    exact hexchange.runOn_fetch

namespace Example

/-- A schema with a placeholder in the name of a column. -/
def colonColumn : Schema :=
  .build "codes" "CODES" [.column "code" "CODE:x"]

/-- A connection that counts one row and returns it. -/
def countAndRow : Connection where
  dialect := .sqlite
  queries := [.ok [[("cnt", .bigInt 1)]], .ok [[("CODE", .string (some "A"))]]]

end Example

/-- The column of a sort entry stands in the statement for the rows only. If it contains a
placeholder, a row is counted, and nothing is sent behind the count. -/
theorem fetch_sends_no_unbound_rows :
    ∃ query, PageQuery.compile Example.colonColumn {} "CODES" none [⟨"code", .ascending⟩] .empty =
        .ok query ∧
      Counted (Example.countAndRow.reply 0) (.ok 1) ∧
      runOn (query.fetch (fun row => row.text "CODE") 0 0) Example.countAndRow =
        (.error (.storeFailure "result query failed" (.unboundParameter "x")),
          { dialect := .sqlite
            queries := [.ok [[("CODE", .string (some "A"))]]]
            log := [⟨.queryOne, "SELECT count(*) AS cnt FROM CODES", []⟩] }) :=
  ⟨_, rfl, .counted rfl (by decide), rfl⟩

end FilterSql
