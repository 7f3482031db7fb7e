import FilterSql.Proofs.Repository.BaseParameters

/-!
# Rejected requests

An operation of a repository checks what it is asked for before it touches the connection,
and from then on it can fail because of the store only. So whether a request is rejected
does not depend on the connection, and a rejected request leaves no trace in a run.

Results:
* `Session.RejectsUpFront.of_check`: a check, followed by what fails because of the store
  only, rejects without a connection.
* `Operation.rejectsUpFront`: so does every operation of a repository.
* `Operation.log_behind`: the log of a connection is what one operation after the other
  has sent.
* `rejections_leave_no_trace`: the requests of a run that are rejected can be left out.
-/

namespace FilterSql

/-! ## Sessions that check first -/

namespace Session

variable {ε α β : Type}

/-- On every connection, the session can fail because of the store only. -/
def NeverRejects (session : Session OperationError α) : Prop :=
  ∀ connection e, (runOn session connection).1 = .error e → e.isRejection = false

/-- When the session rejects on one connection, it does so on every other, and leaves them
all as they are. -/
def RejectsUpFront (session : Session OperationError α) : Prop :=
  ∀ connection e, (runOn session connection).1 = .error e → e.isRejection = true →
    ∀ other, runOn session other = (.error e, other)

namespace NeverRejects

theorem pure (a : α) : NeverRejects (pure a) := by
  intro connection e h
  cases h

theorem inContext (context : String) (session : Session StoreError α) :
    NeverRejects (session.inContext context) := by
  intro connection e h
  rw [runOn_inContext] at h
  cases hrun : (runOn session connection).1 with
  | error cause =>
    rw [hrun] at h
    cases h
    rfl
  | ok a =>
    rw [hrun] at h
    cases h

theorem bind {session : Session OperationError α} {next : α → Session OperationError β}
    (h : NeverRejects session) (hnext : ∀ a, NeverRejects (next a)) :
    NeverRejects (session >>= next) := by
  intro connection e herror
  rw [runOn_bind] at herror
  rcases hrun : runOn session connection with ⟨outcome, behind⟩
  rw [hrun] at herror
  cases outcome with
  | error first =>
    cases herror
    exact h connection e (by rw [hrun])
  | ok a => exact hnext a behind e herror

end NeverRejects

/-- A check that needs no connection, followed by what can fail because of the store only. -/
theorem RejectsUpFront.of_check {check : Except OperationError α}
    {next : α → Session OperationError β} (hnext : ∀ a, NeverRejects (next a)) :
    RejectsUpFront (liftM check >>= next) := by
  intro connection e herror rejected other
  cases check with
  | error first =>
    have hfirst : ∀ connection, runOn (liftM (Except.error first) >>= next) connection =
        (.error first, connection) :=
      fun connection => runOn_bind_of_error (runOn_liftM _ connection) next
    rw [hfirst] at herror
    cases herror
    exact hfirst other
  | ok a =>
    rw [runOn_bind_of_ok (runOn_liftM _ connection)] at herror
    rw [hnext a connection e herror] at rejected
    cases rejected

end Session

open Session (runOn KeepsLog NeverRejects RejectsUpFront)

theorem PageQuery.neverRejects_fetch {α : Type} (query : PageQuery)
    (decode : Row → Except StoreError α) (page size : UInt64) :
    NeverRejects (query.fetch decode page size) := by
  refine .bind (.inContext _ _) fun total => ?_
  split_ifs
  · exact .pure _
  · refine .bind (.inContext _ _) fun found => ?_
    exact .bind (.inContext _ _) fun rows => .pure _

/-! ## Operations -/

/-- An operation on the rows of some entity, with what it is asked for. -/
inductive Operation where
  | rows {α : Type} (repository : Repository α) (request : PageRequest)
  | rowsFrom {α : Type} (repository : Repository α) (request : PageRequest) (base : String)
      (baseParameters : Parameters)
  | find {α : Type} (repository : Repository α) (key : Json)
  | delete {α : Type} (repository : Repository α) (key : Json)
  | deleteMany {α : Type} (repository : Repository α) (keys : List Json)

namespace Operation

/-- The type of what an operation returns. -/
def Result : Operation → Type
  | @rows α _ _ => Page α
  | @rowsFrom α _ _ _ _ => Page α
  | @find α _ _ => Option α
  | @delete _ _ _ => UInt64
  | @deleteMany _ _ _ => UInt64

/-- What an operation does on a connection. -/
def session : (operation : Operation) → Session OperationError operation.Result
  | .rows repository request => repository.rows request
  | .rowsFrom repository request base baseParameters =>
    repository.rowsFrom request base baseParameters
  | .find repository key => repository.find key
  | .delete repository key => repository.delete key
  | .deleteMany repository keys => repository.deleteMany keys

/-- No operation touches the connection before its last check. -/
theorem rejectsUpFront (operation : Operation) : RejectsUpFront operation.session := by
  cases operation with
  | rows repository request =>
    exact .of_check fun query => query.neverRejects_fetch _ _ _
  | rowsFrom repository request base baseParameters =>
    exact .of_check fun query => query.neverRejects_fetch _ _ _
  | find repository key =>
    refine .of_check fun column => .bind (.inContext _ _) fun found => ?_
    cases found with
    | nil => exact .pure _
    | cons row rest => exact .bind (.inContext _ _) fun a => .pure _
  | delete repository key =>
    exact .of_check fun column => .inContext _ _
  | deleteMany repository keys =>
    refine .of_check fun column => ?_
    split_ifs
    · exact .pure _
    · exact .inContext _ _

/-- No operation takes back what has been sent. -/
theorem keepsLog (operation : Operation) : KeepsLog operation.session := by
  cases operation with
  | rows repository request =>
    exact .bind (.liftM _) fun query => query.keepsLog_fetch _ _ _
  | rowsFrom repository request base baseParameters =>
    exact .bind (.liftM _) fun query => query.keepsLog_fetch _ _ _
  | find repository key =>
    refine .bind (.liftM _) fun column => .bind (.inContext (.rows _ _ _) _) fun found => ?_
    cases found with
    | nil => exact .pure _
    | cons row rest => exact .bind (.inContext (.liftM _) _) fun a => .pure _
  | delete repository key =>
    exact .bind (.liftM _) fun column => .inContext (.update _ _) _
  | deleteMany repository keys =>
    refine .bind (.liftM _) fun column => ?_
    split_ifs
    · exact .pure _
    · exact .inContext (.update _ _) _

end Operation

/-! ## Runs -/

/-- What an operation has come to on a connection. -/
structure Outcome where
  operation : Operation
  result : Except OperationError operation.Result
  /-- The statements that the operation has sent. -/
  sent : List Sent
  /-- The connection behind the operation. -/
  behind : Connection

namespace Outcome

/-- Has the request been rejected? -/
def isRejected (outcome : Outcome) : Bool :=
  match outcome.result with
  | .ok _ => false
  | .error e => e.isRejection

theorem exists_of_isRejected {outcome : Outcome} (h : outcome.isRejected = true) :
    ∃ e, outcome.result = .error e ∧ e.isRejection = true := by
  rw [isRejected] at h
  cases hresult : outcome.result with
  | ok a => rw [hresult] at h; cases h
  | error e =>
    rw [hresult] at h
    exact ⟨e, rfl, h⟩

end Outcome

namespace Operation

/-- What an operation comes to on a connection. -/
def outcome (operation : Operation) (connection : Connection) : Outcome :=
  let run := runOn operation.session connection
  ⟨operation, run.1, run.2.log.drop connection.log.length, run.2⟩

/-- What an operation sends comes behind all that has been sent before. -/
theorem log_behind (operation : Operation) (connection : Connection) :
    (operation.outcome connection).behind.log =
      connection.log ++ (operation.outcome connection).sent := by
  obtain ⟨sent, hsent⟩ := operation.keepsLog connection
  have houtcome : (operation.outcome connection).sent = sent := by
    rw [outcome, ← hsent, List.drop_left]
  rw [houtcome]
  exact hsent.symm

/-- What operations come to one after the other, and the connection behind them. -/
def run : List Operation → Connection → List Outcome × Connection
  | [], connection => ([], connection)
  | operation :: rest, connection =>
    let first := operation.outcome connection
    let others := run rest first.behind
    (first :: others.1, others.2)

/-- The operations of a run that are not rejected. -/
def accepted (operations : List Operation) (connection : Connection) : List Operation :=
  ((run operations connection).1.filter fun outcome => !outcome.isRejected).map Outcome.operation

/-- A rejected request leaves the connection as it is. -/
theorem behind_of_isRejected {operation : Operation} {connection : Connection}
    (h : (operation.outcome connection).isRejected = true) :
    (operation.outcome connection).behind = connection := by
  obtain ⟨e, herror, rejected⟩ := Outcome.exists_of_isRejected h
  have hrun := operation.rejectsUpFront connection e herror rejected connection
  show (runOn operation.session connection).2 = connection
  rw [hrun]

theorem run_cons (operation : Operation) (rest : List Operation) (connection : Connection) :
    run (operation :: rest) connection =
      (operation.outcome connection :: (run rest (operation.outcome connection).behind).1,
        (run rest (operation.outcome connection).behind).2) := rfl

theorem accepted_cons (operation : Operation) (rest : List Operation) (connection : Connection) :
    accepted (operation :: rest) connection =
      if (operation.outcome connection).isRejected then accepted rest connection
      else operation :: accepted rest (operation.outcome connection).behind := by
  rw [accepted, run_cons, List.filter_cons]
  split_ifs with kept rejected rejected
  · simp [rejected] at kept
  · rfl
  · rw [behind_of_isRejected rejected, accepted]
  · simp [rejected] at kept

/-- Without the requests that are rejected, a run comes to the same. -/
theorem run_accepted (operations : List Operation) (connection : Connection) :
    run (accepted operations connection) connection =
      ((run operations connection).1.filter (fun outcome => !outcome.isRejected),
        (run operations connection).2) := by
  induction operations generalizing connection with
  | nil => rfl
  | cons operation rest ih =>
    have hrest := ih (operation.outcome connection).behind
    rw [accepted_cons, run_cons, List.filter_cons]
    split_ifs with rejected kept kept
    · simp [rejected] at kept
    · rw [behind_of_isRejected rejected] at hrest ⊢
      exact hrest
    · rw [run_cons, hrest]
    · simp [rejected] at kept

end Operation

/-- **Rejected requests leave no trace.** An operation of a repository that is rejected on
one connection is rejected for the same reason on every other, and leaves each of them as
it is. So in a run of operations on one connection, the results, the statements sent and
the connections behind all the operations that are not rejected stay the same when those
that are rejected are left out. -/
theorem rejections_leave_no_trace :
    (∀ (operation : Operation) (connection : Connection) (e : OperationError),
      (runOn operation.session connection).1 = .error e → e.isRejection = true →
        ∀ other, runOn operation.session other = (.error e, other)) ∧
    ∀ (operations : List Operation) (connection : Connection),
      Operation.run (Operation.accepted operations connection) connection =
        ((Operation.run operations connection).1.filter (fun outcome => !outcome.isRejected),
          (Operation.run operations connection).2) :=
  ⟨Operation.rejectsUpFront, Operation.run_accepted⟩

namespace Example

/-- A deletion by key from a table without a key, and a request for all rows. -/
def deletionAndRows : List Operation :=
  [.delete codes (.string "A"), .rows codes {}]

end Example

/-- The deletion is rejected on every connection, and the rows come as if nobody had asked
for it. -/
theorem deletion_leaves_no_trace :
    (∀ other, runOn (Operation.delete Example.codes (.string "A")).session other =
      (.error (.unmappedField "CODES" "id"), other)) ∧
    Operation.run [.rows Example.codes {}] Example.oneRow =
      ((Operation.run Example.deletionAndRows Example.oneRow).1.filter
          (fun outcome => !outcome.isRejected),
        (Operation.run Example.deletionAndRows Example.oneRow).2) := by
  obtain ⟨hrejection, hrun⟩ := rejections_leave_no_trace
  have haccepted : Operation.accepted Example.deletionAndRows Example.oneRow =
      [.rows Example.codes {}] := rfl
  have hrest := hrun Example.deletionAndRows Example.oneRow
  rw [haccepted] at hrest
  exact ⟨hrejection _ Example.oneRow _ rfl rfl, hrest⟩

end FilterSql
