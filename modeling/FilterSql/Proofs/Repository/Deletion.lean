import FilterSql.Proofs.Repository.Keys
import FilterSql.Proofs.Repository.Rejections

/-!
# Deletion

Rows are deleted by key only: by one key, or by a list of keys. A list without keys deletes
nothing and sends nothing, so that no deletion is ever sent without a key to restrict it.

Results:
* `Operation.sendsOnly`: the data-modifying statements of an operation are deletions by key.
* `Operation.log_run`: what a run sends is what its operations send.
* `deletion_touches_listed_keys`: what a deletion by a list of keys does, and that every
  deletion of a run is restricted to keys.
-/

namespace FilterSql

open Session (runOn SendsOnly)
open Statement (marks)

/-! ## Specification -/

/-- A statement deletes rows by key. The restriction to a list of keys has a placeholder for
each of them, and there is at least one. -/
inductive DeletesByKey (schema : Schema) (dialect : Dialect) : Statement → Prop where
  | one {column : String} (keyed : schema.keyColumn? = some column) (key : Json) :
      DeletesByKey schema dialect
        ⟨schema.deletionBy column (marks dialect 0 (BoundValue.listOfJson key)),
          BoundValue.listOfJson key⟩
  | listed {column : String} (keyed : schema.keyColumn? = some column) {keys : List Json}
      (nonempty : keys ≠ []) :
      DeletesByKey schema dialect
        ⟨schema.deletionByAny column
            (", ".intercalate ((List.range' 1 keys.length).map dialect.mark)),
          keys.map .ofJson⟩

/-! ## What operations send -/

/-- A statement that changes rows is a deletion by key. -/
def ChangesByKey (schema : Schema) (dialect : Dialect) (sent : Sent) : Prop :=
  sent.call = .execute → DeletesByKey schema dialect sent.statement

theorem PageQuery.sendsOnly_fetch {α : Type} (schema : Schema) (query : PageQuery)
    (decode : Row → Except StoreError α) (page size : UInt64) :
    SendsOnly (ChangesByKey schema) (query.fetch decode page size) := by
  refine .bind (.inContext (.count fun _ _ _ hcall => nomatch hcall) _) fun total => ?_
  split_ifs
  · exact .pure _
  · refine .bind (.inContext (.rows fun _ _ _ hcall => nomatch hcall) _) fun found => ?_
    exact .bind (.inContext (.liftM _) _) fun rows => .pure _

/-- What comes behind the look-up of the key column is done with the key column only. -/
theorem Schema.sendsOnly_of_key {α : Type} {P : Dialect → Sent → Prop} {schema : Schema}
    {next : String → Session OperationError α}
    (h : ∀ column, schema.keyColumn? = some column → SendsOnly P (next column)) :
    SendsOnly P (liftM schema.resolveKey >>= next) := by
  cases hkey : schema.keyColumn? with
  | none =>
    refine .of_unchanged fun connection => ?_
    rw [resolveKey, hkey]
    rfl
  | some column =>
    intro connection
    rw [resolveKey_of_keyed hkey, Session.runOn_bind_of_ok (Session.runOn_liftM _ _)]
    exact h column hkey connection

/-- The placeholders of a list of keys that is not empty. -/
theorem marks_keys {keys : List Json} (nonempty : keys ≠ []) (dialect : Dialect) :
    marks dialect 0 (keys.map .ofJson) =
      ", ".intercalate ((List.range' 1 keys.length).map dialect.mark) := by
  rw [Statement.marks_eq, if_neg (mt List.map_eq_nil_iff.mp nonempty), List.length_map]

namespace Operation

/-- The schema of the entity of an operation. -/
def schema : Operation → Schema
  | .rows repository _ | .rowsFrom repository _ _ _ | .find repository _
  | .delete repository _ | .deleteMany repository _ => repository.schema

/-- The data-modifying statements of an operation are deletions by key. -/
theorem sendsOnly {operation : Operation} (inert : operation.schema.HasInertKey) :
    SendsOnly (ChangesByKey operation.schema) operation.session := by
  cases operation with
  | rows repository request =>
    exact .bind (.liftM _) fun query => query.sendsOnly_fetch _ _ _ _
  | rowsFrom repository request base baseParameters =>
    exact .bind (.liftM _) fun query => query.sendsOnly_fetch _ _ _ _
  | find repository key =>
    refine .bind (.liftM _) fun column => ?_
    refine .bind (.inContext (.rows fun _ _ _ hcall => nomatch hcall) _) fun found => ?_
    cases found with
    | nil => exact .pure _
    | cons row rest => exact .bind (.inContext (.liftM _) _) fun a => .pure _
  | delete repository key =>
    have inert : repository.schema.HasInertKey := inert
    refine Schema.sendsOnly_of_key fun column keyed => .inContext (.update ?_) _
    intro dialect statement hbind
    rw [bind_deletion inert keyed] at hbind
    cases hbind
    exact fun _ => .one keyed key
  | deleteMany repository keys =>
    have inert : repository.schema.HasInertKey := inert
    refine Schema.sendsOnly_of_key fun column keyed => ?_
    split_ifs with hempty
    · exact .pure _
    · refine .inContext (.update fun dialect statement hbind _ => ?_) _
      rw [bind_deletionOfAny inert keyed] at hbind
      cases hbind
      have nonempty := mt List.isEmpty_iff.mpr hempty
      rw [marks_keys nonempty]
      exact .listed keyed nonempty

/-- What one operation sends, and the dialect behind it. -/
theorem sent_outcome {operation : Operation} (inert : operation.schema.HasInertKey)
    (connection : Connection) :
    (operation.outcome connection).behind.dialect = connection.dialect ∧
      ∀ sent ∈ (operation.outcome connection).sent,
        ChangesByKey operation.schema connection.dialect sent := by
  obtain ⟨hdialect, sent, hlog, hsent⟩ := sendsOnly inert connection
  have houtcome : (operation.outcome connection).sent = sent := by
    rw [outcome, hlog, List.drop_left]
  rw [houtcome]
  exact ⟨hdialect, hsent⟩

/-- What operations send one after the other is what is behind them in the log. -/
theorem log_run (operations : List Operation) (connection : Connection) :
    (run operations connection).2.log =
      connection.log ++ (run operations connection).1.flatMap Outcome.sent := by
  induction operations generalizing connection with
  | nil => exact (List.append_nil _).symm
  | cons operation rest ih =>
    rw [run_cons, List.flatMap_cons, ← List.append_assoc, ← log_behind]
    exact ih _

/-- The data-modifying statements of a run are deletions by key, each of them by the key of
the entity that its operation is on. -/
theorem sent_run {operations : List Operation}
    (inert : ∀ operation ∈ operations, operation.schema.HasInertKey) (connection : Connection) :
    ∀ outcome ∈ (run operations connection).1, ∀ sent ∈ outcome.sent,
      ChangesByKey outcome.operation.schema connection.dialect sent := by
  induction operations generalizing connection with
  | nil => exact fun outcome member => nomatch member
  | cons operation rest ih =>
    obtain ⟨hdialect, hfirst⟩ := sent_outcome (inert operation List.mem_cons_self) connection
    have hrest := ih (fun other member => inert other (List.mem_cons_of_mem _ member))
      (operation.outcome connection).behind
    rw [hdialect] at hrest
    intro outcome member
    rw [run_cons] at member
    rcases List.mem_cons.mp member with rfl | member
    · exact hfirst
    · exact hrest outcome member

end Operation

/-! ## Deletions -/

/-- **A deletion touches the listed keys and nothing else.** Let the table and the key column
be inert. Without a key column a deletion by a list of keys is rejected and nothing is sent,
even if the list is empty. With one, an empty list deletes nothing and sends nothing. Any
other list is sent in one data-modifying statement, with one placeholder and one value for
each key in the order of the list; the outcome is the number of rows in the reply, or its
error. And in every run of operations, what changes rows is a deletion by key. -/
theorem deletion_touches_listed_keys :
    (∀ {α : Type} (repository : Repository α), repository.schema.HasInertKey →
      ∀ (keys : List Json) (connection : Connection),
        (repository.schema.keyColumn? = none →
          runOn (repository.deleteMany keys) connection =
            (.error (.unmappedField repository.schema.name "id"), connection)) ∧
        ∀ column, repository.schema.keyColumn? = some column →
          (keys = [] → runOn (repository.deleteMany keys) connection = (.ok 0, connection)) ∧
          (keys ≠ [] →
            (runOn (repository.deleteMany keys) connection).2 =
              connection.afterExecution
                ⟨"DELETE FROM " ++ repository.schema.table ++ " WHERE " ++ column ++ " IN (" ++
                    ", ".intercalate ((List.range' 1 keys.length).map connection.dialect.mark) ++
                    ")",
                  keys.map .ofJson⟩ ∧
            (∀ count, connection.executionReply = .ok count →
              (runOn (repository.deleteMany keys) connection).1 = .ok count) ∧
            ∀ e, connection.executionReply = .error e →
              (runOn (repository.deleteMany keys) connection).1 =
                .error (.storeFailure "delete failed" e))) ∧
    ∀ (operations : List Operation),
      (∀ operation ∈ operations, operation.schema.HasInertKey) → ∀ connection,
        (Operation.run operations connection).2.log =
          connection.log ++ (Operation.run operations connection).1.flatMap Outcome.sent ∧
        ∀ outcome ∈ (Operation.run operations connection).1, ∀ sent ∈ outcome.sent,
          sent.call = .execute →
            DeletesByKey outcome.operation.schema connection.dialect sent.statement := by
  refine ⟨fun repository inert keys connection => ⟨fun keyless => ?_, fun column keyed =>
    ⟨fun hempty => ?_, fun nonempty => ?_⟩⟩, fun operations inert connection => ?_⟩
  · exact Repository.runOn_deleteMany_of_keyless keyless keys connection
  · rw [Repository.runOn_deleteMany_of_keyed inert keyed, if_pos hempty]
  · rw [Repository.runOn_deleteMany_of_keyed inert keyed, if_neg nonempty, marks_keys nonempty]
    refine ⟨rfl, fun count hreply => ?_, fun e hreply => ?_⟩
    · rw [hreply]
      rfl
    · rw [hreply]
      rfl
  · exact ⟨Operation.log_run operations connection, Operation.sent_run inert connection⟩

namespace Example

/-- A connection that deletes two rows, once. -/
def twoDeleted : Connection where
  dialect := .postgres
  executions := [.ok 2]

/-- A look-up and two deletions. -/
def lookupAndDeletions : List Operation :=
  [.find parcels (.string "A"), .deleteMany parcels [.string "A", .array [.bool true]],
    .delete parcels (.array [])]

end Example

/-- Deletions of no keys, of two keys, without a key column and without a reply, and a run
with an empty list as a key. -/
theorem deletion_of_two_parcels :
    runOn (Example.parcels.deleteMany []) Example.twoDeleted = (.ok 0, Example.twoDeleted) ∧
    (runOn (Example.parcels.deleteMany [.string "A", .array [.bool true]])
      Example.twoDeleted).2.log =
        [⟨.execute, "DELETE FROM depot.PARCELS WHERE PARCEL_NO IN ($1, $2)",
          [.string (some "A"), .string (some "[true]")]⟩] ∧
    (runOn (Example.parcels.deleteMany [.string "A", .array [.bool true]])
      Example.twoDeleted).1 = .ok 2 ∧
    (runOn (Example.parcels.deleteMany [.null]) Example.silent).1 =
      .error (.storeFailure "delete failed" .noExecutionReply) ∧
    runOn (Example.codes.deleteMany []) Example.twoDeleted =
      (.error (.unmappedField "CODES" "id"), Example.twoDeleted) ∧
    ∀ outcome ∈ (Operation.run Example.lookupAndDeletions Example.twoDeleted).1,
      ∀ sent ∈ outcome.sent, sent.call = .execute →
        DeletesByKey outcome.operation.schema .postgres sent.statement := by
  obtain ⟨hdeletion, hrun⟩ := deletion_touches_listed_keys
  have hparcels := hdeletion Example.parcels Example.hasInertKey_parcels
  obtain ⟨-, hkeyed⟩ := hparcels [.string "A", .array [.bool true]] Example.twoDeleted
  obtain ⟨hbehind, hcount, -⟩ := (hkeyed _ rfl).2 (by simp)
  have hcodes : Example.codes.schema.HasInertKey := ⟨by decide, nofun⟩
  refine ⟨((hparcels [] _).2 _ rfl).1 rfl, congrArg Connection.log hbehind, hcount 2 rfl,
    (((hparcels [.null] Example.silent).2 _ rfl).2 (by simp)).2.2 _ rfl,
    (hdeletion Example.codes hcodes [] _).1 rfl, (hrun _ ?_ Example.twoDeleted).2⟩
  intro operation member
  have hschema : operation.schema = Example.parcels.schema := by
    rcases List.mem_cons.mp member with rfl | member
    · rfl
    · rcases List.mem_pair.mp member with rfl | rfl <;> rfl
  rw [hschema]
  exact Example.hasInertKey_parcels

end FilterSql
