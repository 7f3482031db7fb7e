import Mathlib.Algebra.Order.BigOperators.Group.List
import FilterSql.Json.Printer
import FilterSql.Proofs.Repository.BaseParameters

/-!
# Access by key

A key that comes with a request is bound to one placeholder, and the statement around it is
fixed. But a placeholder is written out as its value says, and a key may be any JSON value:
a list is written as one placeholder for each element, also behind an equals sign.

Results:
* `BoundValue.ofJson_ne_of_singleton`: a list of one element and its element are different
  values for a store.
* `bind_at_key`: what a placeholder behind the name of the key column is bound to.
* `Repository.behind_find_of_keyed`, `Repository.runOn_delete_of_keyed`,
  `Repository.runOn_deleteMany_of_keyed`: what access by key does on a connection.
* `key_is_one_value_iff`: a key is compared as one value exactly when it is no list.
* `list_key_is_expanded`: a look-up that compares the key column with two values.
-/

namespace FilterSql

open Session (runOn)
open Statement (marks)

/-! ## Specification -/

/-- The table and the key column mean nothing to a template. -/
structure Schema.HasInertKey (schema : Schema) : Prop where
  table : IsInertText schema.table
  key : ∀ column, schema.keyColumn? = some column → IsInertText column

/-- The statement that finds the row with a key, with placeholders for the key. -/
def Schema.lookupBy (schema : Schema) (column placeholders : String) : String :=
  "SELECT * FROM " ++ schema.table ++ " WHERE " ++ column ++ " = " ++ placeholders ++
    " LIMIT 1 OFFSET 0"

/-- The statement that deletes the row with a key, with placeholders for the key. -/
def Schema.deletionBy (schema : Schema) (column placeholders : String) : String :=
  "DELETE FROM " ++ schema.table ++ " WHERE " ++ column ++ " = " ++ placeholders

/-- The statement that deletes the rows with any of some keys, with placeholders for the
keys. -/
def Schema.deletionByAny (schema : Schema) (column placeholders : String) : String :=
  "DELETE FROM " ++ schema.table ++ " WHERE " ++ column ++ " IN (" ++ placeholders ++ ")"

/-! ## Lists as values -/

theorem Json.one_le_length_escape (c : Char) : 1 ≤ (escape c).length := by
  unfold escape
  split
  case h_8 => split_ifs <;> simp
  all_goals simp

theorem Json.length_le_length_quote (text : String) : text.length ≤ (quote text).length := by
  have hwritten : text.toList.length ≤ (text.toList.flatMap escape).length := by
    have hsum := List.length_le_sum_of_one_le (text.toList.map fun c => (escape c).length)
      (List.forall_mem_map.mpr fun c _ => one_le_length_escape c)
    rwa [List.length_map, ← List.length_flatMap] at hsum
  rw [quote, String.length_ofList, ← String.length_toList]
  simp only [List.length_append, List.length_cons]
  omega

/-- A value that is sent as a text is not longer than it is in JSON. -/
theorem BoundValue.length_le_of_ofJson {value : Json} {text : String}
    (h : ofJson value = .string (some text)) : text.length ≤ value.text.length := by
  cases value with
  | null => cases h
  | bool value => cases h
  | number number =>
    cases number with
    | integer integer isWord =>
      rw [ofJson] at h
      split_ifs at h
    | float value => cases h
  | string value =>
    cases h
    rw [Json.text]
    exact Json.length_le_length_quote text
  | array items =>
    cases h
    exact le_rfl
  | object members =>
    cases h
    exact le_rfl

/-- The element of a list and the list are different values for a store. -/
theorem BoundValue.ofJson_ne_of_singleton (item : Json) :
    ofJson item ≠ ofJson (.array [item]) := by
  intro h
  have hlength := length_le_of_ofJson h
  rw [Json.text, Json.itemsText, String.length_append, String.length_append] at hlength
  have hbrackets : "[".length + "]".length = 2 := rfl
  omega

/-- A value is sent as itself exactly when it is no list. -/
theorem BoundValue.listOfJson_eq_singleton_iff (value : Json) :
    listOfJson value = [ofJson value] ↔ value.isArray = false := by
  constructor
  · intro h
    cases value with
    | array items =>
      rw [listOfJson] at h
      obtain ⟨item, rfl, hitem⟩ := List.map_eq_singleton_iff.mp h
      exact absurd hitem (ofJson_ne_of_singleton item)
    | _ => rfl
  · exact listOfJson_of_not_isArray

/-! ## Statements that are restricted to keys -/

/-- Behind the name of the key column, a placeholder is written out as its value says. -/
theorem bind_at_key {schema : Schema} {column : String} (inert : schema.HasInertKey)
    (keyed : schema.keyColumn? = some column) {verb sign name tail : String}
    (hverb : IsInertText verb) (hsign : IsInertText sign)
    (hname : Text.isIdentifier name = true) (hsep : Template.Separated tail.toList)
    (htail : ':' ∉ tail.toList) (dialect : Dialect) (value : Json) :
    Statement.bind dialect
        (verb ++ schema.table ++ " WHERE " ++ column ++ sign ++ (":" ++ name) ++ tail)
        (.ofList [(name, value)]) =
      .ok ⟨verb ++ schema.table ++ " WHERE " ++ column ++ sign ++
          marks dialect 0 (BoundValue.listOfJson value) ++ tail,
        BoundValue.listOfJson value⟩ := by
  have hhead : IsInertText (verb ++ schema.table ++ " WHERE " ++ column ++ sign) :=
    (((hverb.append inert.table).append (by decide)).append (inert.key column keyed)).append hsign
  exact Statement.bind_placeholder_enclosed hhead hname hsep htail dialect value

section Bound

variable {schema : Schema} {column : String} (inert : schema.HasInertKey)
  (keyed : schema.keyColumn? = some column) (dialect : Dialect)

include inert keyed

theorem bind_lookup (key : Json) :
    Statement.bind dialect
        ("SELECT * FROM " ++ schema.table ++ " WHERE " ++ column ++ " = :id" ++
          RowCut.clause ⟨some 1, 0⟩)
        (.ofList [("id", key)]) =
      .ok ⟨schema.lookupBy column (marks dialect 0 (BoundValue.listOfJson key)),
        BoundValue.listOfJson key⟩ := by
  have hsign : " = :id" = " = " ++ (":" ++ "id") := rfl
  have hcut : RowCut.clause ⟨some 1, 0⟩ = " LIMIT 1 OFFSET 0" := rfl
  rw [hsign, hcut, ← String.append_assoc]
  exact bind_at_key inert keyed (by decide) (by decide) (by decide) (by decide) (by decide)
    dialect key

theorem bind_deletion (key : Json) :
    Statement.bind dialect
        ("DELETE FROM " ++ schema.table ++ " WHERE " ++ column ++ " = :id")
        (.ofList [("id", key)]) =
      .ok ⟨schema.deletionBy column (marks dialect 0 (BoundValue.listOfJson key)),
        BoundValue.listOfJson key⟩ := by
  have hsign : " = :id" = " = " ++ (":" ++ "id") := rfl
  -- Nothing stands behind this placeholder, so the tail is the empty text.
  have hbind := bind_at_key inert keyed (show IsInertText "DELETE FROM " by decide)
    (show IsInertText " = " by decide) (show Text.isIdentifier "id" = true by decide)
    (show Template.Separated "".toList by decide) (by decide) dialect key
  rw [String.append_empty, String.append_empty] at hbind
  rw [hsign, ← String.append_assoc]
  exact hbind

theorem bind_deletionOfAny (keys : List Json) :
    Statement.bind dialect
        ("DELETE FROM " ++ schema.table ++ " WHERE " ++ column ++ " IN (:ids)")
        (.ofList [("ids", .array keys)]) =
      .ok ⟨schema.deletionByAny column (marks dialect 0 (keys.map .ofJson)),
        keys.map .ofJson⟩ := by
  have hsign : " IN (:ids)" = " IN (" ++ (":" ++ "ids") ++ ")" := rfl
  rw [hsign, ← String.append_assoc, ← String.append_assoc]
  exact bind_at_key inert keyed (by decide) (by decide) (by decide) (by decide) (by decide)
    dialect (.array keys)

end Bound

/-! ## Access by key on a connection -/

theorem Schema.resolveKey_of_keyed {schema : Schema} {column : String}
    (keyed : schema.keyColumn? = some column) : schema.resolveKey = .ok column := by
  rw [resolveKey, keyed]

namespace Repository

variable {α : Type} {repository : Repository α} {column : String}

/-- Without a key column nothing is sent, whatever the keys are. -/
theorem runOn_deleteMany_of_keyless (keyless : repository.schema.keyColumn? = none)
    (keys : List Json) (connection : Connection) :
    runOn (repository.deleteMany keys) connection =
      (.error (.unmappedField repository.schema.name "id"), connection) := by
  apply Session.runOn_bind_of_error
  rw [Session.runOn_liftM, Schema.resolveKey, keyless]
  rfl

section Keyed

variable (inert : repository.schema.HasInertKey)
  (keyed : repository.schema.keyColumn? = some column) (connection : Connection)

include inert keyed

/-- A look-up sends one query. -/
theorem behind_find_of_keyed (key : Json) :
    (runOn (repository.find key) connection).2 =
      connection.afterQuery .queryAll
        ⟨repository.schema.lookupBy column
          (marks connection.dialect 0 (BoundValue.listOfJson key)),
          BoundValue.listOfJson key⟩ := by
  rw [find, Schema.resolveKey_of_keyed keyed, Session.runOn_bind_of_ok (Session.runOn_liftM _ _),
    Session.behind_bind_of_unchanged, Session.runOn_inContext, Session.runOn_rows,
    bind_lookup inert keyed]
  -- The row is decoded without the connection.
  intro found behind
  cases found with
  | nil => rfl
  | cons row rest => exact Session.behind_bind_of_unchanged (fun _ _ => rfl) _ _

/-- A deletion by one key sends one data-modifying statement. -/
theorem runOn_delete_of_keyed (key : Json) :
    runOn (repository.delete key) connection =
      (connection.executionReply.mapError (.storeFailure "delete failed"),
        connection.afterExecution
          ⟨repository.schema.deletionBy column
            (marks connection.dialect 0 (BoundValue.listOfJson key)),
            BoundValue.listOfJson key⟩) := by
  rw [delete, Schema.resolveKey_of_keyed keyed,
    Session.runOn_bind_of_ok (Session.runOn_liftM _ _), Session.runOn_inContext,
    Session.runOn_update_of_bound (bind_deletion inert keyed _ _)]

/-- A deletion by a list of keys sends one data-modifying statement, unless the list is
empty. -/
theorem runOn_deleteMany_of_keyed (keys : List Json) :
    runOn (repository.deleteMany keys) connection =
      if keys = [] then (.ok 0, connection)
      else
        (connection.executionReply.mapError (.storeFailure "delete failed"),
          connection.afterExecution
            ⟨repository.schema.deletionByAny column
              (marks connection.dialect 0 (keys.map .ofJson)), keys.map .ofJson⟩) := by
  rw [deleteMany, Schema.resolveKey_of_keyed keyed,
    Session.runOn_bind_of_ok (Session.runOn_liftM _ _)]
  simp only [List.isEmpty_iff]
  split_ifs with hempty
  · rfl
  · rw [Session.runOn_inContext,
      Session.runOn_update_of_bound (bind_deletionOfAny inert keyed _ _)]

end Keyed

end Repository

/-! ## Keys as one value -/

theorem Connection.afterQuery_inj {connection : Connection} {call : Call}
    {statement other : Statement} :
    connection.afterQuery call statement = connection.afterQuery call other ↔
      statement = other := by
  simp [afterQuery]

theorem Connection.afterExecution_inj {connection : Connection} {statement other : Statement} :
    connection.afterExecution statement = connection.afterExecution other ↔
      statement = other := by
  simp [afterExecution]

/-- The placeholders and the values of a key are those of one value exactly when the key is
no list. -/
theorem statement_eq_iff_not_isArray (write : String → String) (dialect : Dialect) (key : Json) :
    (⟨write (marks dialect 0 (BoundValue.listOfJson key)), BoundValue.listOfJson key⟩ : Statement) =
        ⟨write (dialect.mark 1), [.ofJson key]⟩ ↔
      key.isArray = false := by
  rw [← BoundValue.listOfJson_eq_singleton_iff]
  constructor
  · intro h
    exact congrArg Statement.values h
  · intro h
    rw [h, Statement.marks_singleton]

/-- **A key is compared as one value unless it is a list.** Let the table and the key column
be inert. A look-up and a deletion by key each send one statement, in which the placeholders
of the key stand behind the equals sign. They are a single placeholder, with the key as its
value, exactly when the key is no list: a list is written as one placeholder for each
element, or as `NULL`. -/
theorem key_is_one_value_iff {α : Type} {repository : Repository α}
    (inert : repository.schema.HasInertKey) {column : String}
    (keyed : repository.schema.keyColumn? = some column) (key : Json) (connection : Connection) :
    ((runOn (repository.find key) connection).2 =
        connection.afterQuery .queryAll
          ⟨repository.schema.lookupBy column
            (marks connection.dialect 0 (BoundValue.listOfJson key)),
            BoundValue.listOfJson key⟩ ∧
      (runOn (repository.delete key) connection).2 =
        connection.afterExecution
          ⟨repository.schema.deletionBy column
            (marks connection.dialect 0 (BoundValue.listOfJson key)),
            BoundValue.listOfJson key⟩) ∧
    ((runOn (repository.find key) connection).2 =
        connection.afterQuery .queryAll
          ⟨repository.schema.lookupBy column (connection.dialect.mark 1), [.ofJson key]⟩ ↔
      key.isArray = false) ∧
    ((runOn (repository.delete key) connection).2 =
        connection.afterExecution
          ⟨repository.schema.deletionBy column (connection.dialect.mark 1), [.ofJson key]⟩ ↔
      key.isArray = false) := by
  have hfind := repository.behind_find_of_keyed inert keyed connection key
  have hdelete := congrArg Prod.snd (repository.runOn_delete_of_keyed inert keyed connection key)
  refine ⟨⟨hfind, hdelete⟩, ?_, ?_⟩
  · rw [hfind, Connection.afterQuery_inj]
    exact statement_eq_iff_not_isArray (repository.schema.lookupBy column) connection.dialect key
  · rw [hdelete, Connection.afterExecution_inj]
    exact statement_eq_iff_not_isArray (repository.schema.deletionBy column) connection.dialect key

namespace Example

/-- The repository of a table with a key. -/
def parcels : Repository String where
  entity := {
    table := "PARCELS"
    catalog := some "depot"
    columns := [{ field := "number", column := some "PARCEL_NO", key := true }]
    decode := fun row => row.text "PARCEL_NO" }
  config := { stem := "key" }

theorem hasInertKey_parcels : parcels.schema.HasInertKey where
  table := by decide
  key := by
    intro column h
    cases h
    decide

/-- A connection without replies. -/
def silent : Connection where
  dialect := .postgres

end Example

/-- An object is sent as its text, behind one placeholder. -/
theorem object_key_is_one_value :
    (runOn (Example.parcels.find (.object [("n", .array [.null])])) Example.silent).2.log =
        [⟨.queryAll, "SELECT * FROM depot.PARCELS WHERE PARCEL_NO = $1 LIMIT 1 OFFSET 0",
          [.string (some "\x7b\"n\":[null]\x7d")]⟩] ∧
      (runOn (Example.parcels.delete (.object [("n", .array [.null])])) Example.silent).2.log =
        [⟨.execute, "DELETE FROM depot.PARCELS WHERE PARCEL_NO = $1",
          [.string (some "\x7b\"n\":[null]\x7d")]⟩] := by
  obtain ⟨-, hfind, hdelete⟩ := key_is_one_value_iff Example.hasInertKey_parcels rfl
    (.object [("n", .array [.null])]) Example.silent
  exact ⟨congrArg Connection.log (hfind.mpr rfl), congrArg Connection.log (hdelete.mpr rfl)⟩

/-- A list of two elements is compared with the key column as two values, and an empty list
as `NULL`. -/
theorem list_key_is_expanded :
    (runOn (Example.parcels.find (.array [.number (.integer 1), .number (.integer 2)]))
        Example.silent).2.log =
      [⟨.queryAll, "SELECT * FROM depot.PARCELS WHERE PARCEL_NO = $1, $2 LIMIT 1 OFFSET 0",
        [.bigInt 1, .bigInt 2]⟩] ∧
    (runOn (Example.parcels.delete (.array [])) Example.silent).2.log =
      [⟨.execute, "DELETE FROM depot.PARCELS WHERE PARCEL_NO = NULL", []⟩] :=
  ⟨rfl, rfl⟩

end FilterSql
