import FilterSql.Proofs.Query.Alike
import FilterSql.Proofs.Repository.Rejections

/-!
# Responses to failed operations

What a client is told when an operation fails. A rejection is decided before the
connection is touched, from the kinds of the operands and not from the operands
themselves, and about a failure of the store there is one thing to say. So neither what a
store holds nor what it reports can be learned from a response.

Results:
* `OperationError.isRejection_eq_false_iff`, `OperationError.status_eq_400_iff`: the two
  kinds of response.
* `Session.check_of_rejected`: a rejection is that of the check at the beginning.
* `Operation.rejected_of_reworded`: with other single values in its filter, a request is
  rejected for the same reason.
* `responses_reveal_nothing`: two runs of an operation.
-/

namespace FilterSql

open Session (runOn NeverRejects)

/-! ## Specification -/

/-- What a client is sent. -/
structure Response where
  status : ℕ
  body : String
deriving DecidableEq, Repr

/-- The response to an error. -/
def OperationError.response (e : OperationError) : Response :=
  ⟨e.status, e.body⟩

/-- Operands that differ in single values at most: a truth value, a number or a text
stands in the place of another one, alone or in a list. -/
inductive Json.Reworded : Json → Json → Prop where
  | same (value : Json) : Reworded value value
  | single {value other : Json} (h : value.kind = .single) (hother : other.kind = .single) :
      Reworded value other
  | entries {items others : List Json} (h : List.Forall₂ Reworded items others) :
      Reworded (.array items) (.array others)

/-- Predicates that differ in single values at most. -/
structure Predicate.Reworded (first second : Predicate) : Prop where
  field : first.field = second.field
  operator : first.operator = second.operator
  value : first.value.Reworded second.value

/-- Requests that differ in single values of their filters at most. -/
structure PageRequest.Reworded (first second : PageRequest) : Prop where
  page : first.page = second.page
  size : first.size = second.size
  sort : first.sort = second.sort
  filter : Option.Rel (Filter.Related Predicate.Reworded) first.filter second.filter

/-- Operations that differ in single values of their filters at most. -/
inductive Operation.Reworded : Operation → Operation → Prop where
  | rows {α : Type} (repository : Repository α) {request other : PageRequest}
      (h : request.Reworded other) :
      Reworded (.rows repository request) (.rows repository other)
  | rowsFrom {α : Type} (repository : Repository α) {request other : PageRequest}
      (h : request.Reworded other) (base : String) (baseParameters : Parameters) :
      Reworded (.rowsFrom repository request base baseParameters)
        (.rowsFrom repository other base baseParameters)

/-! ## The two kinds of response -/

namespace OperationError

variable {e : OperationError}

theorem isRejection_eq_false_iff :
    e.isRejection = false ↔ ∃ context cause, e = .storeFailure context cause := by
  constructor
  · intro h
    cases e with
    | storeFailure context cause => exact ⟨context, cause, rfl⟩
    | _ => cases h
  · rintro ⟨context, cause, rfl⟩
    rfl

theorem status_eq_400_iff : e.status = 400 ↔ e.isRejection = true := by
  rw [status, isRejection]
  cases e.isStoreFailure <;> decide

theorem status_eq_500_iff : e.status = 500 ↔ e.isRejection = false := by
  rw [status, isRejection]
  cases e.isStoreFailure <;> decide

/-- About the store there is one thing to say. -/
theorem response_eq_of_storeFailures {other : OperationError} (h : e.isRejection = false)
    (hother : other.isRejection = false) : e.response = other.response := by
  obtain ⟨context, cause, rfl⟩ := isRejection_eq_false_iff.mp h
  obtain ⟨context', cause', rfl⟩ := isRejection_eq_false_iff.mp hother
  rfl

end OperationError

/-! ## Two connections -/

/-- What fails on two connections has one response. -/
theorem Operation.response_eq_of_errors (operation : Operation) {first second : Connection}
    {e e' : OperationError} (h : (runOn operation.session first).1 = .error e)
    (h' : (runOn operation.session second).1 = .error e') : e.response = e'.response := by
  have hreject := operation.rejectsUpFront
  cases rejected : e.isRejection with
  | true =>
    rw [hreject first e h rejected second] at h'
    cases h'
    rfl
  | false =>
    cases rejected' : e'.isRejection with
    | true =>
      rw [hreject second e' h' rejected' first] at h
      cases h
      rfl
    | false => exact OperationError.response_eq_of_storeFailures rejected rejected'

/-! ## Two requests -/

/-- A rejection is that of the check at the beginning. -/
theorem Session.check_of_rejected {α β : Type} {check : Except OperationError α}
    {next : α → Session OperationError β} (hnext : ∀ a, NeverRejects (next a))
    {connection : Connection} {e : OperationError}
    (h : (runOn (liftM check >>= next) connection).1 = .error e) (rejected : e.isRejection = true) :
    check = .error e := by
  cases check with
  | error first =>
    rw [Session.runOn_bind_of_error (Session.runOn_liftM _ connection)] at h
    cases h
    rfl
  | ok a =>
    rw [Session.runOn_bind_of_ok (Session.runOn_liftM _ connection)] at h
    rw [hnext a connection e h] at rejected
    cases rejected

theorem Json.entryKinds_of_single {value : Json} (h : value.kind = .single) :
    value.entryKinds = [] := by
  cases value with
  | array items => cases h
  | _ => rfl

namespace Json.Reworded

variable {value other : Json}

theorem kind_eq (h : value.Reworded other) : value.kind = other.kind := by
  cases h with
  | same => rfl
  | single h hother => exact h.trans hother.symm
  | entries _ => rfl

theorem entryKinds_eq (h : value.Reworded other) : value.entryKinds = other.entryKinds := by
  cases h with
  | same => rfl
  | single h hother => rw [entryKinds_of_single h, entryKinds_of_single hother]
  | entries h =>
    rw [entryKinds, entryKinds]
    induction h with
    | nil => rfl
    | cons hitem _ ih =>
      rw [List.map_cons, List.map_cons, ih, isNull_eq_of_kind hitem.kind_eq,
        isNested_eq_of_kind hitem.kind_eq]

end Json.Reworded

theorem Predicate.Reworded.alike {first second : Predicate} (h : first.Reworded second) :
    first.Alike second :=
  ⟨h.field, h.operator, h.value.kind_eq, fun _ => h.value.entryKinds_eq⟩

/-- Requests that differ in single values are compiled both, or rejected for one
reason. -/
theorem Repository.agree_pageQuery {α : Type} (repository : Repository α)
    {request other : PageRequest} (h : request.Reworded other) (base : String)
    (baseParameters : Parameters) :
    Agree Eq (fun _ _ => True) (repository.pageQuery request base baseParameters)
      (repository.pageQuery other base baseParameters) := by
  have hfilter := h.filter
  rw [pageQuery, pageQuery, h.sort]
  generalize request.filter = filter at hfilter ⊢
  generalize other.filter = filter' at hfilter ⊢
  cases hfilter with
  | none => exact .refl (fun _ => rfl) (fun _ => trivial) _
  | some hrelated =>
    have halike := hrelated.mono fun _ _ hpredicate => hpredicate.alike
    exact (PageQuery.agree_compile (fun _ => trivial) (Filter.agree_of_alike halike _) base _
      baseParameters).mono fun _ _ _ => trivial

/-- With other single values in its filter, a request is rejected for the same reason, on
every connection. -/
theorem Operation.rejected_of_reworded {operation other : Operation}
    (h : operation.Reworded other) {first : Connection} {e : OperationError}
    (herror : (runOn operation.session first).1 = .error e) (rejected : e.isRejection = true)
    (second : Connection) : (runOn other.session second).1 = .error e := by
  have hsame : ∀ {α : Type} (repository : Repository α) {request other : PageRequest}
      (_ : request.Reworded other) (base : String) (baseParameters : Parameters),
      (runOn (repository.rowsFrom request base baseParameters) first).1 = .error e →
        (runOn (repository.rowsFrom other base baseParameters) second).1 = .error e := by
    intro α repository request other hreworded base baseParameters herror
    have hquery := Session.check_of_rejected
      (fun query => query.neverRejects_fetch repository.entity.decode request.page request.size)
      herror rejected
    have hagree := repository.agree_pageQuery hreworded base baseParameters
    rw [hquery] at hagree
    generalize hother : repository.pageQuery other base baseParameters = outcome at hagree
    obtain ⟨_⟩ | ⟨rfl⟩ := hagree
    rw [Repository.rowsFrom, hother]
    rfl
  cases h with
  | rows repository hreworded => exact hsame repository hreworded _ _ herror
  | rowsFrom repository hreworded base baseParameters =>
    exact hsame repository hreworded base baseParameters herror

/-- **Responses reveal nothing about the database.**
* When an operation fails on two connections, whatever these reply, the responses to both
  errors are the same.
* The status is 500 when the store has failed, and 400 otherwise.
* When the status is 400, the response to a request stays the same, on any connection,
  when single values of its filter are replaced by others. -/
theorem responses_reveal_nothing :
    (∀ (operation : Operation) (first second : Connection) (e e' : OperationError),
      (runOn operation.session first).1 = .error e →
      (runOn operation.session second).1 = .error e' →
        e.response.status = e'.response.status ∧ e.response.body = e'.response.body) ∧
    (∀ e : OperationError,
      (e.response.status = 500 ↔ ∃ context cause, e = .storeFailure context cause) ∧
      (e.response.status = 400 ↔ ¬∃ context cause, e = .storeFailure context cause)) ∧
    ∀ operation other : Operation, operation.Reworded other →
      ∀ (first second : Connection) (e : OperationError),
        (runOn operation.session first).1 = .error e → e.response.status = 400 →
          ∃ e', (runOn other.session second).1 = .error e' ∧ e'.response = e.response := by
  refine ⟨fun operation first second e e' h h' => ?_, fun e => ?_,
    fun operation other hreworded first second e herror hstatus => ?_⟩
  · rw [operation.response_eq_of_errors h h']
    exact ⟨rfl, rfl⟩
  · rw [← OperationError.isRejection_eq_false_iff, Bool.not_eq_false]
    exact ⟨OperationError.status_eq_500_iff, OperationError.status_eq_400_iff⟩
  · have rejected := OperationError.status_eq_400_iff.mp hstatus
    exact ⟨e, Operation.rejected_of_reworded hreworded herror rejected second, rfl⟩

namespace Example

/-- A store that reports its own error. -/
def failing : Connection where
  dialect := .sqlite
  queries := [.error (.reported .query "no such table: CODES")]

/-- A store that returns a count which cannot be. -/
def miscounting : Connection where
  dialect := .sqlite
  queries := [.ok [[("cnt", .bigInt (-7))]]]

/-- A request that gives one value as a range, behind a test that takes it. -/
def rangeOf (value : Json) : PageRequest where
  filter := some (.any [.equals "code" value, .compare "code" .between value])

end Example

/-- Two failures of the store, and two ranges that are rejected. -/
theorem failures_of_codes :
    (runOn (Operation.rows Example.codes {}).session Example.failing).1 =
      .error (.storeFailure "count query failed" (.reported .query "no such table: CODES")) ∧
    (runOn (Operation.rows Example.codes {}).session Example.miscounting).1 =
      .error (.storeFailure "count query failed" (.negativeCount (-7))) ∧
    OperationError.body
        (.storeFailure "count query failed" (.reported .query "no such table: CODES")) =
      OperationError.body (.storeFailure "count query failed" (.negativeCount (-7))) ∧
    ∃ e, (runOn (Operation.rows Example.codes (Example.rangeOf (.string "A"))).session
        Example.failing).1 =
        .error (.unfitValue "code" "'between' expects [from, to]") ∧
      (runOn (Operation.rows Example.codes (Example.rangeOf (.bool true))).session
        Example.oneRow).1 = .error e ∧
      e.response =
        ⟨400, (OperationError.unfitValue "code" "'between' expects [from, to]").body⟩ := by
  obtain ⟨hstore, -, hfilter⟩ := responses_reveal_nothing
  have hreworded : (Operation.rows Example.codes (Example.rangeOf (.string "A"))).Reworded
      (.rows Example.codes (Example.rangeOf (.bool true))) :=
    .rows _ ⟨rfl, rfl, rfl, .some (.group (.cons (.test ⟨rfl, rfl, .single rfl rfl⟩)
      (.cons (.test ⟨rfl, rfl, .single rfl rfl⟩) .nil)))⟩
  obtain ⟨e, herror, hresponse⟩ :=
    hfilter _ _ hreworded Example.failing Example.oneRow _ rfl rfl
  have hcount := hstore (.rows Example.codes {}) Example.failing Example.miscounting _ _ rfl rfl
  exact ⟨rfl, rfl, hcount.2, e, rfl, herror, hresponse⟩

end FilterSql
