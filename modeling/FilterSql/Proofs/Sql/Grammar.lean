import FilterSql.Json.Value
import FilterSql.Parameters
import FilterSql.Proofs.Sql.Token

/-!
# The grammar of conditions

Conditions as SQL reads them: `AND` binds tighter than `OR`, both group to the left,
and parentheses come first.

Results:
* `Reads.unique`: the grammar reads a list of tokens in at most one way. The reading is
  found by `run`, which goes through the tokens once and keeps the open parentheses on
  a stack.
-/

namespace FilterSql.Sql

/-! ## Specification -/

/-- A condition that has been read. -/
inductive Expr where
  | constant (value : Bool)
  | compare (column : String) (relation : Relation) (parameter : String)
  | among (column parameter : String)
  | between (column low high : String)
  | like (column parameter : String) (escape : Option String)
  | both (first second : Expr)
  | either (first second : Expr)
deriving DecidableEq, Repr

/-- The levels of the grammar, the one that binds tightest first. -/
inductive Level where
  | factor
  | conjunction
  | disjunction
deriving DecidableEq, Repr

/-- The conditions of each level, by the tokens that they are written with. -/
inductive Reads : Level → List Token → Expr → Prop where
  | always : Reads .factor [.number "1", .sign .equal, .number "1"] (.constant true)
  | never : Reads .factor [.number "1", .sign .equal, .number "0"] (.constant false)
  | compare (column : String) (relation : Relation) (parameter : String) :
      Reads .factor [.name column, .sign relation, .parameter parameter]
        (.compare column relation parameter)
  | among (column parameter : String) :
      Reads .factor [.name column, .keyword .among, .opening, .parameter parameter, .closing]
        (.among column parameter)
  | between (column low high : String) :
      Reads .factor
        [.name column, .keyword .between, .parameter low, .keyword .and, .parameter high]
        (.between column low high)
  | like (column parameter : String) :
      Reads .factor [.name column, .keyword .like, .parameter parameter]
        (.like column parameter none)
  | likeEscape (column parameter escape : String) :
      Reads .factor
        [.name column, .keyword .like, .parameter parameter, .keyword .escape, .literal escape]
        (.like column parameter (some escape))
  | parentheses {tokens : List Token} {expr : Expr} (inner : Reads .disjunction tokens expr) :
      Reads .factor (.opening :: (tokens ++ [.closing])) expr
  | factor {tokens : List Token} {expr : Expr} (only : Reads .factor tokens expr) :
      Reads .conjunction tokens expr
  | and {tokens others : List Token} {expr other : Expr} (first : Reads .conjunction tokens expr)
      (second : Reads .factor others other) :
      Reads .conjunction (tokens ++ .keyword .and :: others) (.both expr other)
  | conjunction {tokens : List Token} {expr : Expr} (only : Reads .conjunction tokens expr) :
      Reads .disjunction tokens expr
  | or {tokens others : List Token} {expr other : Expr} (first : Reads .disjunction tokens expr)
      (second : Reads .conjunction others other) :
      Reads .disjunction (tokens ++ .keyword .or :: others) (.either expr other)

/-- What comparisons with the values of a column mean. -/
structure Interpretation (ν : Type) where
  equal : ν → Json → Prop
  order : OrderRelation → ν → Json → Prop
  /-- A value matches a pattern, perhaps with an escape character. -/
  like : ν → Json → Option String → Prop

/-- What a relation means. -/
def Interpretation.relation {ν : Type} (meaning : Interpretation ν) : Relation → ν → Json → Prop
  | .equal => meaning.equal
  | .order relation => meaning.order relation

/-- A value is equal to an element of a list. -/
def Interpretation.among {ν : Type} (meaning : Interpretation ν) (value : ν) : Json → Prop
  | .array items => ∃ item ∈ items, meaning.equal value item
  | _ => False

/-- A parameter is bound to a value with a property. -/
def Bound (parameters : Parameters) (name : String) (P : Json → Prop) : Prop :=
  ∃ value, parameters.get? name = some value ∧ P value

/-- A condition is true of a row, given by the values of its columns. -/
def Expr.Holds {ν : Type} (meaning : Interpretation ν) (row : String → ν)
    (parameters : Parameters) : Expr → Prop
  | .constant value => value = true
  | .compare column relation parameter =>
    Bound parameters parameter (meaning.relation relation (row column))
  | .among column parameter => Bound parameters parameter (meaning.among (row column))
  | .between column low high =>
    Bound parameters low (meaning.order .greaterOrEqual (row column)) ∧
      Bound parameters high (meaning.order .lessOrEqual (row column))
  | .like column parameter escape =>
    Bound parameters parameter fun pattern => meaning.like (row column) pattern escape
  | .both first second =>
    first.Holds meaning row parameters ∧ second.Holds meaning row parameters
  | .either first second =>
    first.Holds meaning row parameters ∨ second.Holds meaning row parameters

/-! ## Reading on a stack -/

/-- What has been read behind an open parenthesis: the alternatives before the last `OR`
and the factors behind it. -/
structure Frame where
  alternatives : Option Expr := none
  factors : Option Expr := none

/-- Two conditions joined, if the first is there. -/
def join? (join : Expr → Expr → Expr) : Option Expr → Expr → Expr
  | none, expr => expr
  | some first, expr => join first expr

/-- Adds a factor. -/
def Frame.add (frame : Frame) (expr : Expr) : Frame :=
  { frame with factors := some (join? .both frame.factors expr) }

/-- What has been read as a whole. -/
def Frame.expr? (frame : Frame) : Option Expr :=
  frame.factors.map (join? .either frame.alternatives)

/-- Reads tokens behind what stands in some frames, the innermost first. This takes more
than the grammar does: nothing looks at whether a factor is expected. -/
def run (frame : Frame) (stack : List Frame) : List Token → Option Expr
  | [] => frame.expr?
  | .opening :: rest => run {} (frame :: stack) rest
  | .closing :: rest =>
    match frame.expr?, stack with
    | some expr, outer :: stack => run (outer.add expr) stack rest
    | _, _ => none
  | .keyword .and :: rest => run frame stack rest
  | .keyword .or :: rest => run ⟨frame.expr?, none⟩ stack rest
  | .number first :: .sign .equal :: .number second :: rest =>
    run (frame.add (.constant (first = second))) stack rest
  | .name column :: .sign relation :: .parameter parameter :: rest =>
    run (frame.add (.compare column relation parameter)) stack rest
  | .name column :: .keyword .among :: .opening :: .parameter parameter :: .closing :: rest =>
    run (frame.add (.among column parameter)) stack rest
  | .name column :: .keyword .between :: .parameter low :: .keyword .and ::
      .parameter high :: rest =>
    run (frame.add (.between column low high)) stack rest
  | .name column :: .keyword .like :: .parameter parameter :: .keyword .escape ::
      .literal escape :: rest =>
    run (frame.add (.like column parameter (some escape))) stack rest
  | .name column :: .keyword .like :: .parameter parameter :: rest =>
    run (frame.add (.like column parameter none)) stack rest
  | _ => none

/-- Whatever follows, tokens are read as a condition of a level: a factor is added to the
innermost frame, a conjunction makes up its factors, and a disjunction makes up all of
it. -/
def IsRun (level : Level) (tokens : List Token) (expr : Expr) : Prop :=
  ∀ (rest : List Token) (stack : List Frame), rest.head? ≠ some (.keyword .escape) →
    match level with
    | .factor =>
      ∀ frame, run frame stack (tokens ++ rest) = run (frame.add expr) stack rest
    | .conjunction =>
      ∀ alternatives, run ⟨alternatives, none⟩ stack (tokens ++ rest) =
        run ⟨alternatives, some expr⟩ stack rest
    | .disjunction =>
      ∃ frame, frame.expr? = some expr ∧ run {} stack (tokens ++ rest) = run frame stack rest

theorem run_like {column parameter : String} {rest : List Token} (frame : Frame)
    (stack : List Frame) (hrest : rest.head? ≠ some (.keyword .escape)) :
    run frame stack (.name column :: .keyword .like :: .parameter parameter :: rest) =
      run (frame.add (.like column parameter none)) stack rest := by
  rw [run]
  rintro escape others rfl
  exact hrest rfl

theorem isRun_of_reads {level : Level} {tokens : List Token} {expr : Expr}
    (h : Reads level tokens expr) : IsRun level tokens expr := by
  induction h with
  | always => exact fun rest stack _ frame => rfl
  | never => exact fun rest stack _ frame => rfl
  | compare column relation parameter => exact fun rest stack _ frame => rfl
  | among column parameter => exact fun rest stack _ frame => rfl
  | between column low high => exact fun rest stack _ frame => rfl
  | like column parameter => exact fun rest stack hrest frame => run_like frame stack hrest
  | likeEscape column parameter escape => exact fun rest stack _ frame => rfl
  | @parentheses tokens expr inner ih =>
    intro rest stack hrest frame
    obtain ⟨found, hfound, hrun⟩ := ih (.closing :: rest) (frame :: stack) (by simp)
    have hopening : run frame stack (.opening :: (tokens ++ [.closing]) ++ rest) =
        run {} (frame :: stack) (tokens ++ .closing :: rest) := by
      rw [List.cons_append, run, List.append_assoc]
      rfl
    rw [hopening, hrun, run]
    exact hfound
  | factor only ih =>
    intro rest stack hrest alternatives
    exact ih rest stack hrest ⟨alternatives, none⟩
  | @and tokens others expr other first second ihfirst ihsecond =>
    intro rest stack hrest alternatives
    have hfirst := ihfirst (.keyword .and :: (others ++ rest)) stack (by simp) alternatives
    have hsecond := ihsecond rest stack hrest ⟨alternatives, some expr⟩
    rw [List.append_assoc, List.cons_append, hfirst, run, hsecond]
    rfl
  | conjunction only ih =>
    intro rest stack hrest
    exact ⟨_, rfl, ih rest stack hrest none⟩
  | @or tokens others expr other first second ihfirst ihsecond =>
    intro rest stack hrest
    obtain ⟨found, hfound, hfirst⟩ := ihfirst (.keyword .or :: (others ++ rest)) stack (by simp)
    have hsecond := ihsecond rest stack hrest (some expr)
    refine ⟨⟨some expr, some other⟩, rfl, ?_⟩
    rw [List.append_assoc, List.cons_append, hfirst, run, hfound, hsecond]

/-- **The grammar is unambiguous.** -/
theorem Reads.unique {tokens : List Token} {first second : Expr}
    (h : Reads .disjunction tokens first) (h' : Reads .disjunction tokens second) :
    first = second := by
  have hrun : ∀ expr, Reads .disjunction tokens expr → run {} [] tokens = some expr := by
    intro expr hreads
    obtain ⟨found, hfound, hrun⟩ := isRun_of_reads hreads [] [] (by simp)
    rw [List.append_nil] at hrun
    rw [hrun, run, hfound]
  have hfirst := hrun first h
  rw [hrun second h'] at hfirst
  exact (Option.some.inj hfirst).symm

/-! ## Reading and meaning in parts -/

theorem bound_iff {parameters : Parameters} {name : String} {value : Json}
    (h : parameters.get? name = some value) {P : Json → Prop} :
    Bound parameters name P ↔ P value := by
  constructor
  · rintro ⟨other, hother, hP⟩
    rw [h] at hother
    cases hother
    exact hP
  · exact fun hP => ⟨value, h, hP⟩

section Denotes

variable {ν : Type} {meaning : Interpretation ν} {row : String → ν} {parameters : Parameters}

/-- Tokens are read as a condition of a level that is true of the row exactly if a
proposition holds. -/
def Denotes (meaning : Interpretation ν) (row : String → ν) (parameters : Parameters)
    (level : Level) (tokens : List Token) (P : Prop) : Prop :=
  ∃ expr, Reads level tokens expr ∧ (expr.Holds meaning row parameters ↔ P)

variable {tokens others : List Token} {P Q : Prop}

theorem Denotes.congr {level : Level} (h : Denotes meaning row parameters level tokens P)
    (hPQ : P ↔ Q) : Denotes meaning row parameters level tokens Q := by
  obtain ⟨expr, hreads, hholds⟩ := h
  exact ⟨expr, hreads, hholds.trans hPQ⟩

theorem Denotes.conjunction (h : Denotes meaning row parameters .factor tokens P) :
    Denotes meaning row parameters .conjunction tokens P := by
  obtain ⟨expr, hreads, hholds⟩ := h
  exact ⟨expr, hreads.factor, hholds⟩

theorem Denotes.disjunction (h : Denotes meaning row parameters .conjunction tokens P) :
    Denotes meaning row parameters .disjunction tokens P := by
  obtain ⟨expr, hreads, hholds⟩ := h
  exact ⟨expr, hreads.conjunction, hholds⟩

theorem Denotes.parentheses (h : Denotes meaning row parameters .disjunction tokens P) :
    Denotes meaning row parameters .factor (.opening :: (tokens ++ [.closing])) P := by
  obtain ⟨expr, hreads, hholds⟩ := h
  exact ⟨expr, hreads.parentheses, hholds⟩

theorem Denotes.and (h : Denotes meaning row parameters .conjunction tokens P)
    (h' : Denotes meaning row parameters .factor others Q) :
    Denotes meaning row parameters .conjunction (tokens ++ .keyword .and :: others) (P ∧ Q) := by
  obtain ⟨expr, hreads, hholds⟩ := h
  obtain ⟨other, hreads', hholds'⟩ := h'
  exact ⟨_, hreads.and hreads', and_congr hholds hholds'⟩

theorem Denotes.or (h : Denotes meaning row parameters .disjunction tokens P)
    (h' : Denotes meaning row parameters .conjunction others Q) :
    Denotes meaning row parameters .disjunction (tokens ++ .keyword .or :: others) (P ∨ Q) := by
  obtain ⟨expr, hreads, hholds⟩ := h
  obtain ⟨other, hreads', hholds'⟩ := h'
  exact ⟨_, hreads.or hreads', or_congr hholds hholds'⟩

end Denotes

end FilterSql.Sql
