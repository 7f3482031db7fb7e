import Mathlib.Tactic.Common
import FilterSql.Proofs.Parameters
import FilterSql.Proofs.Statement.Filling
import FilterSql.Proofs.Statement.Token

/-!
# What binding makes of a statement

The statement that is sent to a store, in terms of the tokens of the template: a
placeholder is replaced by one placeholder for each of its values, and every other token
is copied.

Results:
* `exists_writes`: what is filled and rendered when every placeholder has a value.
* `bind_of_first_unbound`: what is reported otherwise.
* `bind_replaces_placeholders`: both, for every template.
-/

namespace FilterSql

namespace Statement

open Template

/-! ## Specification -/

/-- Tokens are written out as this text, and these values are sent along. The first value
has the number that follows `before`. -/
inductive Writes (dialect : Dialect) (parameters : Parameters) :
    (before : ℕ) → List Token → List Char → List BoundValue → Prop where
  | nil {before : ℕ} : Writes dialect parameters before [] [] []
  /-- A token that is no placeholder is copied. -/
  | copied {before : ℕ} {token : Token} {tokens : List Token} {text : List Char}
      {values : List BoundValue} (h : ∀ name, token ≠ .placeholder name)
      (rest : Writes dialect parameters before tokens text values) :
      Writes dialect parameters before (token :: tokens) (token.text ++ text) values
  /-- A value that is no array is one placeholder. -/
  | single {before : ℕ} {name : String} {value : Json} {tokens : List Token} {text : List Char}
      {values : List BoundValue} (get : parameters.get? name = some value)
      (h : value.isArray = false)
      (rest : Writes dialect parameters (before + 1) tokens text values) :
      Writes dialect parameters before (.placeholder name :: tokens)
        ((dialect.mark (before + 1)).toList ++ text) (.ofJson value :: values)
  /-- An array is one placeholder for each element. -/
  | list {before : ℕ} {name : String} {items : List Json} {tokens : List Token}
      {text : List Char} {values : List BoundValue}
      (get : parameters.get? name = some (.array items)) (h : items ≠ [])
      (rest : Writes dialect parameters (before + items.length) tokens text values) :
      Writes dialect parameters before (.placeholder name :: tokens)
        ((", ".intercalate ((List.range' (before + 1) items.length).map dialect.mark)).toList ++
          text)
        (items.map .ofJson ++ values)
  /-- An empty array is the word `NULL`. -/
  | null {before : ℕ} {name : String} {tokens : List Token} {text : List Char}
      {values : List BoundValue} (get : parameters.get? name = some (.array []))
      (rest : Writes dialect parameters before tokens text values) :
      Writes dialect parameters before (.placeholder name :: tokens) ("NULL".toList ++ text) values

/-! ## Every placeholder has a value -/

variable {dialect : Dialect} {parameters : Parameters} {tokens : List Token}

theorem pieces_of_copied {token : Token} (h : ∀ name, token ≠ .placeholder name) :
    token.pieces = verbatim (String.ofList token.text) := by
  rw [verbatim, String.toList_ofList]
  cases token with
  | placeholder name => exact absurd rfl (h name)
  | _ => rfl

/-- A placeholder is written as its value says. -/
theorem Writes.placeholder {before : ℕ} {name : String} {value : Json} {text : List Char}
    {values : List BoundValue} (get : parameters.get? name = some value)
    (rest : Writes dialect parameters (before + (BoundValue.listOfJson value).length) tokens text
      values) :
    Writes dialect parameters before (.placeholder name :: tokens)
      ((marks dialect before (BoundValue.listOfJson value)).toList ++ text)
      (BoundValue.listOfJson value ++ values) := by
  by_cases harray : value.isArray = true
  · obtain ⟨items, rfl⟩ : ∃ items, value = .array items := by
      cases value with
      | array items => exact ⟨items, rfl⟩
      | _ => cases harray
    rw [BoundValue.listOfJson, List.length_map] at rest
    rw [marks_eq, BoundValue.listOfJson, List.length_map]
    by_cases hempty : items = []
    · subst hempty
      exact .null get rest
    · rw [if_neg (mt List.map_eq_nil_iff.mp hempty)]
      exact .list get hempty rest
  · have hsingle := BoundValue.listOfJson_of_not_isArray (Bool.eq_false_iff.mpr harray)
    rw [hsingle] at rest ⊢
    rw [marks_singleton]
    exact .single get (Bool.eq_false_iff.mpr harray) rest

/-- Tokens whose placeholders all have values can be filled, and are rendered as they are
to be written. -/
theorem exists_writes (dialect : Dialect)
    (h : ∀ name, .placeholder name ∈ tokens → ∃ value, parameters.get? name = some value) :
    ∃ filled, Fills parameters (tokens.flatMap Token.pieces) filled ∧
      ∀ before, Writes dialect parameters before tokens (render dialect before filled)
        (valuesOf filled) := by
  induction tokens with
  | nil => exact ⟨[], rfl, fun _ => .nil⟩
  | cons token tokens ih =>
    obtain ⟨others, hfills, hwrites⟩ := ih fun name member => h name (List.mem_cons_of_mem _ member)
    by_cases hname : ∃ name, token = .placeholder name
    · obtain ⟨name, rfl⟩ := hname
      obtain ⟨value, hvalue⟩ := h name List.mem_cons_self
      exact ⟨_, (Fills.slot hvalue).append hfills, fun before => .placeholder hvalue (hwrites _)⟩
    · rw [not_exists] at hname
      refine ⟨verbatim (String.ofList token.text) ++ others, ?_, fun before => ?_⟩
      · rw [List.flatMap_cons, pieces_of_copied hname]
        exact (Fills.verbatim _).append hfills
      · rw [render_append, render_verbatim, valuesOf_append, valuesOf_verbatim,
          String.toList_ofList]
        exact .copied hname (hwrites before)

/-! ## A placeholder has no value -/

/-- A placeholder without a value. -/
def isUnbound (parameters : Parameters) : Token → Bool
  | .placeholder name => !parameters.contains name
  | _ => false

/-- Either every placeholder has a value, or there is a first one without. -/
theorem bound_or_first_unbound (parameters : Parameters) (tokens : List Token) :
    (∀ name, .placeholder name ∈ tokens → parameters.contains name = true) ∨
      ∃ before name after, tokens = before ++ .placeholder name :: after ∧
        (∀ other, .placeholder other ∈ before → parameters.contains other = true) ∧
          parameters.contains name = false := by
  cases hfind : tokens.find? (isUnbound parameters) with
  | none =>
    refine .inl fun name member => ?_
    simpa [isUnbound] using List.find?_eq_none.mp hfind _ member
  | some token =>
    obtain ⟨hunbound, before, after, rfl, hbefore⟩ := List.find?_eq_some_iff_append.mp hfind
    cases token with
    | placeholder name =>
      refine .inr ⟨before, name, after, rfl, fun other member => ?_, ?_⟩
      · simpa [isUnbound] using hbefore _ member
      · simpa [isUnbound] using hunbound
    | _ => cases hunbound

/-- The first placeholder without a value is reported. -/
theorem bind_of_first_unbound {template : String} {before after : List Token} {name : String}
    (hsplits : Splits template.toList (before ++ .placeholder name :: after))
    (hbefore : ∀ other, .placeholder other ∈ before → parameters.contains other = true)
    (hname : parameters.contains name = false) :
    bind dialect template parameters = .error (.unboundParameter name) := by
  obtain ⟨filled, hfills, _⟩ := exists_writes dialect
    fun other member => Parameters.contains_eq_true_iff.mp (hbefore other member)
  have hslot : fill parameters (.slot name) = .error (.unboundParameter name) :=
    fill_eq_error_iff.mpr ⟨name, rfl, Parameters.contains_eq_false_iff.mp hname, rfl⟩
  rw [bind, pieces_eq, pieces_of_splits hsplits, List.flatMap_append, List.flatMap_cons,
    List.mapM_append, hfills, Token.pieces, List.cons_append, List.mapM_cons, hslot]
  rfl

/-! ## Binding -/

theorem bind_of_bound (dialect : Dialect) {template : String}
    (hsplits : Splits template.toList tokens)
    (h : ∀ name, .placeholder name ∈ tokens → parameters.contains name = true) :
    ∃ statement, bind dialect template parameters = .ok statement ∧
      Writes dialect parameters 0 tokens statement.sql.toList statement.values := by
  obtain ⟨filled, hfills, hwrites⟩ := exists_writes dialect
    fun name member => Parameters.contains_eq_true_iff.mp (h name member)
  rw [← pieces_of_splits hsplits] at hfills
  refine ⟨_, bind_of_fills hfills dialect, ?_⟩
  rw [ofFilled, String.toList_ofList]
  exact hwrites 0

/-- **Binding recognizes placeholders and replaces nothing else.** A template is split
into tokens in one way. It can be bound if every placeholder has a value: then the
placeholders are replaced and the other tokens are copied. Otherwise the first
placeholder without a value is reported. -/
theorem bind_replaces_placeholders (dialect : Dialect) (template : String)
    (parameters : Parameters) :
    ∃ tokens, Splits template.toList tokens ∧
      (∀ others, Splits template.toList others → others = tokens) ∧
      ((∃ statement, bind dialect template parameters = .ok statement) ↔
        ∀ name, .placeholder name ∈ tokens → parameters.contains name = true) ∧
      (∀ statement, bind dialect template parameters = .ok statement →
        Writes dialect parameters 0 tokens statement.sql.toList statement.values) ∧
      (∀ e, bind dialect template parameters = .error e →
        ∃ before name after, tokens = before ++ .placeholder name :: after ∧
          (∀ other, .placeholder other ∈ before → parameters.contains other = true) ∧
          parameters.contains name = false ∧ e = .unboundParameter name) := by
  obtain ⟨tokens, hsplits⟩ := exists_splits template.toList
  refine ⟨tokens, hsplits, fun others hothers => hothers.unique hsplits, ?_⟩
  rcases bound_or_first_unbound parameters tokens with
    hbound | ⟨before, name, after, rfl, hbefore, hname⟩
  · obtain ⟨statement, hbind, hwrites⟩ := bind_of_bound dialect hsplits hbound
    rw [hbind]
    refine ⟨⟨fun _ => hbound, fun _ => ⟨statement, rfl⟩⟩, ?_, ?_⟩
    · rintro _ ⟨⟩
      exact hwrites
    · rintro e ⟨⟩
  · rw [bind_of_first_unbound hsplits hbefore hname]
    refine ⟨⟨?_, fun hbound => ?_⟩, ?_, ?_⟩
    · rintro ⟨_, ⟨⟩⟩
    · rw [hbound name (by simp)] at hname
      cases hname
    · rintro _ ⟨⟩
    · rintro _ ⟨⟩
      exact ⟨before, name, after, rfl, hbefore, hname, rfl⟩

end Statement

end FilterSql
