import Mathlib.Data.List.Infix
import Mathlib.Tactic.Common
import FilterSql.Statement.Bind
import FilterSql.Proofs.Statement.Pieces

/-!
# Literals in the dialects

Templates are scanned by one rule for quotes in all dialects: a run goes up to the next
quote of its kind. A store reads the bound text by the rule of its own dialect, and in
MySQL a backslash in a literal takes the next character with it. The literal of an escape
clause consists of a backslash, so MySQL reads its closing quote as a part of the literal.

Results:
* `Dialect.ReadsAlike.append`: texts that the scanner and the store read alike.
* `EscapeClauses.isBroken`: behind an escape clause MySQL is in a literal, and every
  further clause leaves it in one.
* `EscapeClauses.completesLiterals_iff`, `EscapeClauses.sharesQuotes_iff`: where escape
  clauses stand among inert text, literals end and both views agree unless MySQL reads
  one of the clauses.
-/

namespace FilterSql

/-! ## Specification -/

/-- Where a store stands in a statement without comments. -/
inductive LiteralPlace where
  /-- Outside of literals and of quoted names. -/
  | outside
  /-- In a run that ends with this quote. -/
  | inside (quote : Char)
  /-- In such a run, behind a character that takes the next one with it. -/
  | taken (quote : Char)
deriving DecidableEq

/-- Is a place in a literal or in a quoted name? -/
def LiteralPlace.isInside : LiteralPlace → Bool
  | .outside => false
  | .inside _ | .taken _ => true

/-- Is a place of the scanner in a run between quotes? -/
def Template.Place.isQuoted : Template.Place → Bool
  | .quoted _ => true
  | _ => false

namespace Dialect

/-- The quotes of literals and names. -/
def quotes : Dialect → List Char
  | .postgres => ['\x27', '\x22']
  | .sqlite | .mysql => ['\x27', '\x22', '\x60']

/-- Does a character take the next one with it, in a run between such quotes? In MySQL, in
its default mode, a backslash does so in literals, but not in names. -/
def takesNext (dialect : Dialect) (quote c : Char) : Bool :=
  dialect = .mysql && quote != '\x60' && c = '\\'

/-- The place behind a character. -/
def literalStep (dialect : Dialect) : LiteralPlace → Char → LiteralPlace
  | .outside, c => if c ∈ dialect.quotes then .inside c else .outside
  | .inside quote, c =>
    if c = quote then .outside
    else if dialect.takesNext quote c then .taken quote
    else .inside quote
  | .taken quote, _ => .inside quote

/-- The place behind some characters. -/
def literalPlace (dialect : Dialect) (place : LiteralPlace) (text : List Char) : LiteralPlace :=
  text.foldl dialect.literalStep place

/-- Every literal of a statement is terminated. -/
def CompletesLiterals (dialect : Dialect) (sql : String) : Prop :=
  dialect.literalPlace .outside sql.toList = .outside

/-- Behind each character of a statement, the scanner of templates and the store agree on
whether it is inside quotes. -/
def SharesQuotes (dialect : Dialect) (sql : String) : Prop :=
  ∀ front, front <+: sql.toList →
    (Template.scan .plain front).2.isQuoted = (dialect.literalPlace .outside front).isInside

end Dialect

/-- A number of escape clauses stand among inert text. -/
inductive EscapeClauses : ℕ → String → Prop where
  | inert {text : String} (h : text.toList.all Template.isInert = true) : EscapeClauses 0 text
  | clause : EscapeClauses 1 " ESCAPE '\\'"
  | append {m n : ℕ} {first second : String} (h : EscapeClauses m first)
      (h' : EscapeClauses n second) : EscapeClauses (m + n) (first ++ second)

/-! ## Texts that are read alike -/

namespace Dialect

variable {dialect : Dialect}

theorem literalPlace_append (place : LiteralPlace) (first second : List Char) :
    dialect.literalPlace place (first ++ second) =
      dialect.literalPlace (dialect.literalPlace place first) second :=
  List.foldl_append

/-- The scanner and the store read a text alike, from plain text to plain text. -/
structure ReadsAlike (dialect : Dialect) (text : String) : Prop where
  scanned : (Template.scan .plain text.toList).2 = .plain
  completed : dialect.CompletesLiterals text
  shared : dialect.SharesQuotes text

namespace ReadsAlike

theorem append {first second : String} (h : dialect.ReadsAlike first)
    (h' : dialect.ReadsAlike second) : dialect.ReadsAlike (first ++ second) where
  scanned := by
    rw [String.toList_append, Template.scan_append, h.scanned, h'.scanned]
  completed := by
    rw [CompletesLiterals, String.toList_append, literalPlace_append, h.completed, h'.completed]
  shared := by
    intro front hfront
    rw [String.toList_append] at hfront
    rcases List.prefix_or_prefix_of_prefix hfront (List.prefix_append _ _) with hfirst | hbehind
    · exact h.shared front hfirst
    · obtain ⟨rest, rfl⟩ := hbehind
      rw [Template.scan_append, literalPlace_append, h.scanned, h.completed]
      exact h'.shared rest ((List.prefix_append_right_inj _).mp hfront)

theorem not_mem_quotes_of_inert {c : Char} (h : Template.isInert c = true) :
    c ∉ dialect.quotes := by
  intro member
  have hquote : Template.isQuote c = true := by
    have hall : dialect.quotes.all Template.isQuote = true := by
      cases dialect <;> rfl
    exact List.all_eq_true.mp hall c member
  rw [Template.isInert, hquote] at h
  cases h

theorem literalPlace_of_inert {text : List Char} (h : ∀ c ∈ text, Template.isInert c = true) :
    dialect.literalPlace .outside text = .outside := by
  induction text with
  | nil => rfl
  | cons c rest ih =>
    have hstep : dialect.literalStep .outside c = .outside :=
      if_neg (not_mem_quotes_of_inert (h c List.mem_cons_self))
    rw [literalPlace, List.foldl_cons, hstep]
    exact ih fun other member => h other (List.mem_cons_of_mem _ member)

theorem of_inert {text : String} (h : text.toList.all Template.isInert = true) :
    dialect.ReadsAlike text := by
  rw [List.all_eq_true] at h
  have hplain : ∀ front, (∀ c ∈ front, Template.isInert c = true) →
      (Template.scan .plain front).2 = .plain := by
    intro front hfront
    rw [Template.Rests.of_inert hfront]
  refine ⟨hplain _ h, literalPlace_of_inert h, fun front hfront => ?_⟩
  have hinert : ∀ c ∈ front, Template.isInert c = true := fun c hc => h c (hfront.subset hc)
  rw [hplain front hinert, literalPlace_of_inert hinert]
  rfl

/-- Where a backslash is an ordinary character, an escape clause is read alike. -/
theorem escapeClause (ordinary : dialect ≠ .mysql) : dialect.ReadsAlike " ESCAPE '\\'" := by
  refine ⟨rfl, ?_, fun front hfront => ?_⟩
  · cases dialect with
    | mysql => exact absurd rfl ordinary
    | _ => rfl
  · rw [← List.mem_inits] at hfront
    revert front
    cases dialect with
    | mysql => exact absurd rfl ordinary
    | _ => decide

end ReadsAlike

end Dialect

namespace EscapeClauses

variable {dialect : Dialect} {n : ℕ} {text : String}

theorem readsAlike (h : EscapeClauses n text) (safe : dialect = .mysql → n = 0) :
    dialect.ReadsAlike text := by
  induction h with
  | inert h => exact .of_inert h
  | clause => exact .escapeClause fun hdialect => Nat.one_ne_zero (safe hdialect)
  | append _ _ ih ih' =>
    exact (ih fun hdialect => (Nat.add_eq_zero_iff.mp (safe hdialect)).1).append
      (ih' fun hdialect => (Nat.add_eq_zero_iff.mp (safe hdialect)).2)

end EscapeClauses

/-! ## Escape clauses in MySQL -/

/-- A place in a literal between single quotes. -/
def LiteralPlace.IsBroken (place : LiteralPlace) : Prop :=
  place = .inside '\x27' ∨ place = .taken '\x27'

theorem LiteralPlace.IsBroken.ne_outside {place : LiteralPlace} (h : place.IsBroken) :
    place ≠ .outside := by
  rintro rfl
  obtain h | h := h <;> cases h

theorem LiteralPlace.IsBroken.step {place : LiteralPlace} (h : place.IsBroken) {c : Char}
    (hc : c ≠ '\x27') : (Dialect.mysql.literalStep place c).IsBroken := by
  obtain rfl | rfl := h
  · rw [Dialect.literalStep, if_neg hc]
    split_ifs
    · exact .inr rfl
    · exact .inl rfl
  · exact .inl rfl

/-- Inert text has no quote that could end a literal. -/
theorem LiteralPlace.IsBroken.of_inert {place : LiteralPlace} (broken : place.IsBroken)
    {text : List Char} (h : ∀ c ∈ text, Template.isInert c = true) :
    (Dialect.mysql.literalPlace place text).IsBroken := by
  induction text generalizing place with
  | nil => exact broken
  | cons c rest ih =>
    have hc : c ≠ '\x27' := by
      rintro rfl
      exact absurd (h _ List.mem_cons_self) (by decide)
    exact ih (broken.step hc) fun other member => h other (List.mem_cons_of_mem _ member)

namespace EscapeClauses

variable {dialect : Dialect} {n : ℕ} {text : String}

/-- A literal that is not terminated goes on behind any number of escape clauses. -/
theorem isBroken_of_isBroken (h : EscapeClauses n text) {place : LiteralPlace}
    (broken : place.IsBroken) : (Dialect.mysql.literalPlace place text.toList).IsBroken := by
  induction h generalizing place with
  | inert h => exact broken.of_inert (List.all_eq_true.mp h)
  | clause =>
    -- The blank takes up a backslash before it; the first quote ends the literal, and the
    -- second one starts another.
    obtain rfl | rfl := broken
    · exact .inl rfl
    · exact .inl rfl
  | append _ _ ih ih' =>
    rw [String.toList_append, Dialect.literalPlace_append]
    exact ih' (ih broken)

/-- Behind an escape clause MySQL is in a literal. -/
theorem isBroken (h : EscapeClauses n text) (some : n ≠ 0) :
    (Dialect.mysql.literalPlace .outside text.toList).IsBroken := by
  induction h with
  | inert h => exact absurd rfl some
  | clause => exact .inl rfl
  | @append m n first second h h' ih ih' =>
    rw [String.toList_append, Dialect.literalPlace_append]
    by_cases hfirst : m = 0
    · have hcompleted : Dialect.mysql.CompletesLiterals first :=
        (h.readsAlike fun _ => hfirst).completed
      rw [hcompleted]
      exact ih' (by omega)
    · exact h'.isBroken_of_isBroken (ih hfirst)

/-- Inert text around escape clauses adds none. -/
theorem enclosed {head tail : String} (hhead : head.toList.all Template.isInert = true)
    (h : EscapeClauses n text) (htail : tail.toList.all Template.isInert = true) :
    EscapeClauses n (head ++ text ++ tail) := by
  have hboth := ((EscapeClauses.inert hhead).append h).append (.inert htail)
  rwa [Nat.zero_add, Nat.add_zero] at hboth

/-- The scanner reads escape clauses from plain text to plain text. -/
theorem scanned (h : EscapeClauses n text) : (Template.scan .plain text.toList).2 = .plain :=
  have halike : Dialect.sqlite.ReadsAlike text := h.readsAlike nofun
  halike.scanned

/-! ## Where literals end and views agree -/

/-- Literals are terminated unless MySQL reads an escape clause. -/
theorem completesLiterals_iff (h : EscapeClauses n text) (dialect : Dialect) :
    dialect.CompletesLiterals text ↔ ¬(dialect = .mysql ∧ n ≠ 0) := by
  constructor
  · rintro completed ⟨rfl, some⟩
    exact (h.isBroken some).ne_outside completed
  · intro safe
    exact (h.readsAlike fun hdialect => not_not.mp fun some => safe ⟨hdialect, some⟩).completed

/-- The scanner and the store agree on what is inside quotes unless MySQL reads an escape
clause: behind the text, only the scanner is outside of quotes. -/
theorem sharesQuotes_iff (h : EscapeClauses n text) (dialect : Dialect) :
    dialect.SharesQuotes text ↔ ¬(dialect = .mysql ∧ n ≠ 0) := by
  constructor
  · rintro shared ⟨rfl, some⟩
    have hend := shared text.toList List.prefix_rfl
    rw [h.scanned] at hend
    obtain hbroken | hbroken := h.isBroken some <;>
    · rw [hbroken] at hend
      cases hend
  · intro safe
    exact (h.readsAlike fun hdialect => not_not.mp fun some => safe ⟨hdialect, some⟩).shared

end EscapeClauses

end FilterSql
