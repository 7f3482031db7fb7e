import Mathlib.Tactic.Common
import FilterSql.Condition.Basic
import FilterSql.Text.Name

/-!
# Tokens of SQL

The words and signs of a condition as SQL tells them apart, one character at a time:
the longest run of name characters is a word, `>` and `<` take a following `=` along,
and a text in single quotes is one literal.

Results:
* `lexFrom_of_ends`: where a token cannot go on, the rest is read as if it stood alone.
* `lex_word`, `lex_parameter`, `lex_sign`: the first token of a text and the rest of it.
-/

namespace FilterSql.Sql

/-! ## Specification -/

/-- The words of the grammar. -/
inductive Keyword where
  | and
  | or
  | among
  | between
  | like
  | escape
deriving DecidableEq, Repr

/-- How a keyword is written in capitals. -/
def Keyword.text : Keyword → String
  | .and => "AND"
  | .or => "OR"
  | .among => "IN"
  | .between => "BETWEEN"
  | .like => "LIKE"
  | .escape => "ESCAPE"

/-- Which words are keywords: those in capitals, and perhaps other spellings of them. -/
structure Spelling where
  keyword? : String → Option Keyword
  keyword?_text : ∀ keyword : Keyword, keyword? keyword.text = some keyword

/-- A part of a condition. -/
inductive Token where
  | keyword (keyword : Keyword)
  | number (digits : String)
  /-- A word that is neither a keyword nor a number. -/
  | name (text : String)
  /-- A colon with a name. -/
  | parameter (name : String)
  | sign (relation : Relation)
  | opening
  | closing
  /-- A text in single quotes. -/
  | literal (text : String)
  /-- Any other character. -/
  | stray (c : Char)
deriving DecidableEq, Repr

/-- The token of a word. -/
def Spelling.token (spelling : Spelling) (word : String) : Token :=
  if word.toList.all Char.isDigit then .number word
  else match spelling.keyword? word with
    | some keyword => .keyword keyword
    | none => .name word

/-- A token that has been read in part; characters are in reverse. -/
inductive Partial where
  /-- None has been started. -/
  | none
  /-- A word, perhaps behind a colon. -/
  | word (colon : Bool) (reversed : List Char)
  /-- The sign `>` or `<`. -/
  | angle (greater : Bool)
  | literal (reversed : List Char)
deriving DecidableEq, Repr

/-- Reads the first character of a token. -/
def start (c : Char) : List Token × Partial :=
  if Text.isNameChar c then ([], .word false [c])
  else if c = ':' then ([], .word true [])
  else if c = '=' then ([.sign .equal], .none)
  else if c = '>' then ([], .angle true)
  else if c = '<' then ([], .angle false)
  else if c = '(' then ([.opening], .none)
  else if c = ')' then ([.closing], .none)
  else if c = '\x27' then ([], .literal [])
  else if c.isWhitespace then ([], .none)
  else ([.stray c], .none)

/-- The token that is complete if no other character belongs to it. -/
def Spelling.flush (spelling : Spelling) : Partial → List Token
  | .none => []
  | .word false reversed => [spelling.token (String.ofList reversed.reverse)]
  | .word true reversed => [.parameter (String.ofList reversed.reverse)]
  | .angle true => [.sign (.order .greater)]
  | .angle false => [.sign (.order .less)]
  | .literal _ => [.stray '\x27']

/-- Reads a character that belongs to a token in part. -/
def extend? (c : Char) : Partial → Option (List Token × Partial)
  | .none => none
  | .word colon reversed =>
    if Text.isNameChar c then some ([], .word colon (c :: reversed)) else none
  | .angle greater =>
    if c = '=' then
      some ([.sign (.order (if greater then .greaterOrEqual else .lessOrEqual))], .none)
    else none
  | .literal reversed =>
    if c = '\x27' then some ([.literal (String.ofList reversed.reverse)], .none)
    else some ([], .literal (c :: reversed))

/-- The tokens of a text behind a token in part. -/
def Spelling.lexFrom (spelling : Spelling) (before : Partial) : List Char → List Token
  | [] => spelling.flush before
  | c :: rest =>
    match extend? c before with
    | some (complete, after) => complete ++ spelling.lexFrom after rest
    | none =>
      spelling.flush before ++ ((start c).1 ++ spelling.lexFrom (start c).2 rest)

/-- The tokens of a text. -/
def Spelling.lex (spelling : Spelling) (text : List Char) : List Token :=
  spelling.lexFrom .none text

/-! ## Where tokens end -/

variable {spelling : Spelling}

/-- A token in part is complete where the text ends or goes on with a character that
does not belong to it. -/
theorem lexFrom_of_ends {before : Partial} {text : List Char}
    (h : ∀ c ∈ text.head?, extend? c before = none) :
    spelling.lexFrom before text = spelling.flush before ++ spelling.lex text := by
  cases text with
  | nil => exact (List.append_nil _).symm
  | cons c rest =>
    rw [Spelling.lexFrom, h c rfl, Spelling.lex, Spelling.lexFrom, extend?]
    rfl

/-- Nothing follows, or a character that belongs to no name. -/
def EndsName (text : List Char) : Prop :=
  ∀ c ∈ text.head?, Text.isNameChar c = false

theorem endsName_nil : EndsName [] := by
  intro c hc
  cases hc

theorem endsName_append {text : List Char} {c : Char} (htext : text.head? = some c)
    (hc : Text.isNameChar c = false) (rest : List Char) : EndsName (text ++ rest) := by
  intro other hother
  rw [List.head?_append, htext] at hother
  cases hother
  exact hc

theorem lexFrom_word {colon : Bool} {reversed word rest : List Char}
    (h : ∀ c ∈ word, Text.isNameChar c = true) (hrest : EndsName rest) :
    spelling.lexFrom (.word colon reversed) (word ++ rest) =
      spelling.flush (.word colon (word.reverse ++ reversed)) ++ spelling.lex rest := by
  induction word generalizing reversed with
  | nil =>
    refine lexFrom_of_ends fun c hc => ?_
    rw [extend?, hrest c hc]
    rfl
  | cons c word ih =>
    have hc := h c List.mem_cons_self
    rw [List.cons_append, Spelling.lexFrom, extend?, if_pos hc]
    dsimp only
    rw [ih fun other member => h other (List.mem_cons_of_mem _ member), List.reverse_cons,
      List.append_assoc]
    rfl

/-! ## The tokens of a text -/

/-- The characters of a word. -/
def IsWordText (text : String) : Prop :=
  text.toList ≠ [] ∧ ∀ c ∈ text.toList, Text.isNameChar c = true

theorem lex_word {word : String} (h : IsWordText word) {rest : List Char} (hrest : EndsName rest) :
    spelling.lex (word.toList ++ rest) = spelling.token word :: spelling.lex rest := by
  obtain ⟨nonempty, hchars⟩ := h
  cases hword : word.toList with
  | nil => exact absurd hword nonempty
  | cons c others =>
    rw [hword] at hchars
    have hc := hchars c List.mem_cons_self
    have hothers : ∀ c ∈ others, Text.isNameChar c = true :=
      fun c member => hchars c (List.mem_cons_of_mem _ member)
    rw [List.cons_append, Spelling.lex, Spelling.lexFrom, extend?, start, if_pos hc]
    have hflush : spelling.flush (.word false (others.reverse ++ [c])) = [spelling.token word] := by
      have hreversed : (others.reverse ++ [c]).reverse = word.toList := by rw [hword]; simp
      rw [Spelling.flush, hreversed, String.ofList_toList]
    dsimp only
    rw [lexFrom_word hothers hrest, hflush]
    rfl

theorem lex_parameter {name : String} (h : ∀ c ∈ name.toList, Text.isNameChar c = true)
    {rest : List Char} (hrest : EndsName rest) :
    spelling.lex ((":" ++ name).toList ++ rest) = .parameter name :: spelling.lex rest := by
  have hcolon : spelling.lex ((":" ++ name).toList ++ rest) =
      spelling.lexFrom (.word true []) (name.toList ++ rest) := by
    rw [String.toList_append]
    rfl
  rw [hcolon, lexFrom_word h hrest, Spelling.flush, List.append_nil, List.reverse_reverse,
    String.ofList_toList]
  rfl

theorem token_keyword (keyword : Keyword) : spelling.token keyword.text = .keyword keyword := by
  have hletter : keyword.text.toList.all Char.isDigit = false := by cases keyword <;> rfl
  rw [Spelling.token, hletter, spelling.keyword?_text]
  rfl

theorem lex_sign (relation : Relation) (rest : List Char) :
    spelling.lex (relation.sign.toList ++ (" ".toList ++ rest)) =
      .sign relation :: spelling.lex rest := by
  cases relation with
  | equal => rfl
  | order relation => cases relation <;> rfl

end FilterSql.Sql
