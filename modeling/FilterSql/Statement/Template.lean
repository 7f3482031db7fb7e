import FilterSql.Text.Name

/-!
# Statement templates

The text of a statement with named placeholders, `:name`, as a sequence of pieces: characters that
stay as they are, and slots for values. Quoted runs, line comments and block comments are kept
whole, and so is the cast sign `::`. The text is read by an automaton that takes one character at a
time, so that the reading of a text in two halves is the reading of the first followed by the
reading of the second from where the first has ended (`scan_append`).

Models how `to_statement` goes through a text.
-/

namespace FilterSql

/-- A part of a statement: a character of the text, or a slot. -/
inductive Piece (σ : Type) where
  | verbatim (c : Char)
  | slot (content : σ)
deriving DecidableEq, Repr

namespace Template

/-- Where in a statement a character stands. -/
inductive Place where
  /-- In plain text. -/
  | plain
  /-- In a run that ends with this quote. -/
  | quoted (quote : Char)
  /-- Behind a hyphen of plain text. -/
  | hyphen
  /-- In a comment that ends with the line. -/
  | lineComment
  /-- Behind a slash of plain text. -/
  | slash
  /-- In a block comment, perhaps behind a star of it. -/
  | blockComment (star : Bool)
  /-- Behind a colon of plain text, which has not been written out yet. -/
  | colon
  /-- In the name of a placeholder; what has been read of it, in reverse. -/
  | name (reversed : List Char)
deriving DecidableEq, Repr

/-- The quotes of literals and identifiers. -/
def isQuote (c : Char) : Bool :=
  c = '\x27' || c = '\x22' || c = '\x60'

/-- The place behind a character of plain text. -/
def behind (c : Char) : Place :=
  if isQuote c then .quoted c
  else if c = '-' then .hyphen
  else if c = '/' then .slash
  else .plain

/-- Reads a character in plain text. -/
def stepPlain (c : Char) : List (Piece String) × Place :=
  if c = ':' then ([], .colon) else ([.verbatim c], behind c)

/-- The slot of a placeholder whose name has been read. -/
def placeholder (reversed : List Char) : Piece String :=
  .slot (String.ofList reversed.reverse)

/-- Reads one character: the pieces that are complete with it, and the place behind it. -/
def step (place : Place) (c : Char) : List (Piece String) × Place :=
  match place with
  | .plain => stepPlain c
  | .quoted quote => ([.verbatim c], if c = quote then .plain else .quoted quote)
  | .hyphen => if c = '-' then ([.verbatim c], .lineComment) else stepPlain c
  | .lineComment => ([.verbatim c], if c = '\n' then .plain else .lineComment)
  | .slash => if c = '*' then ([.verbatim c], .blockComment false) else stepPlain c
  | .blockComment star =>
    ([.verbatim c], if star ∧ c = '/' then .plain else .blockComment (c = '*'))
  | .colon =>
    if c = ':' then ([.verbatim ':', .verbatim ':'], .plain)
    else if Text.isNameStart c then ([], .name [c])
    else
      let next := stepPlain c
      (.verbatim ':' :: next.1, next.2)
  | .name reversed =>
    if Text.isNameChar c then ([], .name (c :: reversed))
    else
      let next := stepPlain c
      (placeholder reversed :: next.1, next.2)

/-- The piece that the end of the text completes. -/
def flush : Place → List (Piece String)
  | .colon => [.verbatim ':']
  | .name reversed => [placeholder reversed]
  | _ => []

/-- The pieces that are complete after some characters, and the place behind them. -/
def scan (place : Place) : List Char → List (Piece String) × Place
  | [] => ([], place)
  | c :: rest =>
    let first := step place c
    let others := scan first.2 rest
    (first.1 ++ others.1, others.2)

/-- The pieces of a whole text. -/
def pieces (text : String) : List (Piece String) :=
  let scanned := scan .plain text.toList
  scanned.1 ++ flush scanned.2

/-- Reading goes on from where it has stopped. -/
theorem scan_append (place : Place) (first second : List Char) :
    scan place (first ++ second) =
      ((scan place first).1 ++ (scan (scan place first).2 second).1,
        (scan (scan place first).2 second).2) := by
  induction first generalizing place with
  | nil => simp [scan]
  | cons c rest ih => simp [scan, ih]

end Template

end FilterSql
