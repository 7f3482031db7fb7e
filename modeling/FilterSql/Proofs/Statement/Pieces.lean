import Mathlib.Tactic.Common
import FilterSql.Statement.Template

/-!
# Reading templates in parts

A template is read one character at a time, and what a character means depends on
the characters before it. A part that ends outside of quotes and comments can still
be waiting for its next character: after a hyphen, a slash or a colon, or in a name.
A separator, such as a blank or a closing parenthesis, settles all of these.

Results:
* `all_intercalate`, `all_toString`: what holds of the characters of all parts of a text
  holds of all its characters.
* `piecesFrom_append_settle`: the pieces of a text are those of its two halves, where
  the second half starts with a separator; `piecesFrom_append`: if the first half ends
  outside of quotes and comments, the second half is read as if it stood alone.
* `pieces_enclosed`: a text between inert text and text without a colon has the same
  pieces as alone.
* `Spells.append`, `Rests.append_spells`: the same for texts with known pieces.
* `Rests.of_inert`, `Spells.placeholder`: text without special characters stays as
  it is, and a colon with an identifier is one slot.
-/

namespace FilterSql

/-- A text as pieces that stay as they are. -/
def verbatim {σ : Type} (text : String) : List (Piece σ) :=
  text.toList.map .verbatim

/-! ## Characters of composed texts -/

theorem all_intercalate {P : Char → Bool} {separator : String} {parts : List String}
    (hseparator : separator.toList.all P = true)
    (hparts : ∀ part ∈ parts, part.toList.all P = true) :
    (separator.intercalate parts).toList.all P = true := by
  induction parts with
  | nil => simp
  | cons first rest ih =>
    have hfirst := hparts first List.mem_cons_self
    have hrest := ih fun part member => hparts part (List.mem_cons_of_mem _ member)
    cases rest with
    | nil => simpa using hfirst
    | cons second rest =>
      rw [String.intercalate_cons_cons]
      simp only [String.toList_append, List.all_append, Bool.and_eq_true]
      exact ⟨⟨hfirst, hseparator⟩, hrest⟩

/-- What holds of all digits holds of all characters of a number. -/
theorem all_toString {P : Char → Bool} (hdigits : ∀ c, c.isDigit = true → P c = true) (n : ℕ) :
    (toString n).toList.all P = true := by
  rw [List.all_eq_true]
  intro c hc
  have hdigit : c ∈ Nat.toDigits 10 n := by simpa using hc
  exact hdigits c (Nat.isDigit_of_mem_toDigits (by decide) (by decide) hdigit)

theorem not_mem_of_all_ne {c : Char} {text : List Char} (h : text.all (· != c) = true) :
    c ∉ text := by
  intro member
  have := List.all_eq_true.mp h c member
  simp at this

namespace Template

/-! ## Places and separators -/

/-- The places outside of quotes and comments. -/
def Place.IsOpen : Place → Prop
  | .quoted _ | .lineComment | .blockComment _ => False
  | _ => True

/-- The characters that continue no name, cast or sign of a comment. -/
def isSeparator (c : Char) : Bool :=
  !Text.isNameChar c && c != ':' && c != '-' && c != '*'

/-- The pieces of the rest of a text, read from a place. -/
def piecesFrom (place : Place) (text : List Char) : List (Piece String) :=
  (scan place text).1 ++ flush (scan place text).2

theorem pieces_eq (text : String) : pieces text = piecesFrom .plain text.toList := rfl

/-- The characters that go on with what has been started: a cast, a name or the sign of a
comment. A quote or a comment goes on with every character. -/
def Place.Continues : Place → Char → Prop
  | .plain, _ => False
  | .hyphen, c => c = '-'
  | .slash, c => c = '*'
  | .colon, c => c = ':' ∨ Text.isNameStart c = true
  | .name _, c => Text.isNameChar c = true
  | .quoted _, _ | .lineComment, _ | .blockComment _, _ => True

/-- A character that does not go on with what has been started is read as in plain text,
once what stands before it has been completed. -/
theorem step_of_not_continues {place : Place} {c : Char} (h : ¬ place.Continues c) :
    step place c = (flush place ++ (stepPlain c).1, (stepPlain c).2) := by
  cases place with
  | plain => rfl
  | quoted quote => exact (h trivial).elim
  | hyphen => exact if_neg h
  | lineComment => exact (h trivial).elim
  | slash => exact if_neg h
  | blockComment star => exact (h trivial).elim
  | colon =>
    rw [Place.Continues, not_or] at h
    rw [step, if_neg h.1, if_neg h.2]
    rfl
  | name reversed => exact if_neg h

theorem scan_of_not_continues {place : Place} {c : Char} (rest : List Char)
    (h : ¬ place.Continues c) :
    scan place (c :: rest) =
      (flush place ++ (scan .plain (c :: rest)).1, (scan .plain (c :: rest)).2) := by
  rw [scan, step_of_not_continues h, scan, step]
  simp

/-- What has been started is completed by the end of the text, or by a character that does
not go on with it. -/
theorem piecesFrom_of_not_continues {place : Place} {text : List Char}
    (h : ∀ c ∈ text.head?, ¬ place.Continues c) :
    piecesFrom place text = flush place ++ piecesFrom .plain text := by
  cases text with
  | nil => simp [piecesFrom, scan, flush]
  | cons c rest =>
    rw [piecesFrom, scan_of_not_continues rest (h c rfl), piecesFrom, List.append_assoc]

/-- A separator goes on with nothing that has been started in an open place. -/
theorem not_continues_of_separator {place : Place} (isOpen : place.IsOpen) {c : Char}
    (hc : isSeparator c = true) : ¬ place.Continues c := by
  simp only [isSeparator, Bool.and_eq_true, Bool.not_eq_true', bne_iff_ne, ne_eq] at hc
  obtain ⟨⟨⟨hname, hcolon⟩, hhyphen⟩, hstar⟩ := hc
  cases place with
  | plain => exact not_false
  | quoted quote => exact isOpen.elim
  | hyphen => exact hhyphen
  | lineComment => exact isOpen.elim
  | slash => exact hstar
  | blockComment star => exact isOpen.elim
  | colon =>
    rintro (rfl | hstart)
    · exact hcolon rfl
    · rw [Text.isNameChar_of_isNameStart hstart] at hname
      cases hname
  | name reversed => exact Bool.eq_false_iff.mp hname

/-- Nothing follows, or a separator. -/
def Separated (text : List Char) : Prop :=
  ∀ c ∈ text.head?, isSeparator c = true

theorem separated_cons_iff {c : Char} {rest : List Char} :
    Separated (c :: rest) ↔ isSeparator c = true := by
  simp [Separated]

instance : (text : List Char) → Decidable (Separated text)
  | [] => .isTrue fun _ h => nomatch h
  | _ :: _ => decidable_of_iff _ separated_cons_iff.symm

/-- The place when all that stands before it has been completed: a quote or a comment
goes on, and everything else is plain text. -/
def Place.settle : Place → Place
  | .quoted quote => .quoted quote
  | .lineComment => .lineComment
  | .blockComment star => .blockComment star
  | .plain | .hyphen | .slash | .colon | .name _ => .plain

theorem Place.settle_of_isOpen {place : Place} (isOpen : place.IsOpen) : place.settle = .plain := by
  cases place with
  | quoted quote => exact isOpen.elim
  | lineComment => exact isOpen.elim
  | blockComment star => exact isOpen.elim
  | _ => rfl

theorem flush_settle (place : Place) : flush place.settle = [] := by
  cases place <;> rfl

/-- A separator completes what stands before it, also if that is the beginning of a
quote or a comment. -/
theorem piecesFrom_of_separated (place : Place) {text : List Char} (h : Separated text) :
    piecesFrom place text = flush place ++ piecesFrom place.settle text := by
  by_cases isOpen : place.IsOpen
  · rw [Place.settle_of_isOpen isOpen]
    exact piecesFrom_of_not_continues fun c hc => not_continues_of_separator isOpen (h c hc)
  · cases place with
    | quoted quote => rfl
    | lineComment => rfl
    | blockComment star => rfl
    | _ => exact (isOpen trivial).elim

theorem piecesFrom_append_scan (place : Place) (first second : List Char) :
    piecesFrom place (first ++ second) =
      (scan place first).1 ++ piecesFrom (scan place first).2 second := by
  rw [piecesFrom, scan_append, piecesFrom, List.append_assoc]

/-- **Reading in two halves**, the second of which is read from where the first has
ended. -/
theorem piecesFrom_append_settle (place : Place) (first : List Char) {second : List Char}
    (h : Separated second) :
    piecesFrom place (first ++ second) =
      piecesFrom place first ++ piecesFrom (scan place first).2.settle second := by
  rw [piecesFrom_append_scan, piecesFrom_of_separated _ h, ← List.append_assoc]
  rfl

theorem pieces_append_settle (first : String) {second : String} (h : Separated second.toList) :
    pieces (first ++ second) =
      pieces first ++ piecesFrom (scan .plain first.toList).2.settle second.toList := by
  rw [pieces_eq, String.toList_append, piecesFrom_append_settle _ _ h]
  rfl

/-- **Reading in two halves**, the second of which is read as if it stood alone. -/
theorem piecesFrom_append {place : Place} {first second : List Char}
    (isOpen : (scan place first).2.IsOpen) (h : Separated second) :
    piecesFrom place (first ++ second) = piecesFrom place first ++ piecesFrom .plain second := by
  rw [piecesFrom_append_settle place first h, Place.settle_of_isOpen isOpen]

/-! ## Texts with known pieces -/

/-- A text that has these pieces and ends outside of quotes and comments. -/
structure Spells (text : List Char) (pieces : List (Piece String)) : Prop where
  pieces_eq : piecesFrom .plain text = pieces
  isOpen : (scan .plain text).2.IsOpen

/-- A text that has these pieces and ends in plain text. -/
def Rests (text : List Char) (pieces : List (Piece String)) : Prop :=
  scan .plain text = (pieces, .plain)

theorem Rests.spells {text : List Char} {pieces : List (Piece String)} (h : Rests text pieces) :
    Spells text pieces := by
  constructor
  · rw [piecesFrom, h]
    exact List.append_nil pieces
  · rw [h]
    trivial

/-- Behind a text that ends in plain text, the rest is read as if it stood alone. -/
theorem Rests.piecesFrom_append {first : List Char} {pieces : List (Piece String)}
    (h : Rests first pieces) (second : List Char) :
    piecesFrom .plain (first ++ second) = pieces ++ piecesFrom .plain second := by
  rw [piecesFrom_append_scan, h]

theorem Rests.append_spells {first second : List Char} {pieces others : List (Piece String)}
    (h : Rests first pieces) (h' : Spells second others) :
    Spells (first ++ second) (pieces ++ others) := by
  constructor
  · rw [h.piecesFrom_append, h'.pieces_eq]
  · rw [scan_append, h]
    exact h'.isOpen

theorem Spells.append {first second : List Char} {pieces others : List (Piece String)}
    (h : Spells first pieces) (hsep : Separated second) (h' : Spells second others) :
    Spells (first ++ second) (pieces ++ others) := by
  constructor
  · rw [piecesFrom_append h.isOpen hsep, h.pieces_eq, h'.pieces_eq]
  · rw [scan_append]
    cases second with
    | nil => exact h.isOpen
    | cons c rest =>
      rw [scan_of_not_continues rest (not_continues_of_separator h.isOpen (hsep c rfl))]
      exact h'.isOpen

/-! ## Inert text -/

/-- The characters that mean nothing to a template, wherever they stand. -/
def isInert (c : Char) : Bool :=
  !isQuote c && c != ':' && c != '-' && c != '/'

theorem isInert_of_isDigit {c : Char} (h : c.isDigit = true) : isInert c = true := by
  have hne : ∀ other : Char, other.isDigit = false → c ≠ other := by
    rintro other hother rfl
    rw [h] at hother
    cases hother
  simp [isInert, isQuote, hne '\x27' rfl, hne '\x22' rfl, hne '\x60' rfl, hne ':' rfl,
    hne '-' rfl, hne '/' rfl]

theorem step_plain_of_inert {c : Char} (hc : isInert c = true) :
    step .plain c = ([.verbatim c], .plain) := by
  simp only [isInert, Bool.and_eq_true, Bool.not_eq_true', bne_iff_ne, ne_eq] at hc
  obtain ⟨⟨⟨hquote, hcolon⟩, hhyphen⟩, hslash⟩ := hc
  simp [step, stepPlain, behind, hquote, hcolon, hhyphen, hslash]

/-- Inert text stays as it is. -/
theorem Rests.of_inert {text : List Char} (h : ∀ c ∈ text, isInert c = true) :
    Rests text (text.map .verbatim) := by
  rw [Rests]
  induction text with
  | nil => rfl
  | cons c rest ih =>
    rw [scan, step_plain_of_inert (h c List.mem_cons_self),
      ih fun other member => h other (List.mem_cons_of_mem _ member)]
    rfl

theorem Rests.verbatim {text : String} (h : text.toList.all isInert = true) :
    Rests text.toList (verbatim text) :=
  .of_inert (List.all_eq_true.mp h)

/-- Inert text stays as it is, and what stands behind it is read as if it stood alone. -/
theorem pieces_inert_append {head : String} (hhead : head.toList.all isInert = true)
    (rest : String) : pieces (head ++ rest) = verbatim head ++ pieces rest := by
  rw [pieces_eq, String.toList_append, (Rests.verbatim hhead).piecesFrom_append, pieces_eq]

/-! ## Text without a colon -/

/-- When nothing is pending, a character that is no colon stays as it is. What it means
to the characters behind it depends on the place. -/
theorem step_of_ne_colon {place : Place} (settled : flush place = []) {c : Char} (hc : c ≠ ':') :
    (step place c).1 = [.verbatim c] ∧ flush (step place c).2 = [] := by
  have hplain : (stepPlain c).1 = [.verbatim c] ∧ flush (stepPlain c).2 = [] := by
    rw [stepPlain, if_neg hc]
    refine ⟨rfl, ?_⟩
    show flush (behind c) = []
    unfold behind
    split_ifs <;> rfl
  cases place with
  | plain => exact hplain
  | quoted quote => by_cases h : c = quote <;> simp [step, flush, h]
  | hyphen =>
    by_cases h : c = '-'
    · simp [step, flush, h]
    · simpa only [step, if_neg h] using hplain
  | lineComment => by_cases h : c = '\n' <;> simp [step, flush, h]
  | slash =>
    by_cases h : c = '*'
    · simp [step, flush, h]
    · simpa only [step, if_neg h] using hplain
  | blockComment star => by_cases h : star = true ∧ c = '/' <;> simp [step, flush, h]
  | colon => cases settled
  | name reversed => cases settled

/-- Text without a colon stays as it is, wherever it stands, when nothing is pending. -/
theorem piecesFrom_of_no_colon {place : Place} (settled : flush place = []) {text : List Char}
    (h : ':' ∉ text) : piecesFrom place text = text.map .verbatim := by
  induction text generalizing place with
  | nil => exact settled
  | cons c rest ih =>
    rw [List.mem_cons, not_or] at h
    obtain ⟨hpieces, hnext⟩ := step_of_ne_colon settled (Ne.symm h.1)
    have hrest := ih hnext h.2
    rw [piecesFrom] at hrest ⊢
    rw [scan, hpieces, List.append_assoc, hrest]
    rfl

/-- A text between inert text and text without a colon is read as if it stood alone. -/
theorem pieces_enclosed {head tail : String} (hhead : head.toList.all isInert = true)
    (middle : String) (hsep : Separated tail.toList) (htail : ':' ∉ tail.toList) :
    pieces (head ++ middle ++ tail) = verbatim head ++ (pieces middle ++ verbatim tail) := by
  have htail' := piecesFrom_of_no_colon
    (flush_settle (scan .plain middle.toList).2) htail
  rw [String.append_assoc, pieces_inert_append hhead, pieces_append_settle middle hsep, htail']
  rfl

/-! ## Placeholders -/

theorem scan_name {reversed text : List Char} (h : ∀ c ∈ text, Text.isNameChar c = true) :
    scan (.name reversed) text = ([], .name (text.reverse ++ reversed)) := by
  induction text generalizing reversed with
  | nil => rfl
  | cons c rest ih =>
    have hc := h c List.mem_cons_self
    rw [scan, step, if_pos hc, ih fun other member => h other (List.mem_cons_of_mem _ member)]
    simp

theorem ne_colon_of_isNameStart {c : Char} (h : Text.isNameStart c = true) : c ≠ ':' := by
  rintro rfl
  revert h
  decide

/-- Behind a colon and an identifier, the name has been read. -/
theorem scan_placeholder {name : String} (h : Text.isIdentifier name = true) :
    scan .plain (':' :: name.toList) = ([], .name name.toList.reverse) := by
  obtain ⟨first, rest, hname, hfirst, hrest⟩ := Text.isIdentifier_iff.mp h
  simp [hname, scan, step, stepPlain, ne_colon_of_isNameStart hfirst, hfirst, scan_name hrest]

/-- A colon and an identifier are a slot of that name. -/
theorem Spells.placeholder {name : String} (h : Text.isIdentifier name = true) :
    Spells (":" ++ name).toList [.slot name] := by
  have htext : (":" ++ name).toList = ':' :: name.toList := String.toList_append
  constructor
  · rw [htext, piecesFrom, scan_placeholder h]
    simp [flush, Template.placeholder]
  · rw [htext, scan_placeholder h]
    trivial

end Template

end FilterSql
