/-!
# Names

Which texts can be names. A blank column name or catalogue name counts as absent, in the sense of
the Unicode property `White_Space`. Identifiers are written in ASCII: a letter or an underscore,
then letters, digits and underscores. One rule reads the name of a placeholder in a statement
(`is_name_start`, `is_name_char`) and checks the stem of generated parameter names
(`is_identifier`).
-/

namespace FilterSql.Text

/-! ## Blank texts -/

/-- The code point ranges, both ends included, of the Unicode property `White_Space`. -/
def whiteSpaceRanges : List (Nat × Nat) :=
  [(0x0009, 0x000D), (0x0020, 0x0020), (0x0085, 0x0085), (0x00A0, 0x00A0), (0x1680, 0x1680),
   (0x2000, 0x200A), (0x2028, 0x2029), (0x202F, 0x202F), (0x205F, 0x205F), (0x3000, 0x3000)]

/-- Membership in the Unicode property `White_Space`. -/
def isWhiteSpace (c : Char) : Bool :=
  whiteSpaceRanges.any fun range => range.1 ≤ c.toNat && c.toNat ≤ range.2

/-- A text is blank when it is empty or holds white space only. -/
def isBlank (text : String) : Bool :=
  text.toList.all isWhiteSpace

/-! ## Identifiers -/

/-- The characters an identifier may start with. -/
def isNameStart (c : Char) : Bool :=
  c.isAlpha || c == '_'

/-- The characters an identifier may go on with. -/
def isNameChar (c : Char) : Bool :=
  c.isAlphanum || c == '_'

/-- An identifier is a start character followed by name characters. -/
def isIdentifier (text : String) : Bool :=
  match text.toList with
  | [] => false
  | first :: rest => isNameStart first && rest.all isNameChar

theorem isIdentifier_iff {text : String} :
    isIdentifier text = true ↔
      ∃ first rest, text.toList = first :: rest ∧ isNameStart first = true ∧
        ∀ c ∈ rest, isNameChar c = true := by
  rw [isIdentifier]
  cases text.toList with
  | nil => simp
  | cons first rest =>
    simp only [Bool.and_eq_true, List.all_eq_true]
    constructor
    · intro h
      exact ⟨first, rest, rfl, h⟩
    · rintro ⟨_, _, htext, h⟩
      cases htext
      exact h

/-- A start character may also stand later in an identifier. -/
theorem isNameChar_of_isNameStart {c : Char} (h : isNameStart c = true) : isNameChar c = true := by
  simp only [isNameStart, isNameChar, Char.isAlphanum, Bool.or_eq_true] at h ⊢
  rcases h with h | h
  · exact .inl (.inl h)
  · exact .inr h

theorem isNameChar_of_isIdentifier {text : String} (h : isIdentifier text = true) :
    ∀ c ∈ text.toList, isNameChar c = true := by
  obtain ⟨first, rest, htext, hfirst, hrest⟩ := isIdentifier_iff.mp h
  rw [htext]
  intro c hc
  rcases List.mem_cons.mp hc with rfl | hc
  · exact isNameChar_of_isNameStart hfirst
  · exact hrest c hc

end FilterSql.Text
