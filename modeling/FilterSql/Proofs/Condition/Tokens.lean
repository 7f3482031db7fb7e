import FilterSql.Proofs.Condition.Template
import FilterSql.Proofs.Sql.Grammar

/-!
# The tokens of conditions

What SQL tells apart in the text of a condition, written down along the condition.

Results:
* `Condition.lex_text`: the tokens of the text of a condition, with any text behind it
  that does not go on with a name.
-/

namespace FilterSql

open Sql

/-- A column that SQL reads as a name. -/
structure Sql.Spelling.IsColumn (spelling : Spelling) (column : String) : Prop where
  isIdentifier : Text.isIdentifier column = true
  not_keyword : spelling.keyword? column = none

instance (spelling : Spelling) (column : String) : Decidable (spelling.IsColumn column) :=
  decidable_of_iff (Text.isIdentifier column = true ∧ spelling.keyword? column = none)
    ⟨fun h => ⟨h.1, h.2⟩, fun h => ⟨h.isIdentifier, h.not_keyword⟩⟩

/-- The keyword of a connective. -/
def Connective.keyword : Connective → Keyword
  | .and => .and
  | .or => .or

/-- The tokens of the condition that a group starts from. -/
def Connective.seedTokens : Connective → List Token
  | .and => [.number "1", .sign .equal, .number "1"]
  | .or => [.number "1", .sign .equal, .number "0"]

namespace Condition

/-- The tokens of one column matching a pattern. -/
def likeTokens (column : String) (escaped : Bool) (pattern : Slot) : List Token :=
  [.name column, .keyword .like, .parameter pattern.name] ++
    if escaped then [.keyword .escape, .literal "\\"] else []

/-- The tokens of one of several columns matching a pattern. -/
def likesTokens (escaped : Bool) (pattern : Slot) : List String → List Token
  | [] => []
  | column :: rest =>
    likeTokens column escaped pattern ++
      rest.flatMap fun other => .keyword .or :: likeTokens other escaped pattern

mutual

/-- The tokens of a condition. -/
def tokens : Condition → List Token
  | .compare column relation operand =>
    [.name column, .sign relation, .parameter operand.name]
  | .among column list =>
    [.name column, .keyword .among, .opening, .parameter list.name, .closing]
  | .range column low high =>
    [.name column, .keyword .between, .parameter low.name, .keyword .and, .parameter high.name]
  | .like columns escaped pattern => likesTokens escaped pattern columns
  | .group connective children => connective.seedTokens ++ childTokens connective children

/-- The tokens of the children of a group. -/
def childTokens (connective : Connective) : List Condition → List Token
  | [] => []
  | child :: rest =>
    .keyword connective.keyword :: .opening ::
      (child.tokens ++ .closing :: childTokens connective rest)

end

variable {spelling : Spelling}

theorem isWordText_of_isIdentifier {text : String} (h : Text.isIdentifier text = true) :
    IsWordText text := by
  obtain ⟨first, rest, htext, _⟩ := Text.isIdentifier_iff.mp h
  have nonempty : text.toList ≠ [] := by simp [htext]
  exact ⟨nonempty, Text.isNameChar_of_isIdentifier h⟩

theorem not_isDigit_of_isNameStart {c : Char} (h : Text.isNameStart c = true) :
    c.isDigit = false := by
  have hletter : ∀ low : Char, '9'.toNat < low.toNat → low.val ≤ c.val → c.isDigit = false := by
    intro low hlow hle
    rw [UInt32.le_iff_toNat_le] at hle
    rw [Bool.eq_false_iff, Ne, Char.isDigit_iff_toNat]
    rintro ⟨-, hdigit⟩
    have hbelow : low.toNat ≤ c.toNat := hle
    omega
  rw [Text.isNameStart, Bool.or_eq_true] at h
  rcases h with h | h
  · rcases (Bool.or_eq_true _ _).mp h with hupper | hlower
    · exact hletter 'A' (by decide) (of_decide_eq_true hupper).1
    · exact hletter 'a' (by decide) (of_decide_eq_true (Bool.and_eq_true_iff.mp hlower).1)
  · rw [beq_iff_eq.mp h]
    rfl

theorem token_column {column : String} (h : spelling.IsColumn column) :
    spelling.token column = .name column := by
  have hletter : column.toList.all Char.isDigit = false := by
    obtain ⟨first, rest, hcolumn, hfirst, _⟩ := Text.isIdentifier_iff.mp h.isIdentifier
    rw [hcolumn, List.all_cons, not_isDigit_of_isNameStart hfirst, Bool.false_and]
  rw [Spelling.token, hletter, h.not_keyword]
  rfl

theorem lex_column {column : String} (h : spelling.IsColumn column) {rest : List Char}
    (hrest : EndsName rest) :
    spelling.lex (column.toList ++ rest) = .name column :: spelling.lex rest := by
  rw [lex_word (isWordText_of_isIdentifier h.isIdentifier) hrest, token_column h]

theorem lex_placeholder {slot : Slot} (h : Text.isIdentifier slot.name = true) {rest : List Char}
    (hrest : EndsName rest) :
    spelling.lex (slot.placeholder.toList ++ rest) = .parameter slot.name :: spelling.lex rest :=
  lex_parameter (isWordText_of_isIdentifier h).2 hrest

theorem lex_likeText {column : String} (hcolumn : spelling.IsColumn column) (escaped : Bool)
    {pattern : Slot} (hname : Text.isIdentifier pattern.name = true) {rest : List Char}
    (hrest : EndsName rest) :
    spelling.lex ((likeText column escaped pattern).toList ++ rest) =
      likeTokens column escaped pattern ++ spelling.lex rest := by
  have hlike : ∀ rest, spelling.lex (" LIKE ".toList ++ rest) =
      .keyword .like :: spelling.lex rest := by
    intro rest
    rw [← token_keyword]
    rfl
  have hescape : spelling.lex (" ESCAPE '\\'".toList ++ rest) =
      .keyword .escape :: .literal "\\" :: spelling.lex rest := by
    rw [← token_keyword]
    rfl
  rw [likeText, String.toList_append, String.toList_append, String.toList_append,
    List.append_assoc, List.append_assoc, List.append_assoc,
    lex_column hcolumn (endsName_append rfl rfl _), hlike]
  cases escaped with
  | false =>
    rw [lex_placeholder hname]
    · rfl
    · exact hrest
  | true =>
    rw [lex_placeholder hname (endsName_append rfl rfl _), if_pos rfl, hescape]
    rfl

theorem lex_likeTexts {columns : List String}
    (hcolumns : ∀ column ∈ columns, spelling.IsColumn column) (escaped : Bool) {pattern : Slot}
    (hname : Text.isIdentifier pattern.name = true) {rest : List Char} (hrest : EndsName rest) :
    spelling.lex ((" OR ".intercalate
      (columns.map fun column => likeText column escaped pattern)).toList ++ rest) =
        likesTokens escaped pattern columns ++ spelling.lex rest := by
  have hor : ∀ rest, spelling.lex (" OR ".toList ++ rest) =
      .keyword .or :: spelling.lex rest := by
    intro rest
    rw [← token_keyword]
    rfl
  induction columns with
  | nil => rfl
  | cons column others ih =>
    have hcolumn := hcolumns column List.mem_cons_self
    cases others with
    | nil =>
      rw [List.map_singleton, String.intercalate_singleton, likesTokens, List.flatMap_nil,
        List.append_nil]
      exact lex_likeText hcolumn escaped hname hrest
    | cons second others =>
      have hothers := ih fun other member => hcolumns other (List.mem_cons_of_mem _ member)
      rw [List.map_cons] at hothers
      rw [List.map_cons, List.map_cons, String.intercalate_cons_cons, String.toList_append,
        String.toList_append, List.append_assoc, List.append_assoc,
        lex_likeText hcolumn escaped hname (endsName_append rfl rfl _), hor, hothers]
      simp [likesTokens]

theorem lex_childrenText {children : List Condition}
    (ih : ∀ child ∈ children, ∀ {rest : List Char}, EndsName rest →
      spelling.lex (child.text.toList ++ rest) = child.tokens ++ spelling.lex rest)
    (connective : Connective) {rest : List Char} :
    spelling.lex ((childrenText connective children).toList ++ rest) =
      childTokens connective children ++ spelling.lex rest := by
  have hjoiner : ∀ rest, spelling.lex (connective.joiner.toList ++ ("(".toList ++ rest)) =
      .keyword connective.keyword :: .opening :: spelling.lex rest := by
    intro rest
    rw [← token_keyword]
    cases connective <;> rfl
  have hclosing : ∀ rest, spelling.lex (")".toList ++ rest) = .closing :: spelling.lex rest :=
    fun rest => rfl
  induction children with
  | nil => rfl
  | cons child others ihothers =>
    have hothers := ihothers fun other member => ih other (List.mem_cons_of_mem _ member)
    rw [childrenText, String.toList_append, String.toList_append, String.toList_append,
      String.toList_append, List.append_assoc, List.append_assoc, List.append_assoc,
      List.append_assoc, hjoiner, ih child List.mem_cons_self (endsName_append rfl rfl _),
      hclosing, hothers, childTokens]
    simp

theorem lex_seed (connective : Connective) {rest : List Char} (hrest : EndsName rest) :
    spelling.lex (connective.seed.toList ++ rest) =
      connective.seedTokens ++ spelling.lex rest := by
  have hlast : ∀ {digit : String}, IsWordText digit → digit.toList.all Char.isDigit = true →
      spelling.lex (digit.toList ++ rest) = .number digit :: spelling.lex rest := by
    intro digit hword hdigits
    rw [lex_word hword hrest, Spelling.token, if_pos hdigits]
  cases connective with
  | and =>
    have hfirst : spelling.lex ("1=1".toList ++ rest) =
        .number "1" :: .sign .equal :: spelling.lex ("1".toList ++ rest) := rfl
    rw [Connective.seed, hfirst, hlast ⟨by simp, List.all_eq_true.mp rfl⟩ rfl]
    rfl
  | or =>
    have hfirst : spelling.lex ("1=0".toList ++ rest) =
        .number "1" :: .sign .equal :: spelling.lex ("0".toList ++ rest) := rfl
    rw [Connective.seed, hfirst, hlast ⟨by simp, List.all_eq_true.mp rfl⟩ rfl]
    rfl

theorem endsName_childrenText (connective : Connective) (children : List Condition)
    {rest : List Char} (hrest : EndsName rest) :
    EndsName ((childrenText connective children).toList ++ rest) := by
  cases children with
  | nil => exact hrest
  | cons child others =>
    have hfirst : (childrenText connective (child :: others)).toList.head? = some ' ' := by
      rw [childrenText, String.append_assoc, String.append_assoc, String.append_assoc,
        String.toList_append]
      cases connective <;> rfl
    exact endsName_append hfirst rfl rest

/-- The tokens of the text of a condition, and then those of the text behind it. -/
theorem lex_text {condition : Condition}
    (hcolumns : ∀ column ∈ condition.columns, spelling.IsColumn column)
    (hnames : ∀ slot ∈ condition.slots, Text.isIdentifier slot.name = true) {rest : List Char}
    (hrest : EndsName rest) :
    spelling.lex (condition.text.toList ++ rest) = condition.tokens ++ spelling.lex rest := by
  induction condition using Condition.induct generalizing rest with
  | compare column relation operand =>
    have hcolumn := hcolumns column (by simp [columns])
    have hoperand := hnames operand (by simp [slots])
    rw [text, String.toList_append, String.toList_append, String.toList_append,
      String.toList_append, List.append_assoc, List.append_assoc, List.append_assoc,
      List.append_assoc, lex_column hcolumn (endsName_append rfl rfl _)]
    change _ :: spelling.lex (relation.sign.toList ++ _) = _
    rw [lex_sign, lex_placeholder hoperand hrest]
    rfl
  | among column list =>
    have hcolumn := hcolumns column (by simp [columns])
    have hlist := hnames list (by simp [slots])
    have hin : ∀ rest, spelling.lex (" IN (".toList ++ rest) =
        .keyword .among :: .opening :: spelling.lex rest := by
      intro rest
      rw [← token_keyword]
      rfl
    rw [text, String.toList_append, String.toList_append, String.toList_append,
      List.append_assoc, List.append_assoc, List.append_assoc,
      lex_column hcolumn (endsName_append rfl rfl _), hin,
      lex_placeholder hlist (endsName_append rfl rfl _)]
    rfl
  | range column low high =>
    have hcolumn := hcolumns column (by simp [columns])
    have hlow := hnames low (by simp [slots])
    have hhigh := hnames high (by simp [slots])
    have hbetween : ∀ rest, spelling.lex (" BETWEEN ".toList ++ rest) =
        .keyword .between :: spelling.lex rest := by
      intro rest
      rw [← token_keyword]
      rfl
    have hand : ∀ rest, spelling.lex (" AND ".toList ++ rest) =
        .keyword .and :: spelling.lex rest := by
      intro rest
      rw [← token_keyword]
      rfl
    rw [text, String.toList_append, String.toList_append, String.toList_append,
      String.toList_append, List.append_assoc, List.append_assoc, List.append_assoc,
      List.append_assoc, lex_column hcolumn (endsName_append rfl rfl _), hbetween,
      lex_placeholder hlow (endsName_append rfl rfl _), hand, lex_placeholder hhigh hrest]
    rfl
  | like columns escaped pattern =>
    rw [text, tokens]
    exact lex_likeTexts hcolumns escaped (hnames pattern (by simp [slots])) hrest
  | group connective children ih =>
    rw [columns] at hcolumns
    rw [slots] at hnames
    rw [text, String.toList_append, List.append_assoc,
      lex_seed connective (endsName_childrenText connective children hrest),
      lex_childrenText _ connective, tokens, List.append_assoc]
    exact fun child member => ih child member
      (fun column h => hcolumns column (mem_childColumns member h))
      (fun slot h => hnames slot (mem_childSlots member h))

theorem lex_whole_text {condition : Condition}
    (hcolumns : ∀ column ∈ condition.columns, spelling.IsColumn column)
    (hnames : ∀ slot ∈ condition.slots, Text.isIdentifier slot.name = true) :
    spelling.lex condition.text.toList = condition.tokens := by
  have hlex := lex_text hcolumns hnames endsName_nil
  rw [List.append_nil] at hlex
  rw [hlex]
  exact List.append_nil _

end Condition

end FilterSql
