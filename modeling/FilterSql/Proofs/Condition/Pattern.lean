import Mathlib.Data.List.Infix
import Mathlib.Tactic.Common
import FilterSql.Proofs.Condition.Compiled

/-!
# What a search pattern matches

With escaping, the pattern of a search is read back by `LIKE` as what was searched: the
two signs around it stand for any text, and every character between them for itself.

Results:
* `like_escape_iff`: an escaped character matches itself and nothing else.
* `toList_escapeText`: escaping sign by sign, with the escape character first, is escaping
  character by character; `containing_eq`: the pattern of a search, written out.
* `Predicate.eq_like_of_isSearch`: what a predicate that searches columns compiles to.
* `search_matches_occurrences`: the texts that match an escaped pattern are those in which
  the searched text occurs, no escape character of the pattern is idle, and this pattern
  is what searches are compiled to.
-/

namespace FilterSql

/-! ## Specification -/

/-- A predicate searches for its value in the texts of columns: in a keyword search
whatever the operator is, and else when a field has to contain a value that is no array.
Without a value there is nothing to search for. -/
def Predicate.IsSearch (predicate : Predicate) : Prop :=
  predicate.value.isNull = false ∧ (predicate.field = keywordField ∨
    predicate.operator = some .contains ∧ predicate.value.isArray = false)

instance (predicate : Predicate) : Decidable predicate.IsSearch :=
  inferInstanceAs (Decidable (_ ∧ _))

/-- The columns that a predicate searches. -/
def Predicate.searchedColumns (schema : Schema) (predicate : Predicate) : List String :=
  if predicate.IsSearch then
    if predicate.field = keywordField then schema.keywordColumns
    else (schema.column? predicate.field).toList
  else []

namespace Pattern

/-- The characters that have a meaning of their own in an escaped pattern. -/
def isSpecial (c : Char) : Bool :=
  c = escapeCharacter || c = '%' || c = '_'

/-- A character as it is written in an escaped pattern. -/
def escape (c : Char) : List Char :=
  if isSpecial c then [escapeCharacter, c] else [c]

/-- A text is like a pattern under `ESCAPE`: `%` stands for any characters, `_` for any
one, the character behind an escape character for itself, and every other character for
itself. -/
inductive Like : List Char → List Char → Prop where
  | nil : Like [] []
  | sequence (skipped : List Char) {pattern text : List Char} (rest : Like pattern text) :
      Like ('%' :: pattern) (skipped ++ text)
  | single (c : Char) {pattern text : List Char} (rest : Like pattern text) :
      Like ('_' :: pattern) (c :: text)
  | taken (c : Char) {pattern text : List Char} (rest : Like pattern text) :
      Like (escapeCharacter :: c :: pattern) (c :: text)
  | same {c : Char} {pattern text : List Char} (ordinary : isSpecial c = false)
      (rest : Like pattern text) : Like (c :: pattern) (c :: text)

/-- Every escape character stands before a character that would have a meaning of its own
without it. -/
def EscapesSpecials : List Char → Prop
  | [] => True
  | [c] => c ≠ escapeCharacter
  | c :: next :: rest =>
    if c = escapeCharacter then isSpecial next = true ∧ EscapesSpecials rest
    else EscapesSpecials (next :: rest)

end Pattern

/-- The pattern of a search, written out. What is searched, a string as it is and any other
value as JSON text, stands between two signs for any text. With escaping, an escape
character stands before each of its characters that has a meaning of its own. -/
def Json.searchPattern (escaped : Bool) (value : Json) : String :=
  let searched := match value with
    | .string text => text.toList
    | other => other.text.toList
  let written := searched.flatMap fun c => if escaped then Pattern.escape c else [c]
  String.ofList ('%' :: written ++ ['%'])

namespace Pattern

/-! ## Matching in parts -/

variable {pattern text : List Char}

theorem like_sequence_iff :
    Like ('%' :: pattern) text ↔ ∃ skipped rest, text = skipped ++ rest ∧ Like pattern rest := by
  constructor
  · intro h
    generalize hwhole : '%' :: pattern = whole at h
    cases h with
    | nil => cases hwhole
    | sequence skipped rest =>
      obtain rfl := (List.cons.inj hwhole).2
      exact ⟨skipped, _, rfl, rest⟩
    | single c rest => exact absurd (List.cons.inj hwhole).1 (by decide)
    | taken c rest => exact absurd (List.cons.inj hwhole).1 (by decide)
    | same ordinary rest =>
      rw [← (List.cons.inj hwhole).1] at ordinary
      cases ordinary
  · rintro ⟨skipped, rest, rfl, h⟩
    exact .sequence skipped h

/-- The sign at the end of a pattern takes up all that is left. -/
theorem like_last_sequence (text : List Char) : Like ['%'] text :=
  like_sequence_iff.mpr ⟨text, [], (List.append_nil text).symm, .nil⟩

/-- An escaped character matches itself and nothing else. -/
theorem like_escape_iff (c : Char) :
    Like (escape c ++ pattern) text ↔ ∃ rest, text = c :: rest ∧ Like pattern rest := by
  rw [escape]
  split_ifs with special
  · constructor
    · intro h
      generalize hwhole : [escapeCharacter, c] ++ pattern = whole at h
      cases h with
      | nil => cases hwhole
      | sequence skipped rest => exact absurd (List.cons.inj hwhole).1 (by decide)
      | single c rest => exact absurd (List.cons.inj hwhole).1 (by decide)
      | taken c rest =>
        cases hwhole
        exact ⟨_, rfl, rest⟩
      | same ordinary rest =>
        rw [← (List.cons.inj hwhole).1] at ordinary
        cases ordinary
    · rintro ⟨rest, rfl, h⟩
      exact .taken c h
  · rw [Bool.not_eq_true] at special
    constructor
    · intro h
      generalize hwhole : [c] ++ pattern = whole at h
      cases h with
      | nil => cases hwhole
      | same ordinary rest =>
        cases hwhole
        exact ⟨_, rfl, rest⟩
      | _ =>
        rw [(List.cons.inj hwhole).1] at special
        cases special
    · rintro ⟨rest, rfl, h⟩
      exact .same special h

theorem like_escaped_iff (searched : List Char) :
    Like (searched.flatMap escape ++ pattern) text ↔
      ∃ rest, text = searched ++ rest ∧ Like pattern rest := by
  induction searched generalizing text with
  | nil => simp
  | cons c searched ih =>
    rw [List.flatMap_cons, List.append_assoc, like_escape_iff]
    constructor
    · rintro ⟨behind, rfl, h⟩
      obtain ⟨rest, rfl, hrest⟩ := ih.mp h
      exact ⟨rest, rfl, hrest⟩
    · rintro ⟨rest, rfl, hrest⟩
      exact ⟨_, rfl, ih.mpr ⟨rest, rfl, hrest⟩⟩

/-- Between two signs for any text, escaped text matches wherever it occurs. -/
theorem like_enclosed_iff (searched : List Char) :
    Like ('%' :: (searched.flatMap escape ++ ['%'])) text ↔ searched <:+: text := by
  rw [like_sequence_iff]
  constructor
  · rintro ⟨skipped, _, rfl, h⟩
    obtain ⟨rest, rfl, _⟩ := (like_escaped_iff searched).mp h
    exact ⟨skipped, rest, List.append_assoc _ _ _⟩
  · rintro ⟨skipped, rest, rfl⟩
    refine ⟨skipped, searched ++ rest, List.append_assoc _ _ _, ?_⟩
    exact (like_escaped_iff searched).mpr ⟨rest, rfl, like_last_sequence rest⟩

/-! ## Escape characters -/

theorem escapesSpecials_cons {c : Char} (ordinary : c ≠ escapeCharacter)
    (h : EscapesSpecials pattern) : EscapesSpecials (c :: pattern) := by
  cases pattern with
  | nil => exact ordinary
  | cons next rest => rwa [EscapesSpecials, if_neg ordinary]

theorem escapesSpecials_escape_append (c : Char) (h : EscapesSpecials pattern) :
    EscapesSpecials (escape c ++ pattern) := by
  rw [escape]
  split_ifs with special
  · exact ⟨special, h⟩
  · refine escapesSpecials_cons ?_ h
    rintro rfl
    exact special rfl

theorem escapesSpecials_enclosed (searched : List Char) :
    EscapesSpecials ('%' :: (searched.flatMap escape ++ ['%'])) := by
  apply escapesSpecials_cons (by decide)
  induction searched with
  | nil => exact escapesSpecials_cons (by decide) trivial
  | cons c searched ih =>
    rw [List.flatMap_cons, List.append_assoc]
    exact escapesSpecials_escape_append c ih

/-! ## The pattern of a search -/

theorem toList_escapeSign (sign : Char) (text : String) :
    (escapeSign sign text).toList =
      text.toList.flatMap fun c => if c = sign then [escapeCharacter, c] else [c] :=
  String.toList_ofList

/-- Escaping sign by sign, with the escape character first, is escaping character by
character. -/
theorem toList_escapeText (text : String) :
    (escapeText text).toList = text.toList.flatMap escape := by
  rw [escapeText, toList_escapeSign, toList_escapeSign, toList_escapeSign, List.flatMap_assoc,
    List.flatMap_assoc]
  congr 1
  funext c
  by_cases hescape : c = escapeCharacter
  · rw [hescape]
    rfl
  by_cases hsequence : c = '%'
  · rw [hsequence]
    rfl
  by_cases hsingle : c = '_'
  · rw [hsingle]
    rfl
  · simp [escape, isSpecial, hescape, hsequence, hsingle]

/-- Escaped after the wildcards, the escape characters of the wildcards would be escaped
too. -/
example : escapeSign escapeCharacter (escapeSign '%' "%") = "\\\\%" := rfl

theorem toList_containing (operand : Json) (escaped : Bool) :
    (containing operand escaped).toList =
      '%' :: ((searchedText operand).toList.flatMap
        (fun c => if escaped then escape c else [c]) ++ ['%']) := by
  rw [containing, String.toList_append, String.toList_append]
  cases escaped with
  | true =>
    simp only [if_true, toList_escapeText]
    rfl
  | false =>
    simp only [Bool.false_eq_true, if_false, List.flatMap_singleton']
    rfl

theorem containing_eq (operand : Json) (escaped : Bool) :
    containing operand escaped = operand.searchPattern escaped := by
  have hsearched : (searchedText operand).toList =
      match operand with
      | .string text => text.toList
      | other => other.text.toList := by
    cases operand <;> rfl
  unfold Json.searchPattern
  rw [← String.toList_inj, toList_containing, String.toList_ofList, hsearched, List.cons_append]

end Pattern

/-! ## Searches -/

namespace Predicate

variable {schema : Schema} {config : Config} {stem : String} {predicate : Predicate}
variable {result : Option Condition}

/-- A search compares its columns, of which there is one at least, with one pattern. -/
theorem eq_like_of_isSearch (h : Compiled schema config stem predicate result)
    (search : predicate.IsSearch) :
    predicate.searchedColumns schema ≠ [] ∧
      result = some (.like (predicate.searchedColumns schema) config.escapeWildcards
        ⟨slotName stem 0,
          .string (Pattern.containing predicate.value config.escapeWildcards)⟩) := by
  rw [searchedColumns, if_pos search]
  obtain ⟨some, hkind⟩ := search
  cases h with
  | unset null =>
    rw [null] at some
    cases some
  | keyword set field columns =>
    rw [if_pos field]
    exact ⟨columns, rfl⟩
  | contains set field mapped operator value =>
    rw [if_neg field, mapped]
    exact ⟨List.cons_ne_nil _ _, rfl⟩
  | among field mapped operator value => simp [field, value, Json.isArray] at hkind
  | equal set field mapped operator value => simp [field, operator] at hkind
  | between field mapped operator value short single => simp [field, operator] at hkind
  | order set field mapped operator value => simp [field, operator] at hkind

end Predicate

/-- **Escaped searches match literally.**
* The texts that are like the escaped pattern of an operand are those in which the
  searched text occurs: a string as it is, and any other operand as JSON text.
* No escape character ends such a pattern, or stands before a character without a meaning
  of its own.
* When wildcards are escaped, a search that compiles compares each of its columns with the
  escaped pattern of its value, and says that it is escaped. -/
theorem search_matches_occurrences :
    (∀ (operand : Json) (text : String),
      Pattern.Like (Pattern.containing operand true).toList text.toList ↔
        (Pattern.searchedText operand).toList <:+: text.toList) ∧
    (∀ operand : Json, Pattern.EscapesSpecials (Pattern.containing operand true).toList) ∧
    ∀ (schema : Schema) (config : Config) (stem : String) (predicate : Predicate)
      (result : Option Condition), config.escapeWildcards = true → predicate.IsSearch →
      predicate.condition? schema config stem = .ok result →
      result = some (.like (predicate.searchedColumns schema) true
        ⟨slotName stem 0, .string (Pattern.containing predicate.value true)⟩) := by
  refine ⟨fun operand text => ?_, fun operand => ?_, ?_⟩
  · rw [Pattern.toList_containing]
    exact Pattern.like_enclosed_iff _
  · rw [Pattern.toList_containing]
    exact Pattern.escapesSpecials_enclosed _
  · intro schema config stem predicate result escaping search h
    rw [← escaping]
    exact (Predicate.eq_like_of_isSearch (Predicate.compiled_of_condition? h) search).2

theorem search_for_percentage :
    (⟨"name", some .contains, .string "5%"⟩ : Predicate).condition?
        (.build "order" "ORDERS" [.column "name" "NAME"]) { escapeWildcards := true } "p" =
      .ok (some (.like ["NAME"] true ⟨"p__0", .string "%5\\%%"⟩)) ∧
    Pattern.Like "%5\\%%".toList "from 5% on".toList ∧
    ¬ Pattern.Like "%5\\%%".toList "from 50 on".toList := by
  obtain ⟨hlike, -, hcompiled⟩ := search_matches_occurrences
  have search : (⟨"name", some .contains, .string "5%"⟩ : Predicate).IsSearch := by decide
  have hcondition := hcompiled (.build "order" "ORDERS" [.column "name" "NAME"])
    { escapeWildcards := true } "p" _ _ rfl search rfl
  refine ⟨congrArg Except.ok hcondition, ?_, ?_⟩
  · exact (hlike (.string "5%") "from 5% on").mpr ⟨"from ".toList, " on".toList, rfl⟩
  · intro h
    have hinfix := (hlike (.string "5%") "from 50 on").mp h
    revert hinfix
    decide

end FilterSql
