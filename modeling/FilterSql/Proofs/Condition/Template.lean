import FilterSql.Proofs.Condition.Slots
import FilterSql.Proofs.Schema.Columns
import FilterSql.Proofs.Statement.Filling

/-!
# Conditions as templates

The text of a condition as a sequence of pieces, written down along the condition.
What stands in a slot is left open: its name, or the values that are bound.

Results:
* `Condition.spells_text`: reading the text of a condition gives its pieces, when
  the columns hold no special character and the names are identifiers.
* `Condition.fills_template`: filling the pieces puts the values of the slots in
  place of their names.
* `Filter.columns_condition?`, `Filter.isIdentifier_slots`: both provisos hold of
  what a filter compiles to.
-/

namespace FilterSql

/-- A text without characters that mean something to a template. -/
def IsInertText (text : String) : Prop :=
  text.toList.all Template.isInert = true

instance (text : String) : Decidable (IsInertText text) :=
  inferInstanceAs (Decidable (_ = _))

theorem IsInertText.append {first second : String} (h : IsInertText first)
    (h' : IsInertText second) : IsInertText (first ++ second) := by
  rw [IsInertText, String.toList_append, List.all_append, h, h']
  rfl

/-- The values that are bound for a slot. -/
def Slot.boundValues (slot : Slot) : List BoundValue :=
  BoundValue.listOfJson slot.value

namespace Condition

open Template (Spells Rests Separated)
open Statement (Fills)

/-! ## Pieces and columns of a condition -/

section Template

variable {σ : Type} (slot : Slot → σ)

/-- The pieces of one column matching a pattern. -/
def likeTemplate (column : String) (escaped : Bool) (pattern : Slot) : List (Piece σ) :=
  verbatim (column ++ " LIKE ") ++
    ([.slot (slot pattern)] ++ verbatim (if escaped then " ESCAPE '\\'" else ""))

/-- The pieces of one of several columns matching a pattern. -/
def likeTemplates (escaped : Bool) (pattern : Slot) : List String → List (Piece σ)
  | [] => []
  | [column] => likeTemplate slot column escaped pattern
  | column :: rest =>
    likeTemplate slot column escaped pattern ++
      (verbatim " OR " ++ likeTemplates escaped pattern rest)

mutual

/-- The pieces of a condition. -/
def template : Condition → List (Piece σ)
  | .compare column relation operand =>
    verbatim (column ++ " " ++ relation.sign ++ " ") ++ [.slot (slot operand)]
  | .among column list =>
    verbatim (column ++ " IN (") ++ ([.slot (slot list)] ++ verbatim ")")
  | .range column low high =>
    verbatim (column ++ " BETWEEN ") ++
      ([.slot (slot low)] ++ (verbatim " AND " ++ [.slot (slot high)]))
  | .like columns escaped pattern => likeTemplates slot escaped pattern columns
  | .group connective children => verbatim connective.seed ++ childTemplates connective children

/-- The pieces of the children of a group. -/
def childTemplates (connective : Connective) : List Condition → List (Piece σ)
  | [] => []
  | child :: rest =>
    verbatim (connective.joiner ++ "(") ++
      (child.template ++ (verbatim ")" ++ childTemplates connective rest))

end

end Template

mutual

/-- The columns that a condition mentions. -/
def columns : Condition → List String
  | .compare column _ _ | .among column _ | .range column _ _ => [column]
  | .like columns _ _ => columns
  | .group _ children => childColumns children

/-- The columns that children mention. -/
def childColumns : List Condition → List String
  | [] => []
  | child :: rest => child.columns ++ childColumns rest

end

theorem mem_childColumns {children : List Condition} {child : Condition} (member : child ∈ children)
    {column : String} (h : column ∈ child.columns) : column ∈ childColumns children := by
  induction children with
  | nil => cases member
  | cons first rest ih =>
    rw [childColumns, List.mem_append]
    rcases List.mem_cons.mp member with rfl | member
    · exact .inl h
    · exact .inr (ih member)

theorem mem_childSlots {children : List Condition} {child : Condition} (member : child ∈ children)
    {slot : Slot} (h : slot ∈ child.slots) : slot ∈ childSlots children := by
  rw [childSlots_eq_flatMap]
  exact List.mem_flatMap.mpr ⟨child, member, h⟩

/-! ## Reading the text of a condition -/

theorem separated_append (first second : String) {c : Char}
    (hfirst : first.toList.head? = some c) (hc : Template.isSeparator c = true) :
    Separated (first ++ second).toList := by
  intro other hother
  rw [String.toList_append, List.head?_append, hfirst] at hother
  cases hother
  exact hc

/-- Inert text in front of a text. -/
theorem spells_inert_append {first second : String} {pieces : List (Piece String)}
    (h : IsInertText first) (h' : Spells second.toList pieces) :
    Spells (first ++ second).toList (verbatim first ++ pieces) := by
  rw [String.toList_append]
  exact (Rests.verbatim h).append_spells h'

/-- Inert text that starts with a separator, and more text, behind a placeholder. -/
theorem spells_placeholder_append {slot : Slot} {second : String} {pieces : List (Piece String)}
    (hname : Text.isIdentifier slot.name = true) (hsep : Separated second.toList)
    (h : Spells second.toList pieces) :
    Spells (slot.placeholder ++ second).toList ([.slot slot.name] ++ pieces) := by
  rw [String.toList_append]
  exact (Spells.placeholder hname).append hsep h

theorem spells_inert {text : String} (h : IsInertText text) :
    Spells text.toList (verbatim text) :=
  (Rests.verbatim h).spells

theorem spells_likeText {column : String} (escaped : Bool) {pattern : Slot}
    (hcolumn : IsInertText column) (hname : Text.isIdentifier pattern.name = true) :
    Spells (likeText column escaped pattern).toList
      (likeTemplate Slot.name column escaped pattern) := by
  have hlead : IsInertText (column ++ " LIKE ") := hcolumn.append (by decide)
  rw [likeText, String.append_assoc, likeTemplate]
  refine spells_inert_append hlead (spells_placeholder_append hname ?_ (Rests.spells ?_))
  · cases escaped with
    | false => intro c hc; cases hc
    | true => intro c hc; cases hc; rfl
  · cases escaped <;> rfl

theorem spells_likeTexts {columns : List String} {escaped : Bool} {pattern : Slot}
    (hcolumns : ∀ column ∈ columns, IsInertText column)
    (hname : Text.isIdentifier pattern.name = true) :
    Spells (" OR ".intercalate (columns.map fun column => likeText column escaped pattern)).toList
      (likeTemplates Slot.name escaped pattern columns) := by
  induction columns with
  | nil => exact Rests.spells rfl
  | cons column rest ih =>
    have hcolumn := spells_likeText escaped (hcolumns column List.mem_cons_self) hname
    cases rest with
    | nil => simpa [likeTemplates] using hcolumn
    | cons second rest =>
      have hothers := ih fun other member => hcolumns other (List.mem_cons_of_mem _ member)
      rw [List.map_cons, List.map_cons, String.intercalate_cons_cons, String.append_assoc,
        String.toList_append, likeTemplates]
      · exact hcolumn.append (separated_append _ _ rfl rfl)
          (spells_inert_append (by decide) hothers)
      · simp

theorem spells_childrenText {children : List Condition}
    (ih : ∀ child ∈ children, Spells child.text.toList (child.template Slot.name))
    (connective : Connective) :
    Spells (childrenText connective children).toList
      (childTemplates Slot.name connective children) := by
  induction children with
  | nil => exact Rests.spells rfl
  | cons child rest ihrest =>
    have hopen : IsInertText (connective.joiner ++ "(") := by cases connective <;> decide
    have hothers := ihrest fun other member => ih other (List.mem_cons_of_mem _ member)
    rw [childrenText, childTemplates, String.append_assoc, String.append_assoc]
    refine spells_inert_append hopen ?_
    rw [String.toList_append]
    exact (ih child List.mem_cons_self).append (separated_append _ _ rfl rfl)
      (spells_inert_append (by decide) hothers)

theorem isInertText_sign (relation : Relation) : IsInertText relation.sign := by
  cases relation with
  | equal => decide
  | order relation => cases relation <;> decide

/-- Reading the text of a condition gives back its pieces. -/
theorem spells_text {condition : Condition}
    (hcolumns : ∀ column ∈ condition.columns, IsInertText column)
    (hnames : ∀ slot ∈ condition.slots, Text.isIdentifier slot.name = true) :
    Spells condition.text.toList (condition.template Slot.name) := by
  induction condition using Condition.induct with
  | compare column relation operand =>
    have hcolumn : IsInertText column := hcolumns column (by simp [columns])
    have hlead : IsInertText (column ++ " " ++ relation.sign ++ " ") :=
      ((hcolumn.append (by decide)).append (isInertText_sign relation)).append (by decide)
    exact spells_inert_append hlead (.placeholder (hnames operand (by simp [slots])))
  | among column list =>
    have hcolumn : IsInertText column := hcolumns column (by simp [columns])
    have hlead : IsInertText (column ++ " IN (") := hcolumn.append (by decide)
    have hclosing : Separated ")".toList := by intro c hc; cases hc; rfl
    rw [text, template, String.append_assoc]
    exact spells_inert_append hlead (spells_placeholder_append (hnames list (by simp [slots]))
      hclosing (spells_inert (by decide)))
  | range column low high =>
    have hcolumn : IsInertText column := hcolumns column (by simp [columns])
    have hlead : IsInertText (column ++ " BETWEEN ") := hcolumn.append (by decide)
    have hand : Separated (" AND " ++ high.placeholder).toList := separated_append _ _ rfl rfl
    have hhigh : Spells (" AND " ++ high.placeholder).toList
        (verbatim " AND " ++ [.slot high.name]) :=
      spells_inert_append (by decide) (.placeholder (hnames high (by simp [slots])))
    rw [text, template, String.append_assoc, String.append_assoc]
    exact spells_inert_append hlead (spells_placeholder_append (hnames low (by simp [slots]))
      hand hhigh)
  | like columns escaped pattern =>
    rw [text, template]
    exact spells_likeTexts hcolumns (hnames pattern (by simp [slots]))
  | group connective children ih =>
    have hseed : IsInertText connective.seed := by cases connective <;> decide
    rw [columns] at hcolumns
    rw [slots] at hnames
    exact spells_inert_append hseed (spells_childrenText (fun child member => ih child member
      (fun column h => hcolumns column (mem_childColumns member h))
      (fun slot h => hnames slot (mem_childSlots member h))) connective)

/-! ## Filling the pieces of a condition -/

theorem fills_likeTemplates {parameters : Parameters} {escaped : Bool} {pattern : Slot}
    (h : parameters.get? pattern.name = some pattern.value) (columns : List String) :
    Fills parameters (likeTemplates Slot.name escaped pattern columns)
      (likeTemplates Slot.boundValues escaped pattern columns) := by
  have hone : ∀ column, Fills parameters (likeTemplate Slot.name column escaped pattern)
      (likeTemplate Slot.boundValues column escaped pattern) := fun column =>
    .append (.verbatim _) (.append (.slot h) (.verbatim _))
  induction columns with
  | nil => rfl
  | cons column rest ih =>
    cases rest with
    | nil => exact hone column
    | cons second rest => exact .append (hone column) (.append (.verbatim _) ih)

theorem fills_childTemplates {parameters : Parameters} {children : List Condition}
    (ih : ∀ child ∈ children, Fills parameters (child.template Slot.name)
      (child.template Slot.boundValues)) (connective : Connective) :
    Fills parameters (childTemplates Slot.name connective children)
      (childTemplates Slot.boundValues connective children) := by
  induction children with
  | nil => rfl
  | cons child rest ihrest =>
    have hothers := ihrest fun other member => ih other (List.mem_cons_of_mem _ member)
    exact .append (.verbatim _) (.append (ih child List.mem_cons_self)
      (.append (.verbatim _) hothers))

/-- Filling the pieces of a condition puts the values of its slots in place of their
names. -/
theorem fills_template {parameters : Parameters} {condition : Condition}
    (h : ∀ slot ∈ condition.slots, parameters.get? slot.name = some slot.value) :
    Fills parameters (condition.template Slot.name)
      (condition.template Slot.boundValues) := by
  induction condition using Condition.induct with
  | compare column relation operand =>
    exact .append (.verbatim _) (.slot (h operand (by simp [slots])))
  | among column list =>
    exact .append (.verbatim _) (.append (.slot (h list (by simp [slots]))) (.verbatim _))
  | range column low high =>
    exact .append (.verbatim _) (.append (.slot (h low (by simp [slots])))
      (.append (.verbatim _) (.slot (h high (by simp [slots])))))
  | like columns escaped pattern =>
    exact fills_likeTemplates (h pattern (by simp [slots])) columns
  | group connective children ih =>
    rw [slots] at h
    refine .append (.verbatim _) (fills_childTemplates (fun child member => ?_) _)
    exact ih child member fun slot hslot => h slot (mem_childSlots member hslot)

end Condition

/-! ## Columns and names of what a filter compiles to -/

theorem Predicate.columns_of_compiled {P : String → Prop} {schema : Schema} {config : Config}
    {stem : String} {predicate : Predicate} {condition : Condition}
    (columns : schema.EveryColumn P)
    (h : Compiled schema config stem predicate (some condition)) :
    ∀ column ∈ condition.columns, P column := by
  generalize hresult : some condition = result at h
  cases h with
  | unset null => cases hresult
  | keyword set field some =>
    cases hresult
    exact columns.searched
  | among field mapped operator value =>
    cases hresult
    simpa [Condition.columns] using columns.mapped _ _ mapped
  | equal set field mapped operator value =>
    cases hresult
    simpa [Condition.columns] using columns.mapped _ _ mapped
  | contains set field mapped operator value =>
    cases hresult
    simpa [Condition.columns] using columns.mapped _ _ mapped
  | between field mapped operator value short single =>
    have hcolumn := columns.mapped _ _ mapped
    obtain ⟨_, _, rfl⟩ | ⟨_, _, rfl⟩ := exists_of_rangeCondition? hresult.symm
    · simpa [Condition.columns] using hcolumn
    · simpa [Condition.columns] using hcolumn
  | order set field mapped operator value =>
    cases hresult
    simpa [Condition.columns] using columns.mapped _ _ mapped

namespace Filter

theorem columns_childConditions {P : String → Prop} {schema : Schema} {config : Config}
    {children : List Filter}
    (ih : ∀ child ∈ children, ∀ {stem : String} {condition : Condition},
      child.condition? schema config stem = .ok (some condition) →
        ∀ column ∈ condition.columns, P column)
    {stem : String} {index : Nat} {conditions : List Condition}
    (h : childConditions schema config stem index children = .ok conditions) :
    ∀ column ∈ Condition.childColumns conditions, P column := by
  refine childConditions_induct (P := fun _ _ conditions =>
    ∀ column ∈ Condition.childColumns conditions, P column) (by simp [Condition.childColumns]) ?_ h
  intro index child rest first others member hfirst hothers
  cases first with
  | none => exact hothers
  | some condition =>
    intro column hcolumn
    rw [Option.toList_some, List.singleton_append, Condition.childColumns,
      List.mem_append] at hcolumn
    rcases hcolumn with hcolumn | hcolumn
    · exact ih child member hfirst column hcolumn
    · exact hothers column hcolumn

/-- What a filter compiles to mentions columns of the schema only. -/
theorem columns_condition? {P : String → Prop} {schema : Schema} {config : Config}
    (columns : schema.EveryColumn P) {filter : Filter} {stem : String} {condition : Condition}
    (h : filter.condition? schema config stem = .ok (some condition)) :
    ∀ column ∈ condition.columns, P column := by
  induction filter using Filter.induct generalizing stem condition with
  | test predicate =>
    exact Predicate.columns_of_compiled columns (Predicate.compiled_of_condition? h)
  | single logic only ih =>
    rw [condition?] at h
    exact ih h
  | group logic children many ih =>
    obtain ⟨connective, conditions, _, hconditions, hresult⟩ :=
      (condition?_group_eq_ok_iff many).mp h
    split_ifs at hresult
    cases hresult
    exact columns_childConditions @ih hconditions

end Filter

theorem Config.check_eq_ok_iff {config : Config} :
    config.check = .ok () ↔ Text.isIdentifier config.stem = true := by
  rw [check]
  split_ifs with h <;> simp [h]

theorem isNameChar_of_mem_addressSuffix {path : List ℕ} {number : ℕ} {c : Char}
    (h : c ∈ addressSuffix path number) : Text.isNameChar c = true := by
  have hdigit : ∀ n, c ∈ Nat.toDigits 10 n → Text.isNameChar c = true := by
    intro n hc
    have := Nat.isDigit_of_mem_toDigits (by decide) (by decide) hc
    simp [Text.isNameChar, Char.isAlphanum, this]
  induction path with
  | nil =>
    simp only [addressSuffix, List.mem_cons] at h
    rcases h with rfl | rfl | h
    · rfl
    · rfl
    · exact hdigit number h
  | cons index path ih =>
    simp only [addressSuffix, List.mem_cons, List.mem_append] at h
    rcases h with rfl | h | h
    · rfl
    · exact hdigit index h
    · exact ih h

theorem isIdentifier_addressName {stem : String} (h : Text.isIdentifier stem = true)
    (path : List ℕ) (number : ℕ) : Text.isIdentifier (addressName stem path number) = true := by
  obtain ⟨first, rest, hstem, hfirst, hrest⟩ := Text.isIdentifier_iff.mp h
  rw [Text.isIdentifier_iff, toList_addressName, hstem, List.cons_append]
  refine ⟨first, _, rfl, hfirst, fun c hc => ?_⟩
  rcases List.mem_append.mp hc with hc | hc
  · exact hrest c hc
  · exact isNameChar_of_mem_addressSuffix hc

/-- Below an identifier all names are identifiers. -/
theorem Filter.isIdentifier_slots {escaped : Bool} {stem : String}
    (h : Text.isIdentifier stem = true) (filter : Filter) :
    ∀ slot ∈ filter.slots escaped stem, Text.isIdentifier slot.name = true := by
  intro slot member
  obtain ⟨path, _, number, _, _, hname⟩ := mem_slots_iff.mp member
  rw [hname]
  exact isIdentifier_addressName h path number

theorem Filter.isIdentifier_slots_condition {schema : Schema} {config : Config} {stem : String}
    {filter : Filter} {condition : Condition} (hstem : Text.isIdentifier stem = true)
    (h : filter.condition? schema config stem = .ok (some condition)) :
    ∀ slot ∈ condition.slots, Text.isIdentifier slot.name = true := by
  rw [slots_condition h]
  exact isIdentifier_slots hstem filter

end FilterSql
