import FilterSql.Query.Page
import FilterSql.Proofs.Condition.Tokens

/-!
# What the text of a condition means

What a filter asks of a row, and that the text it compiles to says the same when SQL
reads it. Children without a constraint drop out, so whether a filter asks anything of a
row is told apart first.

Results:
* `Filter.isSome_condition?`: a filter has a condition exactly if it asks anything.
* `Filter.denotes_condition`: the tokens of a compiled filter, read with the precedence
  of `AND` and `OR`, mean what the filter asks.
* `compile_expresses_filter`: so does the text, and the clause that it is put into.
-/

namespace FilterSql

open Sql

/-! ## Specification -/

/-- A text is a condition that is true of a row. -/
def Sql.Spelling.IsTrue (spelling : Spelling) {ν : Type} (meaning : Interpretation ν)
    (row : String → ν) (parameters : Parameters) (text : String) : Prop :=
  ∃ expr, Reads .disjunction (spelling.lex text.toList) expr ∧ expr.Holds meaning row parameters

/-- A text is a condition that can be read in one way only, and it is true of a row exactly
if a proposition holds. -/
structure Sql.Spelling.Expresses (spelling : Spelling) {ν : Type} (meaning : Interpretation ν)
    (row : String → ν) (parameters : Parameters) (text : String) (P : Prop) : Prop where
  unambiguous : ∃! expr, Reads .disjunction (spelling.lex text.toList) expr
  isTrue_iff : spelling.IsTrue meaning row parameters text ↔ P

/-- Does a predicate ask anything of a row? Without a value it does not, nor does a range
without a bound. -/
def Predicate.isConstrained (predicate : Predicate) : Bool :=
  !predicate.value.isNull &&
    (predicate.field = keywordField || predicate.operator ≠ some .between ||
      match predicate.value with
      | .array items => 2 < items.length || items.any fun item => !item.isNull
      | _ => true)

namespace Filter

mutual

/-- Does a filter ask anything of a row? A group of several children does if one of them
does, and a group without children does. -/
def isConstrained : Filter → Bool
  | .test predicate => predicate.isConstrained
  | .group _ [only] => only.isConstrained
  | .group _ [] => true
  | .group _ children => anyConstrained children

/-- Does one of some children ask anything of a row? -/
def anyConstrained : List Filter → Bool
  | [] => false
  | child :: rest => child.isConstrained || anyConstrained rest

end

end Filter

variable {ν : Type} (schema : Schema) (escaped : Bool) (meaning : Interpretation ν)
  (row : String → ν)

/-- What a predicate asks of a row. -/
def Predicate.Holds (predicate : Predicate) : Prop :=
  let found column := meaning.like (row column)
    (.string (predicate.value.searchPattern escaped)) (if escaped then some "\\" else none)
  if predicate.field = keywordField then ∃ column ∈ schema.keywordColumns, found column
  else ∃ column, schema.column? predicate.field = some column ∧
    match predicate.operator, predicate.value with
    | some .equals, .array items | some .contains, .array items =>
      ∃ item ∈ items, meaning.equal (row column) item
    | some .equals, value => meaning.equal (row column) value
    | some .contains, _ => found column
    | some .between, .array items =>
      (∀ low ∈ items[0]?, low.isNull = false → meaning.order .greaterOrEqual (row column) low) ∧
        ∀ high ∈ items[1]?, high.isNull = false → meaning.order .lessOrEqual (row column) high
    | some (.order relation), value => meaning.order relation (row column) value
    | _, _ => False

/-- What a filter asks of a row: a group of one child asks what the child asks, and other
groups look at those of their children only that ask anything. -/
def Filter.Holds : Filter → Prop
  | .test predicate => predicate.Holds schema escaped meaning row
  | .group _ [only] => Holds only
  | .group (.known .and) children =>
    ∀ child, (member : child ∈ children) → child.isConstrained = true → Holds child
  | .group (.known .or) children =>
    ∃ child, ∃ _ : child ∈ children, child.isConstrained = true ∧ Holds child
  | .group (.unknown _) _ => False

/-! ## Constraints -/

namespace Predicate

variable {schema : Schema} {config : Config} {stem : String} {predicate : Predicate}

theorem isSome_rangeCondition? (column stem : String) {items : List Json}
    (short : items.length ≤ 2) :
    (rangeCondition? column stem (bound? items 0, bound? items 1)).isSome =
      items.any fun item => !item.isNull := by
  have hset : ∀ items : List Json,
      (items.any fun item => !item.isNull) = !(Json.array items).setItems.isEmpty := by
    intro items
    rw [Json.setItems]
    induction items with
    | nil => rfl
    | cons item rest ih => cases h : item.isNull <;> simp [h, ih]
  rw [hset, setItems_eq_bounds short]
  cases bound? items 0 <;> cases bound? items 1 <;> rfl

theorem isSome_of_compiled {result : Option Condition}
    (h : Compiled schema config stem predicate result) :
    result.isSome = predicate.isConstrained := by
  cases h with
  | unset null => simp [isConstrained, null]
  | keyword set field columns => simp [isConstrained, set, field]
  | among field mapped operator value =>
    rcases operator with operator | operator <;>
      simp [isConstrained, operator, value, Json.isNull]
  | equal set field mapped operator value => simp [isConstrained, set, operator]
  | contains set field mapped operator value => simp [isConstrained, set, operator]
  | between field mapped operator value short single =>
    rw [isSome_rangeCondition? _ _ short, isConstrained, value, operator]
    simp [field, Json.isNull, Nat.not_lt.mpr short]
  | order set field mapped operator value => simp [isConstrained, set, operator]

end Predicate

namespace Filter

variable {schema : Schema} {config : Config}

theorem isConstrained_group {logic : Logic} {children : List Filter}
    (many : ∀ only, children ≠ [only]) :
    (Filter.group logic children).isConstrained =
      (children.isEmpty || anyConstrained children) := by
  match children, many with
  | [], _ => rfl
  | [only], many => exact absurd rfl (many only)
  | first :: second :: rest, _ => rfl

theorem childConditions_eq_nil_iff {children : List Filter}
    (ih : ∀ child ∈ children, ∀ {stem : String} {result : Option Condition},
      child.condition? schema config stem = .ok result → result.isSome = child.isConstrained)
    {stem : String} {index : ℕ} {conditions : List Condition}
    (h : childConditions schema config stem index children = .ok conditions) :
    conditions = [] ↔ anyConstrained children = false := by
  refine childConditions_induct (P := fun _ children conditions =>
    conditions = [] ↔ anyConstrained children = false) (by simp [anyConstrained]) ?_ h
  intro index child rest first others member hfirst hothers
  rw [anyConstrained, ← ih child member hfirst]
  cases first with
  | none => exact hothers
  | some condition => simp

/-- A filter has a condition exactly if it asks anything of a row. -/
theorem isSome_condition? {filter : Filter} {stem : String} {result : Option Condition}
    (h : filter.condition? schema config stem = .ok result) :
    result.isSome = filter.isConstrained := by
  induction filter using Filter.induct generalizing stem result with
  | test predicate =>
    exact Predicate.isSome_of_compiled (Predicate.compiled_of_condition? h)
  | single logic only ih =>
    rw [condition?] at h
    exact ih h
  | group logic children many ih =>
    obtain ⟨connective, conditions, _, hconditions, rfl⟩ :=
      (condition?_group_eq_ok_iff many).mp h
    have hempty := childConditions_eq_nil_iff @ih hconditions
    rw [isConstrained_group many]
    cases hany : anyConstrained children with
    | true =>
      have hsome : conditions ≠ [] := fun hnil => by simp [hempty.mp hnil] at hany
      rw [if_neg fun drop => hsome drop.1, Bool.or_true]
      rfl
    | false =>
      have hnil := hempty.mpr hany
      cases children <;> simp [hnil]

end Filter

/-! ## Meaning -/

/-- What a connective makes of two conditions. -/
def Connective.Join : Connective → Prop → Prop → Prop
  | .and, P, Q => P ∧ Q
  | .or, P, Q => P ∨ Q

/-- What a connective makes of those children that ask anything. -/
def Connective.Over (connective : Connective) (P : Filter → Prop) (children : List Filter) : Prop :=
  match connective with
  | .and => ∀ child ∈ children, child.isConstrained = true → P child
  | .or => ∃ child ∈ children, child.isConstrained = true ∧ P child

/-- The level at which a connective stands. -/
def Connective.level : Connective → Level
  | .and => .conjunction
  | .or => .disjunction

namespace Connective

theorem join_assoc (connective : Connective) (P Q R : Prop) :
    connective.Join (connective.Join P Q) R ↔ connective.Join P (connective.Join Q R) := by
  cases connective with
  | and => exact and_assoc
  | or => exact or_assoc

theorem join_congr_right (connective : Connective) (P : Prop) {Q R : Prop} (h : Q ↔ R) :
    connective.Join P Q ↔ connective.Join P R := by
  rw [h]

theorem over_cons_of_constrained (connective : Connective) (P : Filter → Prop) {child : Filter}
    (h : child.isConstrained = true) (rest : List Filter) :
    connective.Over P (child :: rest) ↔ connective.Join (P child) (connective.Over P rest) := by
  cases connective <;> simp [Over, Join, h]

theorem over_cons_of_not_constrained (connective : Connective) (P : Filter → Prop)
    {child : Filter} (h : child.isConstrained = false) (rest : List Filter) :
    connective.Over P (child :: rest) ↔ connective.Over P rest := by
  cases connective <;> simp [Over, h]

end Connective

section Meaning

variable {ν : Type} {meaning : Interpretation ν} {row : String → ν} {parameters : Parameters}
variable {schema : Schema} {config : Config}

theorem denotes_join {connective : Connective} {tokens others : List Token} {P Q : Prop}
    (h : Denotes meaning row parameters connective.level tokens P)
    (h' : Denotes meaning row parameters .factor others Q) :
    Denotes meaning row parameters connective.level
      (tokens ++ .keyword connective.keyword :: others) (connective.Join P Q) := by
  cases connective with
  | and => exact h.and h'
  | or => exact h.or h'.conjunction

/-- What the empty group asks. -/
def Connective.neutral : Connective → Prop
  | .and => True
  | .or => False

theorem Connective.neutral_join (connective : Connective) (P : Prop) :
    connective.Join connective.neutral P ↔ P := by
  cases connective <;> simp [Join, neutral]

theorem Connective.join_over_nil (connective : Connective) (P : Prop) (Q : Filter → Prop) :
    connective.Join P (connective.Over Q []) ↔ P := by
  cases connective <;> simp [Join, Over]

theorem denotes_seed (connective : Connective) :
    Denotes meaning row parameters connective.level connective.seedTokens
      connective.neutral := by
  cases connective with
  | and => exact ⟨_, .factor .always, by simp [Expr.Holds, Connective.neutral]⟩
  | or => exact ⟨_, .conjunction (.factor .never), by simp [Expr.Holds, Connective.neutral]⟩

theorem denotes_disjunction {connective : Connective} {tokens : List Token} {P : Prop}
    (h : Denotes meaning row parameters connective.level tokens P) :
    Denotes meaning row parameters .disjunction tokens P := by
  cases connective with
  | and => exact h.disjunction
  | or => exact h

theorem denotes_compare (column : String) (relation : Relation) {operand : Slot}
    (bound : parameters.get? operand.name = some operand.value) :
    Denotes meaning row parameters .disjunction (Condition.compare column relation operand).tokens
      (meaning.relation relation (row column) operand.value) :=
  ⟨_, .conjunction (.factor (.compare column relation operand.name)), bound_iff bound⟩

theorem denotes_among (column : String) {list : Slot}
    (bound : parameters.get? list.name = some list.value) :
    Denotes meaning row parameters .disjunction (Condition.among column list).tokens
      (meaning.among (row column) list.value) :=
  ⟨_, .conjunction (.factor (.among column list.name)), bound_iff bound⟩

theorem denotes_range (column : String) {low high : Slot}
    (hlow : parameters.get? low.name = some low.value)
    (hhigh : parameters.get? high.name = some high.value) :
    Denotes meaning row parameters .disjunction (Condition.range column low high).tokens
      (meaning.order .greaterOrEqual (row column) low.value ∧
        meaning.order .lessOrEqual (row column) high.value) :=
  ⟨_, .conjunction (.factor (.between column low.name high.name)),
    and_congr (bound_iff hlow) (bound_iff hhigh)⟩

theorem denotes_likeTokens (column : String) (escaped : Bool) {pattern : Slot}
    (bound : parameters.get? pattern.name = some pattern.value) :
    Denotes meaning row parameters .factor (Condition.likeTokens column escaped pattern)
      (meaning.like (row column) pattern.value (if escaped then some "\\" else none)) := by
  cases escaped with
  | false => exact ⟨_, .like column pattern.name, bound_iff bound⟩
  | true => exact ⟨_, .likeEscape column pattern.name "\\", bound_iff bound⟩

theorem denotes_likesTokens {columns : List String} (hcolumns : columns ≠ []) (escaped : Bool)
    {pattern : Slot} (bound : parameters.get? pattern.name = some pattern.value) :
    Denotes meaning row parameters .disjunction (Condition.likesTokens escaped pattern columns)
      (∃ column ∈ columns, meaning.like (row column) pattern.value
        (if escaped then some "\\" else none)) := by
  have hchain : ∀ (others : List String) {tokens : List Token} {P : Prop},
      Denotes meaning row parameters .disjunction tokens P →
      Denotes meaning row parameters .disjunction
        (tokens ++ others.flatMap fun other =>
          .keyword .or :: Condition.likeTokens other escaped pattern)
        (P ∨ ∃ column ∈ others, meaning.like (row column) pattern.value
          (if escaped then some "\\" else none)) := by
    intro others
    induction others with
    | nil => intro tokens P h; simpa using h
    | cons other others ih =>
      intro tokens P h
      have hnext := ih (h.or (denotes_likeTokens other escaped bound).conjunction)
      rw [List.append_assoc, List.cons_append] at hnext
      exact hnext.congr (by simp [or_assoc])
  cases columns with
  | nil => exact absurd rfl hcolumns
  | cons column others =>
    have hfirst : Denotes meaning row parameters .factor _ _ :=
      denotes_likeTokens column escaped bound
    exact (hchain others hfirst.conjunction.disjunction).congr (by simp)

theorem Filter.denotes_childTokens {children : List Filter} {stem : String}
    (ih : ∀ child ∈ children, ∀ {stem : String} {condition : Condition},
      child.condition? schema config stem = .ok (some condition) →
      (∀ slot ∈ condition.slots, parameters.get? slot.name = some slot.value) →
      Denotes meaning row parameters .disjunction condition.tokens
        (child.Holds schema config.escapeWildcards meaning row))
    (connective : Connective) {index : ℕ} {conditions : List Condition}
    (h : childConditions schema config stem index children = .ok conditions) :
    ∀ {tokens : List Token} {P : Prop}, Denotes meaning row parameters connective.level tokens P →
      (∀ slot ∈ Condition.childSlots conditions, parameters.get? slot.name = some slot.value) →
      Denotes meaning row parameters connective.level
        (tokens ++ Condition.childTokens connective conditions)
        (connective.Join P (connective.Over
          (Filter.Holds schema config.escapeWildcards meaning row) children)) := by
  refine childConditions_induct (P := fun _ children conditions =>
    ∀ {tokens : List Token} {P : Prop}, Denotes meaning row parameters connective.level tokens P →
      (∀ slot ∈ Condition.childSlots conditions, parameters.get? slot.name = some slot.value) →
      Denotes meaning row parameters connective.level
        (tokens ++ Condition.childTokens connective conditions)
        (connective.Join P (connective.Over
          (Filter.Holds schema config.escapeWildcards meaning row) children))) ?_ ?_ h
  · intro index tokens P before bound
    rw [Condition.childTokens, List.append_nil]
    exact before.congr (connective.join_over_nil P _).symm
  · intro index child rest first others member hfirst hrest tokens P before bound
    have hconstrained := isSome_condition? hfirst
    cases first with
    | none =>
      have hover := connective.over_cons_of_not_constrained
        (Filter.Holds schema config.escapeWildcards meaning row) hconstrained.symm rest
      exact (hrest before bound).congr (connective.join_congr_right P hover.symm)
    | some condition =>
      have hover := connective.over_cons_of_constrained
        (Filter.Holds schema config.escapeWildcards meaning row) hconstrained.symm rest
      have hchild := ih child member hfirst fun slot member =>
        bound slot (List.mem_append_left _ member)
      have hnext := hrest (denotes_join before hchild.parentheses) fun slot member =>
        bound slot (List.mem_append_right _ member)
      have htokens : tokens ++ .keyword connective.keyword ::
            .opening :: (condition.tokens ++ [.closing]) ++
              Condition.childTokens connective others =
          tokens ++ Condition.childTokens connective (condition :: others) := by
        simp [Condition.childTokens]
      rw [htokens] at hnext
      exact hnext.congr ((connective.join_assoc _ _ _).trans
        (connective.join_congr_right P hover.symm))

namespace Predicate

variable {predicate : Predicate} {column : String}

theorem holds_equals (field : predicate.field ≠ keywordField)
    (mapped : schema.column? predicate.field = some column)
    (operator : predicate.operator = some .equals) (value : predicate.value.isArray = false) :
    predicate.Holds schema config.escapeWildcards meaning row ↔
      meaning.equal (row column) predicate.value := by
  obtain ⟨name, _, operand⟩ := predicate
  cases operator
  cases operand with
  | array items => cases value
  | _ => simp_all [Holds]

theorem holds_contains (field : predicate.field ≠ keywordField)
    (mapped : schema.column? predicate.field = some column)
    (operator : predicate.operator = some .contains) (value : predicate.value.isArray = false) :
    predicate.Holds schema config.escapeWildcards meaning row ↔
      meaning.like (row column)
        (.string (predicate.value.searchPattern config.escapeWildcards))
        (if config.escapeWildcards then some "\\" else none) := by
  obtain ⟨name, _, operand⟩ := predicate
  cases operator
  cases operand with
  | array items => cases value
  | _ => simp_all [Holds]

theorem forall_bound? {items : List Json} {index : ℕ} {P : Json → Prop} :
    (∀ bound ∈ bound? items index, P bound) ↔
      ∀ bound ∈ items[index]?, bound.isNull = false → P bound := by
  cases h : items[index]? with
  | none => simp [bound?, h]
  | some item => cases hnull : item.isNull <;> simp [bound?, h, hnull, Option.filter]

theorem holds_between {items : List Json} (field : predicate.field ≠ keywordField)
    (mapped : schema.column? predicate.field = some column)
    (operator : predicate.operator = some .between) (value : predicate.value = .array items) :
    predicate.Holds schema config.escapeWildcards meaning row ↔
      (∀ low ∈ bound? items 0, meaning.order .greaterOrEqual (row column) low) ∧
        ∀ high ∈ bound? items 1, meaning.order .lessOrEqual (row column) high := by
  rw [forall_bound?, forall_bound?]
  simp [Holds, field, mapped, operator, value]

/-- The tokens of a range mean that the value is on the right side of each bound that is
given. -/
theorem denotes_rangeCondition? (stem : String) {low high : Option Json} {condition : Condition}
    (h : rangeCondition? column stem (low, high) = some condition)
    (bound : ∀ slot ∈ condition.slots, parameters.get? slot.name = some slot.value) :
    Denotes meaning row parameters .disjunction condition.tokens
      ((∀ bound ∈ low, meaning.order .greaterOrEqual (row column) bound) ∧
        ∀ bound ∈ high, meaning.order .lessOrEqual (row column) bound) := by
  rcases low with _ | low <;> rcases high with _ | high <;> cases h
  · exact (denotes_compare column _ (bound _ List.mem_cons_self)).congr
      (by simp [Interpretation.relation])
  · exact (denotes_compare column _ (bound _ List.mem_cons_self)).congr
      (by simp [Interpretation.relation])
  · exact (denotes_range column (bound _ List.mem_cons_self)
      (bound _ (List.mem_cons_of_mem _ List.mem_cons_self))).congr (by simp)

theorem denotes_of_compiled {stem : String} {condition : Condition}
    (h : Compiled schema config stem predicate (some condition))
    (bound : ∀ slot ∈ condition.slots, parameters.get? slot.name = some slot.value) :
    Denotes meaning row parameters .disjunction condition.tokens
      (predicate.Holds schema config.escapeWildcards meaning row) := by
  generalize hresult : some condition = result at h
  cases h with
  | unset null => cases hresult
  | keyword set field columns =>
    cases hresult
    exact (denotes_likesTokens columns _ (bound _ List.mem_cons_self)).congr
      (by rw [Holds, if_pos field, Pattern.containing_eq])
  | among field mapped operator value =>
    cases hresult
    refine (denotes_among _ (bound _ List.mem_cons_self)).congr ?_
    rcases operator with operator | operator <;>
      simp [Holds, Interpretation.among, field, mapped, operator, value]
  | equal set field mapped operator value =>
    cases hresult
    exact (denotes_compare _ _ (bound _ List.mem_cons_self)).congr
      (holds_equals field mapped operator value).symm
  | contains set field mapped operator value =>
    cases hresult
    refine (denotes_likesTokens (List.cons_ne_nil _ _) _ (bound _ List.mem_cons_self)).congr ?_
    rw [holds_contains field mapped operator value, Pattern.containing_eq]
    simp
  | between field mapped operator value short single =>
    exact (denotes_rangeCondition? stem hresult.symm bound).congr
      (holds_between field mapped operator value).symm
  | order set field mapped operator value =>
    cases hresult
    refine (denotes_compare _ _ (bound _ List.mem_cons_self)).congr ?_
    simp [Holds, Interpretation.relation, field, mapped, operator]

end Predicate

namespace Filter

theorem holds_group {logic : Logic} {connective : Connective} {children : List Filter}
    (hlogic : logic = .known connective) (many : ∀ only, children ≠ [only]) (escaped : Bool) :
    (Filter.group logic children).Holds schema escaped meaning row ↔
      connective.Over (Filter.Holds schema escaped meaning row) children := by
  subst hlogic
  cases connective with
  | and =>
    rw [Holds]
    · rfl
    · exact many
  | or =>
    rw [Holds]
    · simp only [Connective.Over, exists_prop]
    · exact many

/-- The tokens of what a filter compiles to mean what the filter asks of a row. -/
theorem denotes_condition {filter : Filter} {stem : String} {condition : Condition}
    (h : filter.condition? schema config stem = .ok (some condition))
    (bound : ∀ slot ∈ condition.slots, parameters.get? slot.name = some slot.value) :
    Denotes meaning row parameters .disjunction condition.tokens
      (filter.Holds schema config.escapeWildcards meaning row) := by
  induction filter using Filter.induct generalizing stem condition with
  | test predicate =>
    rw [Holds]
    exact Predicate.denotes_of_compiled (Predicate.compiled_of_condition? h) bound
  | single logic only ih =>
    rw [condition?] at h
    rw [Holds]
    exact ih h bound
  | group logic children many ih =>
    obtain ⟨connective, conditions, hlogic, hconditions, hresult⟩ :=
      (condition?_group_eq_ok_iff many).mp h
    split_ifs at hresult
    cases hresult
    have hgroup := denotes_childTokens @ih connective hconditions (denotes_seed connective) bound
    exact (denotes_disjunction hgroup).congr
      ((connective.neutral_join _).trans (holds_group hlogic many _).symm)

end Filter

/-! ## Compiled filters -/

theorem expresses_of_denotes {spelling : Spelling} {text : String} {tokens : List Token} {P : Prop}
    (hlex : spelling.lex text.toList = tokens)
    (h : Denotes meaning row parameters .disjunction tokens P) :
    spelling.Expresses meaning row parameters text P := by
  obtain ⟨expr, hreads, hholds⟩ := h
  rw [← hlex] at hreads
  refine ⟨⟨expr, hreads, fun other hother => hother.unique hreads⟩, ?_, ?_⟩
  · rintro ⟨other, hother, htrue⟩
    rw [hother.unique hreads] at htrue
    exact hholds.mp htrue
  · exact fun hP => ⟨expr, hreads, hholds.mpr hP⟩

theorem text_and_singleton (condition : Condition) :
    (Condition.group .and [condition]).text = "1=1 AND (" ++ condition.text ++ ")" := by
  have hopening : ("1=1 AND (" : String) = "1=1" ++ (" AND " ++ "(") := rfl
  rw [hopening, Condition.text, Condition.childrenText, Condition.childrenText, Connective.seed,
    Connective.joiner, String.append_empty, String.append_assoc, String.append_assoc,
    String.append_assoc, String.append_assoc, String.append_assoc]

theorem denotes_and_singleton {condition : Condition} {P : Prop}
    (h : Denotes meaning row parameters .disjunction condition.tokens P) :
    Denotes meaning row parameters .disjunction (Condition.group .and [condition]).tokens P := by
  have hseed : Denotes meaning row parameters .conjunction Connective.and.seedTokens True :=
    denotes_seed .and
  exact (hseed.and h.parentheses).disjunction.congr (iff_of_eq (true_and P))

/-- **The compiled text means what the filter means.** Let the columns be identifiers other
than keywords, let the configuration be valid, and let a filter compile to a text that is
not empty. Read with the grammar of SQL, in which it has one reading only, the text is
true of a row exactly if the filter holds there, whatever the comparisons mean and
whichever parameters there are besides those of the filter. The same goes for the
condition of the clause that the text is put into. -/
theorem compile_expresses_filter {restriction : Restriction} {filter : Filter}
    (spelling : Spelling) (columns : schema.EveryColumn spelling.IsColumn)
    (valid : config.check = .ok ()) (h : filter.compile schema config = .ok restriction)
    (constrained : restriction.sql ≠ "")
    (bound : ∀ name value, restriction.parameters.get? name = some value →
      parameters.get? name = some value) :
    spelling.Expresses meaning row parameters restriction.sql
        (filter.Holds schema config.escapeWildcards meaning row) ∧
      ∃ condition, restriction.clause = " WHERE " ++ condition ∧
        spelling.Expresses meaning row parameters condition
          (filter.Holds schema config.escapeWildcards meaning row) := by
  obtain ⟨result, hcondition, rfl⟩ := Filter.compileAt_eq_ok_iff.mp h
  cases result with
  | none => exact absurd rfl constrained
  | some condition =>
    have hnames :=
      Filter.isIdentifier_slots_condition (Config.check_eq_ok_iff.mp valid) hcondition
    have hcolumns := Filter.columns_condition? columns hcondition
    have hslot : ∀ slot ∈ condition.slots, parameters.get? slot.name = some slot.value :=
      fun slot member => bound _ _ (Filter.get?_slots_condition hcondition member)
    have hdenotes : Denotes meaning row parameters .disjunction condition.tokens
        (filter.Holds schema config.escapeWildcards meaning row) :=
      Filter.denotes_condition hcondition hslot
    have hlex := Condition.lex_whole_text hcolumns hnames
    have hlexClause : spelling.lex ("1=1 AND (" ++ condition.text ++ ")").toList =
        (Condition.group .and [condition]).tokens := by
      rw [← text_and_singleton]
      exact Condition.lex_whole_text
        (by simpa [Condition.columns, Condition.childColumns] using hcolumns)
        (by simpa [Condition.slots, Condition.childSlots] using hnames)
    refine ⟨expresses_of_denotes hlex hdenotes, _, ?_,
      expresses_of_denotes hlexClause (denotes_and_singleton hdenotes)⟩
    have hsome : (Restriction.of (some condition)).isEmpty = false := by
      simpa [Restriction.isEmpty] using constrained
    rw [Restriction.clause, hsome, if_neg Bool.false_ne_true, ← String.append_assoc,
      ← String.append_assoc]
    rfl

end Meaning

namespace Example

/-- Keywords are told apart without regard to case. -/
def anyCase : Spelling where
  keyword? word := [Keyword.and, .or, .among, .between, .like, .escape].find? fun keyword =>
    keyword.text.toList.map Char.toLower = word.toList.map Char.toLower
  keyword?_text keyword := by cases keyword <;> decide

theorem isColumn_orders : orders.EveryColumn anyCase.IsColumn :=
  .build (by decide)

/-- Texts are compared as they are, and a pattern matches the text that it was made from. -/
def literally : Interpretation String where
  equal value operand := operand = .string value
  order _ _ _ := False
  like value pattern _ := pattern = .string ("%" ++ value ++ "%")

end Example

theorem search_isTrue :
    ∃ restriction, Example.search.compile Example.orders {} = .ok restriction ∧
      Example.anyCase.IsTrue Example.literally (fun _ => "50%") restriction.parameters
        restriction.sql := by
  have hholds : Example.search.Holds Example.orders false Example.literally fun _ => "50%" := by
    unfold Example.search Example.searchBy Filter.any
    rw [Filter.Holds]
    · refine ⟨_, List.mem_cons_self, rfl, ?_⟩
      rw [Filter.keyword, Filter.Holds]
      exact ⟨"NAME", List.mem_cons_self, rfl⟩
    · simp
  obtain ⟨hsql, -⟩ := compile_expresses_filter Example.anyCase Example.isColumn_orders rfl
    (show Example.search.compile Example.orders {} = .ok _ from rfl) (by decide)
    (fun _ _ bound => bound)
  exact ⟨_, rfl, hsql.isTrue_iff.mpr hholds⟩

end FilterSql
