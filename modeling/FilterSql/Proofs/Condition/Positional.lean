import FilterSql.Proofs.Condition.Template

/-!
# Compiling to positional placeholders

A compiler without names: it writes the placeholders of a dialect straight into the
text and lists the values as it goes, told only how many values stand before.

Results:
* `Filter.positional_eq`: naming the values and then binding the names gives the same
  text and values as this compiler, whatever the stem of the names.
* `Filter.values_condition?`: the values are those of the predicates from left to
  right.
* `bind_compile_eq_positional`: every compiled filter can be bound, with that outcome.
-/

namespace FilterSql

open Statement (render valuesOf marks)

/-! ## Specification -/

namespace Positional

variable (dialect : Dialect) (before : ℕ)

/-- A column compared with one value. -/
def comparison (column : String) (relation : Relation) (value : Json) : Statement :=
  ⟨column ++ " " ++ relation.sign ++ " " ++ dialect.mark (before + 1), [.ofJson value]⟩

/-- A column equal to an element of a list, one placeholder for each. -/
def membership (column : String) (items : List Json) : Statement :=
  let positions := List.range' (before + 1) items.length
  ⟨column ++ " IN (" ++
      (if items = [] then "NULL" else ", ".intercalate (positions.map dialect.mark)) ++ ")",
    items.map .ofJson⟩

/-- A column between the bounds that are given. -/
def range? (column : String) : Option Json × Option Json → Option Statement
  | (some low, some high) =>
    some ⟨column ++ " BETWEEN " ++ dialect.mark (before + 1) ++ " AND " ++
      dialect.mark (before + 2), [.ofJson low, .ofJson high]⟩
  | (some low, none) => some (comparison dialect before column (.order .greaterOrEqual) low)
  | (none, some high) => some (comparison dialect before column (.order .lessOrEqual) high)
  | (none, none) => none

/-- One of some columns matching a pattern, which is sent once for each column. -/
def search (columns : List String) (escaped : Bool) (pattern : String) : Statement :=
  let alternatives := (columns.zipIdx (before + 1)).map fun (column, position) =>
    column ++ " LIKE " ++ dialect.mark position ++ if escaped then " ESCAPE '\\'" else ""
  ⟨" OR ".intercalate alternatives, columns.map fun _ => .string (some pattern)⟩

end Positional

/-- The statement of a predicate when a number of values comes before. -/
def Predicate.positional (schema : Schema) (escaped : Bool) (dialect : Dialect) (before : ℕ)
    (predicate : Predicate) : Except OperationError (Option Statement) :=
  let pattern := predicate.value.searchPattern escaped
  if predicate.value.isNull then .ok none
  else if predicate.field = keywordField then
    if schema.keywordColumns.isEmpty then .error (.noKeywordColumns schema.name)
    else .ok (some (Positional.search dialect before schema.keywordColumns escaped pattern))
  else do
    let column ← schema.resolve predicate.field
    match predicate.operator, predicate.value with
    | some .equals, .array items | some .contains, .array items =>
      .ok (some (Positional.membership dialect before column items))
    | some .equals, value => .ok (some (Positional.comparison dialect before column .equal value))
    | some .contains, _ =>
      .ok (some (Positional.search dialect before [column] escaped pattern))
    | some .between, value =>
      Positional.range? dialect before column <$> bounds predicate.field value
    | some (.order relation), value =>
      if value.isNested then
        .error (.unfitValue predicate.field
          ("'" ++ relation.name ++ "' expects a single value"))
      else .ok (some (Positional.comparison dialect before column (.order relation) value))
    | some (.unknown name), _ => .error (.unknownOperator name)
    | none, _ => .error (.unknownOperator "")

namespace Filter

mutual

/-- The statement of a filter when a number of values comes before, if the filter carries
a constraint. -/
def positional (schema : Schema) (escaped : Bool) (dialect : Dialect) (before : ℕ) :
    Filter → Except OperationError (Option Statement)
  | .test predicate => predicate.positional schema escaped dialect before
  | .group _ [only] => positional schema escaped dialect before only
  | .group logic children => do
    let connective ← logic.connective
    let others ← positionalChildren schema escaped dialect connective before children
    if others.sql = "" ∧ children ≠ [] then return none
    else return some ⟨connective.seed ++ others.sql, others.values⟩

/-- What the children of a group add to its statement when a number of values comes
before. -/
def positionalChildren (schema : Schema) (escaped : Bool) (dialect : Dialect)
    (connective : Connective) (before : ℕ) : List Filter → Except OperationError Statement
  | [] => .ok ⟨"", []⟩
  | child :: rest => do
    let first ← positional schema escaped dialect before child
    let values := (first.map Statement.values).getD []
    let others ←
      positionalChildren schema escaped dialect connective (before + values.length) rest
    match first with
    | none => return others
    | some first =>
      return ⟨connective.joiner ++ "(" ++ first.sql ++ ")" ++ others.sql,
        first.values ++ others.values⟩

end

end Filter

/-- The values that a predicate puts into a statement: the pattern of a keyword search
once for each column, and the operands otherwise, an array element by element. -/
def Predicate.boundValues (schema : Schema) (escaped : Bool) (predicate : Predicate) :
    List BoundValue :=
  if predicate.value.isNull then []
  else if predicate.field = keywordField then
    schema.keywordColumns.map fun _ => .string (some (predicate.value.searchPattern escaped))
  else (predicate.operands escaped).flatMap BoundValue.listOfJson

/-! ## Statements of conditions -/

namespace Condition

/-- The statement of a condition when a number of values comes before. -/
def statement (dialect : Dialect) (before : ℕ) (condition : Condition) : Statement :=
  .ofFilled dialect before (condition.template Slot.boundValues)

/-- What children add to the statement of their group. -/
def childrenStatement (dialect : Dialect) (connective : Connective) (before : ℕ)
    (children : List Condition) : Statement :=
  .ofFilled dialect before (childTemplates Slot.boundValues connective children)

variable (dialect : Dialect) (before : ℕ)

theorem statement_compare (column name : String) (relation : Relation) {value : Json}
    (h : value.isArray = false) :
    (compare column relation ⟨name, value⟩).statement dialect before =
      Positional.comparison dialect before column relation value := by
  have hvalues : Slot.boundValues ⟨name, value⟩ = [.ofJson value] :=
    BoundValue.listOfJson_of_not_isArray h
  rw [statement, template, hvalues, Statement.ofFilled_append, Statement.ofFilled_verbatim,
    Statement.ofFilled_slot, Statement.valuesOf_verbatim, Statement.marks_singleton]
  rfl

theorem statement_among (column name : String) (items : List Json) :
    (among column ⟨name, .array items⟩).statement dialect before =
      Positional.membership dialect before column items := by
  have hvalues : Slot.boundValues ⟨name, .array items⟩ = items.map .ofJson := rfl
  rw [statement, template, hvalues, Statement.ofFilled_append, Statement.ofFilled_append]
  simp only [Statement.ofFilled_verbatim, Statement.ofFilled_slot, Statement.marks_eq,
    Statement.valuesOf_append, Statement.valuesOf_verbatim, Statement.valuesOf_slot,
    List.map_eq_nil_iff, List.length_map, List.append_nil, Positional.membership,
    String.append_assoc]
  rfl

theorem statement_range (column name name' : String) {low high : Json}
    (hlow : low.isArray = false) (hhigh : high.isArray = false) :
    some ((range column ⟨name, low⟩ ⟨name', high⟩).statement dialect before) =
      Positional.range? dialect before column (some low, some high) := by
  have hlow : Slot.boundValues ⟨name, low⟩ = [.ofJson low] :=
    BoundValue.listOfJson_of_not_isArray hlow
  have hhigh : Slot.boundValues ⟨name', high⟩ = [.ofJson high] :=
    BoundValue.listOfJson_of_not_isArray hhigh
  rw [statement, template, hlow, hhigh, Statement.ofFilled_append, Statement.ofFilled_append,
    Statement.ofFilled_append]
  simp only [Statement.ofFilled_verbatim, Statement.ofFilled_slot, Statement.marks_singleton,
    Statement.valuesOf_append, Statement.valuesOf_verbatim, Statement.valuesOf_slot,
    Positional.range?, String.append_assoc]
  rfl

theorem statement_like (columns : List String) (escaped : Bool) (name pattern : String) :
    (like columns escaped ⟨name, .string pattern⟩).statement dialect before =
      Positional.search dialect before columns escaped pattern := by
  have hvalues : Slot.boundValues ⟨name, .string pattern⟩ = [.string (some pattern)] := rfl
  have hone : ∀ before column, Statement.ofFilled dialect before
      (likeTemplate Slot.boundValues column escaped ⟨name, .string pattern⟩) =
        ⟨column ++ " LIKE " ++ dialect.mark (before + 1) ++
          if escaped then " ESCAPE '\\'" else "", [.string (some pattern)]⟩ := by
    intro before column
    rw [likeTemplate, hvalues, Statement.ofFilled_append, Statement.ofFilled_append]
    simp only [Statement.ofFilled_verbatim, Statement.ofFilled_slot, Statement.marks_singleton,
      Statement.valuesOf_append, Statement.valuesOf_verbatim, Statement.valuesOf_slot,
      String.append_assoc]
    rfl
  rw [statement, template]
  induction columns generalizing before with
  | nil => rfl
  | cons column rest ih =>
    cases rest with
    | nil =>
      rw [likeTemplates, hone]
      simp [Positional.search]
    | cons second rest =>
      have hfirst : valuesOf (likeTemplate Slot.boundValues column escaped
          ⟨name, .string pattern⟩) = [.string (some pattern)] :=
        congrArg Statement.values (hone 0 column)
      have hothers : valuesOf (likeTemplates Slot.boundValues escaped ⟨name, .string pattern⟩
          (second :: rest)) = (second :: rest).map fun _ => .string (some pattern) :=
        congrArg Statement.values (ih 0)
      rw [likeTemplates, Statement.ofFilled_append, Statement.ofFilled_append, hone,
        Statement.ofFilled_verbatim, ih, Statement.valuesOf_append, hfirst, hothers,
        Statement.valuesOf_verbatim]
      · simp only [Positional.search, List.zipIdx_cons, List.map_cons,
          String.intercalate_cons_cons, List.length_singleton, List.length_nil, Nat.add_zero,
          List.nil_append, List.singleton_append, String.append_assoc]
      · simp

theorem childrenStatement_cons (connective : Connective) (child : Condition)
    (rest : List Condition) :
    childrenStatement dialect connective before (child :: rest) =
      let first := child.statement dialect before
      let others := childrenStatement dialect connective (before + first.values.length) rest
      ⟨connective.joiner ++ "(" ++ first.sql ++ ")" ++ others.sql,
        first.values ++ others.values⟩ := by
  rw [childrenStatement, childTemplates, Statement.ofFilled_append, Statement.ofFilled_append,
    Statement.ofFilled_append]
  simp only [Statement.ofFilled_verbatim, Statement.valuesOf_append, Statement.valuesOf_verbatim,
    String.append_assoc]
  rfl

theorem childrenStatement_sql_eq_empty_iff (connective : Connective) (children : List Condition) :
    (childrenStatement dialect connective before children).sql = "" ↔ children = [] := by
  cases children with
  | nil => exact ⟨fun _ => rfl, fun _ => rfl⟩
  | cons child rest =>
    rw [childrenStatement_cons]
    refine ⟨fun h => ?_, fun h => nomatch h⟩
    have := congrArg String.toList h
    simp at this

theorem statement_group (connective : Connective) (children : List Condition) :
    (group connective children).statement dialect before =
      let others := childrenStatement dialect connective before children
      ⟨connective.seed ++ others.sql, others.values⟩ := by
  rw [statement, template, Statement.ofFilled_append, Statement.ofFilled_verbatim,
    Statement.valuesOf_verbatim]
  rfl

end Condition

/-! ## Agreement -/

namespace Predicate

variable {schema : Schema} {config : Config} {dialect : Dialect}

theorem positional_range (stem field column : String) (before : ℕ) (value : Json) :
    Positional.range? dialect before column <$> bounds field value =
      (rangeCondition? column stem <$> bounds field value).map
        (Option.map (Condition.statement dialect before)) := by
  cases h : bounds field value with
  | error e => rfl
  | ok result =>
    obtain ⟨items, _, _, rfl, single⟩ := bounds_eq_ok_iff.mp h
    have hvalue : ∀ bound ∈ (bound? items 0).toList ++ (bound? items 1).toList,
        bound.isArray = false :=
      fun bound member => Json.isArray_of_not_isNested (single bound member)
    change Except.ok _ = Except.ok _
    congr 1
    rcases hlow : bound? items 0 with _ | low <;> rcases hhigh : bound? items 1 with _ | high <;>
      rw [hlow, hhigh] at hvalue
    · rfl
    · rw [rangeCondition?, Option.map_some,
        Condition.statement_compare dialect before _ _ _ (hvalue high (by simp))]
      rfl
    · rw [rangeCondition?, Option.map_some,
        Condition.statement_compare dialect before _ _ _ (hvalue low (by simp))]
      rfl
    · rw [rangeCondition?, Option.map_some, Condition.statement_range dialect before _ _ _
        (hvalue low (by simp)) (hvalue high (by simp))]

/-- A predicate has the same statement, or the same error, with and without names. -/
theorem positional_eq (stem : String) (before : ℕ) (predicate : Predicate) :
    predicate.positional schema config.escapeWildcards dialect before =
      (predicate.condition? schema config stem).map
        (Option.map (Condition.statement dialect before)) := by
  unfold positional condition?
  by_cases null : predicate.value.isNull = true
  · rw [if_pos null, if_pos null]
    rfl
  by_cases field : predicate.field = keywordField
  · rw [if_neg null, if_neg null, if_pos field, if_pos field, keywordCondition]
    split_ifs with columns
    · rfl
    · rw [← Pattern.containing_eq, ← Condition.statement_like dialect before _ _ (slotName stem 0)]
      rfl
  rw [if_neg null, if_neg null, if_neg field, if_neg field]
  cases schema.resolve predicate.field with
  | error e => rfl
  | ok column =>
    obtain ⟨field, operator, value⟩ := predicate
    cases operator with
    | none => rfl
    | some operator =>
      have hcompare : ∀ relation, value.isArray = false →
          Positional.comparison dialect before column relation value =
            (Condition.compare column relation ⟨slotName stem 0, value⟩).statement dialect before :=
        fun relation h => (Condition.statement_compare dialect before _ _ relation h).symm
      have hamong : ∀ items, Positional.membership dialect before column items =
          (Condition.among column ⟨slotName stem 0, .array items⟩).statement dialect before :=
        fun items => (Condition.statement_among dialect before _ _ items).symm
      have hsearch : ∀ operand : Json,
          Positional.search dialect before [column] config.escapeWildcards
              (operand.searchPattern config.escapeWildcards) =
            (Condition.like [column] config.escapeWildcards ⟨slotName stem 0,
              .string (Pattern.containing operand config.escapeWildcards)⟩).statement
                dialect before := by
        intro operand
        rw [Condition.statement_like, Pattern.containing_eq]
      cases operator with
      | equals =>
        cases value with
        | array items => exact congrArg (Except.ok ∘ some) (hamong items)
        | _ => exact congrArg (Except.ok ∘ some) (hcompare .equal rfl)
      | contains =>
        cases value with
        | array items => exact congrArg (Except.ok ∘ some) (hamong items)
        | _ => exact congrArg (Except.ok ∘ some) (hsearch _)
      | between => exact positional_range stem _ column before value
      | order relation =>
        cases value with
        | array items => rfl
        | object members => rfl
        | _ => exact congrArg (Except.ok ∘ some) (hcompare (.order relation) rfl)
      | unknown name => rfl

end Predicate

namespace Filter

variable {schema : Schema} {config : Config} {dialect : Dialect}

theorem positionalChildren_eq {children : List Filter}
    (ih : ∀ child ∈ children, ∀ stem before,
      child.positional schema config.escapeWildcards dialect before =
        (child.condition? schema config stem).map (Option.map (Condition.statement dialect before)))
    (connective : Connective) (stem : String) (index before : ℕ) :
    positionalChildren schema config.escapeWildcards dialect connective before children =
      (childConditions schema config stem index children).map
        (Condition.childrenStatement dialect connective before) := by
  induction children generalizing index before with
  | nil => rfl
  | cons child rest ihrest =>
    rw [positionalChildren, childConditions,
      ih child List.mem_cons_self (childStem stem index) before]
    cases child.condition? schema config (childStem stem index) with
    | error e => rfl
    | ok first =>
      have hrest :=
        ihrest (fun other member => ih other (List.mem_cons_of_mem _ member)) (index + 1)
      cases first with
      | none =>
        simp only [Except.map, Option.map_none, Option.getD_none, bind, Except.bind]
        rw [hrest]
        cases childConditions schema config stem (index + 1) rest <;> rfl
      | some condition =>
        have hcons := Condition.childrenStatement_cons dialect before connective condition
        simp only [Except.map, Option.map_some, Option.getD_some, bind, Except.bind]
        rw [hrest]
        cases childConditions schema config stem (index + 1) rest with
        | error e => rfl
        | ok others => exact congrArg Except.ok (hcons others).symm

/-- A filter has the same statement, or the same error, with and without names. -/
theorem positional_eq (filter : Filter) (stem : String) (before : ℕ) :
    filter.positional schema config.escapeWildcards dialect before =
      (filter.condition? schema config stem).map
        (Option.map (Condition.statement dialect before)) := by
  induction filter using Filter.induct generalizing stem before with
  | test predicate => exact Predicate.positional_eq stem before predicate
  | single logic only ih =>
    rw [positional, condition?]
    exact ih _ before
  | group logic children many ih =>
    rw [positional, condition?_group many]
    · cases logic with
      | unknown word => rfl
      | known connective =>
        have hchildren := positionalChildren_eq ih connective stem 0 before
        simp only [Logic.connective, bind, Except.bind]
        rw [hchildren]
        cases childConditions schema config stem 0 children with
        | error e => rfl
        | ok conditions =>
          have hempty := Condition.childrenStatement_sql_eq_empty_iff dialect before connective
            conditions
          have hgroup := Condition.statement_group dialect before connective conditions
          have hdrop : (conditions.isEmpty && !children.isEmpty) = true ↔
              conditions = [] ∧ children ≠ [] := by simp
          simp only [Except.map, hempty, hdrop]
          split_ifs with drop
          · rfl
          · exact congrArg (Except.ok ∘ some) hgroup.symm
    · exact many

end Filter

/-! ## Values -/

namespace Condition

/-- The values of a condition, in the order of its placeholders. -/
def values (condition : Condition) : List BoundValue :=
  valuesOf (condition.template Slot.boundValues)

theorem values_compare (column : String) (relation : Relation) (operand : Slot) :
    (compare column relation operand).values = operand.boundValues := by
  simp [values, template, valuesOf]

theorem values_among (column : String) (list : Slot) :
    (among column list).values = list.boundValues := by
  simp [values, template, valuesOf]

theorem values_range (column : String) (low high : Slot) :
    (range column low high).values = low.boundValues ++ high.boundValues := by
  simp [values, template, valuesOf]

theorem values_like (columns : List String) (escaped : Bool) (pattern : Slot) :
    (like columns escaped pattern).values = columns.flatMap fun _ => pattern.boundValues := by
  rw [values, template]
  induction columns with
  | nil => rfl
  | cons column rest ih =>
    cases rest with
    | nil => simp [likeTemplates, likeTemplate, valuesOf]
    | cons second rest =>
      rw [likeTemplates, Statement.valuesOf_append, Statement.valuesOf_append, ih]
      · simp [likeTemplate, valuesOf]
      · simp

theorem values_group (connective : Connective) (children : List Condition) :
    (group connective children).values = children.flatMap values := by
  rw [values, template, Statement.valuesOf_append, Statement.valuesOf_verbatim, List.nil_append]
  induction children with
  | nil => rfl
  | cons child rest ih =>
    rw [childTemplates, Statement.valuesOf_append, Statement.valuesOf_append,
      Statement.valuesOf_append, Statement.valuesOf_verbatim, Statement.valuesOf_verbatim, ih,
      List.flatMap_cons, List.nil_append, List.nil_append]
    rfl

end Condition

namespace Predicate

theorem boundValues_of_ne_keyword {schema : Schema} {escaped : Bool} {predicate : Predicate}
    (field : predicate.field ≠ keywordField) (stem : String) :
    predicate.boundValues schema escaped =
      (predicate.slots escaped stem).flatMap Slot.boundValues := by
  have hslots : (predicate.slots escaped stem).flatMap Slot.boundValues =
      (predicate.operands escaped).flatMap BoundValue.listOfJson := by
    rw [slots, List.flatMap_map]
    conv_rhs => rw [← List.zipIdx_map_fst 0 (predicate.operands escaped), List.flatMap_map]
    rfl
  rw [hslots, boundValues, if_neg field]
  split_ifs with null
  · rw [operands, if_pos null]
    rfl
  · rfl

theorem values_of_compiled {schema : Schema} {config : Config} {stem : String}
    {predicate : Predicate} {result : Option Condition}
    (h : Compiled schema config stem predicate result) :
    result.toList.flatMap Condition.values =
      predicate.boundValues schema config.escapeWildcards := by
  -- Away from the keyword field, every slot stands once in the text.
  have hfield : predicate.field ≠ keywordField →
      (∀ condition ∈ result, condition.values = condition.slots.flatMap Slot.boundValues) →
      result.toList.flatMap Condition.values =
        predicate.boundValues schema config.escapeWildcards := by
    intro field hvalues
    rw [boundValues_of_ne_keyword field stem, ← slots_of_compiled h]
    cases result with
    | none => rfl
    | some condition => simpa using hvalues condition rfl
  cases h with
  | unset null => rw [boundValues, if_pos null]; rfl
  | keyword set field columns =>
    rw [boundValues, set, if_neg Bool.false_ne_true, if_pos field, Option.toList_some,
      List.flatMap_singleton, Condition.values_like, List.map_eq_flatMap, Pattern.containing_eq]
    rfl
  | among field =>
    refine hfield field ?_
    rintro _ ⟨⟩
    simp [Condition.values_among, Condition.slots]
  | equal set field =>
    refine hfield field ?_
    rintro _ ⟨⟩
    simp [Condition.values_compare, Condition.slots]
  | contains set field =>
    refine hfield field ?_
    rintro _ ⟨⟩
    simp [Condition.values_like, Condition.slots]
  | between field mapped operator value short single =>
    refine hfield field fun condition hcondition => ?_
    obtain ⟨_, _, rfl⟩ | ⟨_, _, rfl⟩ := exists_of_rangeCondition? hcondition
    · simp [Condition.values_compare, Condition.slots]
    · simp [Condition.values_range, Condition.slots]
  | order set field =>
    refine hfield field ?_
    rintro _ ⟨⟩
    simp [Condition.values_compare, Condition.slots]

end Predicate

namespace Filter

variable {schema : Schema} {config : Config}

/-- The values of a compiled filter are those of its predicates from left to right. -/
theorem values_condition? {filter : Filter} {stem : String} {result : Option Condition}
    (h : filter.condition? schema config stem = .ok result) :
    result.toList.flatMap Condition.values =
      filter.predicates.flatMap (Predicate.boundValues schema config.escapeWildcards) :=
  flatMap_condition? Predicate.values_of_compiled Condition.values_group h

/-! ## Binding what has been compiled -/

/-- What a condition says is bound: the template spells its text, and the parameters
fill it. -/
theorem bind_condition {filter : Filter} {stem : String} {condition : Condition}
    (columns : schema.EveryColumn IsInertText) (hstem : Text.isIdentifier stem = true)
    (h : filter.condition? schema config stem = .ok (some condition)) (dialect : Dialect) :
    Statement.bind dialect condition.text (.ofSlots condition.slots) =
      .ok (condition.statement dialect 0) := by
  have hspells := Condition.spells_text (columns_condition? columns h)
    (isIdentifier_slots_condition hstem h)
  have hfills := Condition.fills_template fun _ member => get?_slots_condition h member
  rw [← hspells.pieces_eq, ← Template.pieces_eq] at hfills
  exact Statement.bind_of_fills hfills dialect

/-- A restriction that has been compiled below an identifier is bound to the statement
that is written without names. -/
theorem bind_compileAt {filter : Filter} {stem : String} {restriction : Restriction}
    (columns : schema.EveryColumn IsInertText) (hstem : Text.isIdentifier stem = true)
    (h : filter.compileAt schema config stem = .ok restriction) (dialect : Dialect) :
    ∃ statement, filter.positional schema config.escapeWildcards dialect 0 = .ok statement ∧
      Statement.bind dialect restriction.sql restriction.parameters =
        .ok (statement.getD ⟨"", []⟩) := by
  obtain ⟨result, hcondition, rfl⟩ := compileAt_eq_ok_iff.mp h
  refine ⟨result.map (Condition.statement dialect 0), ?_, ?_⟩
  · rw [positional_eq filter stem 0, hcondition]
    rfl
  · cases result with
    | none => rfl
    | some condition => exact bind_condition columns hstem hcondition dialect

end Filter

/-- **Binding names agrees with positional placeholders.** Let no column contain a quote,
a colon, a hyphen or a slash, let the configuration be valid, and let a filter compile.
Then what it compiles to can be bound in every dialect, the outcome is the statement
that is written without names, and its values are those of the predicates from left to
right. The outcome is the same for every other valid stem. -/
theorem bind_compile_eq_positional {schema : Schema} {config : Config} {filter : Filter}
    {restriction : Restriction} (columns : schema.EveryColumn IsInertText)
    (valid : config.check = .ok ()) (h : filter.compile schema config = .ok restriction)
    (dialect : Dialect) :
    ∃ statement, filter.positional schema config.escapeWildcards dialect 0 = .ok statement ∧
      Statement.bind dialect restriction.sql restriction.parameters =
        .ok (statement.getD ⟨"", []⟩) ∧
      (statement.getD ⟨"", []⟩).values =
        filter.predicates.flatMap (Predicate.boundValues schema config.escapeWildcards) ∧
      ∀ other : Config, other.check = .ok () → other.escapeWildcards = config.escapeWildcards →
        ∃ renamed, filter.compile schema other = .ok renamed ∧
          Statement.bind dialect renamed.sql renamed.parameters =
            .ok (statement.getD ⟨"", []⟩) := by
  obtain ⟨statement, hstatement, hbind⟩ :=
    Filter.bind_compileAt columns (Config.check_eq_ok_iff.mp valid) h dialect
  refine ⟨statement, hstatement, hbind, ?_, fun other hother hescape => ?_⟩
  · obtain ⟨result, hcondition, rfl⟩ := Filter.compileAt_eq_ok_iff.mp h
    rw [Filter.positional_eq filter config.stem 0, hcondition] at hstatement
    cases hstatement
    rw [← Filter.values_condition? hcondition]
    cases result with
    | none => rfl
    | some condition => exact (List.flatMap_singleton _ _).symm
  · have hrenamed := hstatement
    rw [← hescape, Filter.positional_eq filter other.stem 0] at hrenamed
    cases hcondition : filter.condition? schema other other.stem with
    | error e => rw [hcondition] at hrenamed; cases hrenamed
    | ok result =>
      have hcompile : filter.compile schema other = .ok (Restriction.of result) :=
        Filter.compileAt_eq_ok_iff.mpr ⟨result, hcondition, rfl⟩
      obtain ⟨same, hsame, hbound⟩ :=
        Filter.bind_compileAt columns (Config.check_eq_ok_iff.mp hother) hcompile dialect
      rw [hescape, hstatement] at hsame
      cases hsame
      exact ⟨_, hcompile, hbound⟩

theorem Example.everyColumn_orders : Example.orders.EveryColumn IsInertText :=
  .build (by decide)

theorem bind_search :
    ∃ restriction, Example.search.compile Example.orders {} = .ok restriction ∧
      Statement.bind .postgres restriction.sql restriction.parameters =
        .ok ⟨"1=0 OR (NAME LIKE $1 OR DESCRIPTION LIKE $2) OR " ++
            "(1=1 AND (STATUS_CD IN ($3, $4)) AND (AMOUNT BETWEEN $5 AND $6) AND (AMOUNT <= $7))",
          [.string "%50%%", .string "%50%%", .string "A", .string "B", .bigInt 1, .bigInt 2,
            .bigInt 9]⟩ := by
  obtain ⟨statement, hstatement, hbind, -⟩ :=
    bind_compile_eq_positional Example.everyColumn_orders rfl
      (show Example.search.compile Example.orders {} = .ok _ from rfl) .postgres
  cases hstatement
  exact ⟨_, rfl, hbind⟩

end FilterSql
