import FilterSql.Proofs.Condition.Slots
import FilterSql.Proofs.Condition.Template

/-!
# Stems only rename

The stem that a filter is compiled at stands in front of every name and nowhere else. So
compiling at a stem is compiling at the empty stem and renaming, and errors, which mention
no name, are the same at every stem.

Results:
* `Condition.text_rename`, `Condition.slots_rename`: what renaming does to the text and
  to the slots of a condition.
* `Filter.condition?_append`: compiling at a longer stem is compiling and renaming.
* `Filter.compileAt_within`: a group of one child around a filter makes its stem longer,
  whatever the logic word.
* `compileAt_only_renames`: both together, for the text and the parameters of a filter.
-/

namespace FilterSql

/-! ## Specification -/

/-- The text of pieces, a slot being written as the placeholder of its new name. -/
def spell (f : String → String) : List (Piece String) → String
  | [] => ""
  | .verbatim c :: rest => String.singleton c ++ spell f rest
  | .slot name :: rest => ":" ++ f name ++ spell f rest

/-- A filter inside one group of one child for each logic word, the first word being
that of the outermost group. -/
def Filter.within (filter : Filter) : List Logic → Filter
  | [] => filter
  | logic :: logics => .group logic [filter.within logics]

/-! ## Renaming conditions -/

/-- A slot under a new name. -/
def Slot.rename (f : String → String) (slot : Slot) : Slot :=
  ⟨f slot.name, slot.value⟩

namespace Condition

mutual

/-- A condition whose slots have new names. -/
def rename (f : String → String) : Condition → Condition
  | .compare column relation operand => .compare column relation (operand.rename f)
  | .among column list => .among column (list.rename f)
  | .range column low high => .range column (low.rename f) (high.rename f)
  | .like columns escaped pattern => .like columns escaped (pattern.rename f)
  | .group connective children => .group connective (renameChildren f children)

/-- Children whose slots have new names. -/
def renameChildren (f : String → String) : List Condition → List Condition
  | [] => []
  | child :: rest => child.rename f :: renameChildren f rest

end

variable (f : String → String)

/-- Renaming keeps the slots of a condition and their order. -/
theorem slots_rename (condition : Condition) :
    (condition.rename f).slots = condition.slots.map (Slot.rename f) := by
  induction condition using Condition.induct with
  | group connective children ih =>
    rw [rename, slots, slots]
    induction children with
    | nil => rfl
    | cons child rest ihrest =>
      rw [renameChildren, childSlots, childSlots, List.map_append, ih child List.mem_cons_self,
        ihrest fun other member => ih other (List.mem_cons_of_mem _ member)]
  | _ => rfl

end Condition

/-! ## Texts of renamed conditions -/

section Text

variable (f : String → String)

theorem spell_append (first second : List (Piece String)) :
    spell f (first ++ second) = spell f first ++ spell f second := by
  induction first with
  | nil => simp [spell]
  | cons piece rest ih => cases piece <;> simp [spell, ih, String.append_assoc]

theorem spell_verbatim (text : String) : spell f (verbatim text) = text := by
  rw [verbatim]
  apply String.toList_injective
  induction text.toList with
  | nil => rfl
  | cons c rest ih => rw [List.map_cons, spell, String.toList_append, ih]; simp

theorem spell_slot (name : String) : spell f [.slot name] = ":" ++ f name := by
  simp [spell]

namespace Condition

theorem likeText_rename (column : String) (escaped : Bool) (pattern : Slot) :
    likeText column escaped (pattern.rename f) =
      spell f (likeTemplate Slot.name column escaped pattern) := by
  rw [likeText, likeTemplate, spell_append, spell_append, spell_verbatim, spell_verbatim,
    spell_slot, String.append_assoc]
  rfl

theorem likeTexts_rename (escaped : Bool) (pattern : Slot) (columns : List String) :
    " OR ".intercalate (columns.map fun column => likeText column escaped (pattern.rename f)) =
      spell f (likeTemplates Slot.name escaped pattern columns) := by
  induction columns with
  | nil => rfl
  | cons column rest ih =>
    cases rest with
    | nil => simpa [likeTemplates] using likeText_rename f column escaped pattern
    | cons second rest =>
      rw [List.map_cons] at ih
      change _ = spell f (likeTemplate Slot.name column escaped pattern ++
        (verbatim " OR " ++ likeTemplates Slot.name escaped pattern (second :: rest)))
      rw [List.map_cons, List.map_cons, String.intercalate_cons_cons, ih, likeText_rename,
        spell_append, spell_append, spell_verbatim, String.append_assoc]

/-- The text of a renamed condition has the pieces of the condition, spelled with the new
names. -/
theorem text_rename (condition : Condition) :
    (condition.rename f).text = spell f (condition.template Slot.name) := by
  induction condition using Condition.induct with
  | like columns escaped pattern => exact likeTexts_rename f escaped pattern columns
  | group connective children ih =>
    rw [rename, text, template, spell_append, spell_verbatim]
    congr 1
    induction children with
    | nil => rfl
    | cons child rest ihrest =>
      have hothers := ihrest fun other member => ih other (List.mem_cons_of_mem _ member)
      rw [renameChildren, childrenText, childTemplates, ih child List.mem_cons_self, hothers]
      simp only [spell_append, spell_verbatim, String.append_assoc]
  | _ =>
    simp only [rename, text, template, spell_append, spell_verbatim, spell_slot,
      String.append_assoc]
    rfl

end Condition

end Text

/-! ## Compiling at a longer stem -/

theorem childStem_append (stem suffix : String) (index : ℕ) :
    childStem (stem ++ suffix) index = stem ++ childStem suffix index := by
  simp [childStem, String.append_assoc]

theorem slotName_append (stem suffix : String) (number : ℕ) :
    slotName (stem ++ suffix) number = stem ++ slotName suffix number := by
  simp [slotName, String.append_assoc]

namespace Predicate

theorem rangeCondition?_append (column stem suffix : String) (bounds : Option Json × Option Json) :
    rangeCondition? column (stem ++ suffix) bounds =
      (rangeCondition? column suffix bounds).map (Condition.rename (stem ++ ·)) := by
  obtain ⟨low | low, high | high⟩ := bounds <;>
    simp [rangeCondition?, slotName_append, Condition.rename, Slot.rename]

theorem operatorCondition?_append (config : Config) (stem suffix field column : String)
    (operator : Operator) (value : Json) :
    operatorCondition? config (stem ++ suffix) field column operator value =
      (operatorCondition? config suffix field column operator value).map
        (Option.map (Condition.rename (stem ++ ·))) := by
  cases operator with
  | equals =>
    cases h : value.isArray <;>
      simp [operatorCondition?, h, slotName_append, Condition.rename, Slot.rename, Except.map]
  | contains =>
    cases h : value.isArray <;>
      simp [operatorCondition?, h, slotName_append, Condition.rename, Slot.rename, Except.map]
  | between =>
    rw [operatorCondition?, operatorCondition?]
    cases bounds field value with
    | error e => rfl
    | ok bounds => exact congrArg Except.ok (rangeCondition?_append column stem suffix bounds)
  | order relation =>
    cases h : value.isNested <;>
      simp [operatorCondition?, h, slotName_append, Condition.rename, Slot.rename, Except.map]
  | unknown name => rfl

theorem condition?_append (schema : Schema) (config : Config) (stem suffix : String)
    (predicate : Predicate) :
    predicate.condition? schema config (stem ++ suffix) =
      (predicate.condition? schema config suffix).map
        (Option.map (Condition.rename (stem ++ ·))) := by
  rw [condition?, condition?]
  split_ifs with null field
  · rfl
  · rw [keywordCondition, keywordCondition]
    split_ifs with columns
    · rfl
    · simp [slotName_append, Condition.rename, Slot.rename, Except.map]
  · cases schema.resolve predicate.field with
    | error e => rfl
    | ok column =>
      cases hop : predicate.operator with
      | none => rfl
      | some operator =>
        exact operatorCondition?_append config stem suffix predicate.field column operator
          predicate.value

end Predicate

namespace Filter

theorem childConditions_append {schema : Schema} {config : Config} {stem : String}
    {children : List Filter}
    (ih : ∀ child ∈ children, ∀ suffix, child.condition? schema config (stem ++ suffix) =
      (child.condition? schema config suffix).map (Option.map (Condition.rename (stem ++ ·))))
    (suffix : String) (index : ℕ) :
    childConditions schema config (stem ++ suffix) index children =
      (childConditions schema config suffix index children).map
        (Condition.renameChildren (stem ++ ·)) := by
  induction children generalizing index with
  | nil => rfl
  | cons child rest ihrest =>
    have hothers := ihrest (fun other member => ih other (List.mem_cons_of_mem _ member))
      (index + 1)
    rw [childConditions, childConditions, childStem_append, ih child List.mem_cons_self, hothers]
    cases child.condition? schema config (childStem suffix index) with
    | error e => rfl
    | ok first =>
      cases childConditions schema config suffix (index + 1) rest with
      | error e => rfl
      | ok others => cases first <;> rfl

/-- Compiling at a longer stem is compiling and putting the front part of the stem before
every name. Errors stay the same. -/
theorem condition?_append (schema : Schema) (config : Config) (stem suffix : String)
    (filter : Filter) :
    filter.condition? schema config (stem ++ suffix) =
      (filter.condition? schema config suffix).map
        (Option.map (Condition.rename (stem ++ ·))) := by
  induction filter using Filter.induct generalizing suffix with
  | test predicate => exact predicate.condition?_append schema config stem suffix
  | single logic only ih => rw [condition?, condition?, childStem_append, ih]
  | group logic children many ih =>
    rw [condition?_group many, condition?_group many, childConditions_append ih]
    cases logic with
    | unknown word => rfl
    | known connective =>
      cases childConditions schema config suffix 0 children with
      | error e => rfl
      | ok conditions => cases conditions <;> cases children <;> rfl

/-! ## Groups of one child -/

/-- Groups of one child around a filter make its stem longer. Their logic words, known or
not, are never looked at. -/
theorem compileAt_within (schema : Schema) (config : Config) (filter : Filter)
    (logics : List Logic) (stem : String) :
    (filter.within logics).compileAt schema config stem =
      filter.compileAt schema config (stem ++ String.join (List.replicate logics.length "_0")) := by
  induction logics generalizing stem with
  | nil => simp [within]
  | cons logic logics ih =>
    have hpass : (filter.within (logic :: logics)).compileAt schema config stem =
        (filter.within logics).compileAt schema config (childStem stem 0) := by
      rw [compileAt, within, condition?]
      rfl
    have hchild : childStem stem 0 = stem ++ "_0" := by rw [childStem, String.append_assoc]; rfl
    rw [hpass, ih, hchild, List.length_cons, List.replicate_succ, String.join_cons,
      String.append_assoc]

end Filter

/-! ## Restrictions at different stems -/

/-- Renamed slots bind the values of the slots under the new names. -/
theorem Parameters.get?_ofSlots_rename {f : String → String} (injective : f.Injective)
    {slots : List Slot} (unique : (slots.map Slot.name).Nodup) {name : String} {value : Json} :
    (Parameters.ofSlots (slots.map (Slot.rename f))).get? name = some value ↔
      ∃ old, name = f old ∧ (Parameters.ofSlots slots).get? old = some value := by
  have hnames : (slots.map (Slot.rename f)).map Slot.name = (slots.map Slot.name).map f := by
    rw [List.map_map, List.map_map]
    rfl
  have hunique : ((slots.map (Slot.rename f)).map Slot.name).Nodup := by
    rw [hnames]
    exact unique.map injective
  simp only [get?_ofSlots_eq_some_iff hunique, get?_ofSlots_eq_some_iff unique, List.mem_map]
  constructor
  · rintro ⟨slot, member, h⟩
    cases h
    exact ⟨slot.name, rfl, member⟩
  · rintro ⟨old, rfl, member⟩
    exact ⟨_, member, rfl⟩

/-- The restriction of a filter at a stem is that of the condition at the empty stem, renamed. -/
theorem Filter.compileAt_eq_map_rename (schema : Schema) (config : Config) (filter : Filter)
    (stem : String) :
    filter.compileAt schema config stem =
      (filter.condition? schema config "").map fun result =>
        .of (result.map (Condition.rename (stem ++ ·))) := by
  have happend := filter.condition?_append schema config stem ""
  rw [String.append_empty] at happend
  rw [compileAt_eq_map, happend]
  cases filter.condition? schema config "" <;> rfl

/-- **The stem only renames.** For every schema, configuration and filter:
* either compiling fails, with one error whatever the stem, or there are pieces and values
  by suffix, both the same for every stem, so that the text of the restriction at a stem
  spells the pieces and a name has a value exactly if it is the stem and a suffix with
  that value; and every suffix of the pieces has one;
* inside groups of one child, with any logic words, the filter compiles to what it
  compiles to at the stem with `_0` behind it for each group. -/
theorem compileAt_only_renames (schema : Schema) (config : Config) (filter : Filter) :
    ((∃ e, ∀ stem, filter.compileAt schema config stem = .error e) ∨
      ∃ pieces, ∃ bound : Parameters,
        (∀ suffix, .slot suffix ∈ pieces → ∃ value, bound.get? suffix = some value) ∧
        ∀ stem, ∃ restriction, filter.compileAt schema config stem = .ok restriction ∧
          restriction.sql = spell (stem ++ ·) pieces ∧
          ∀ name value, restriction.parameters.get? name = some value ↔
            ∃ suffix, name = stem ++ suffix ∧ bound.get? suffix = some value) ∧
    ∀ logics stem, (filter.within logics).compileAt schema config stem =
      filter.compileAt schema config
        (stem ++ String.join (List.replicate logics.length "_0")) := by
  refine ⟨?_, filter.compileAt_within schema config⟩
  cases h : filter.condition? schema config "" with
  | error e =>
    refine .inl ⟨e, fun stem => ?_⟩
    rw [filter.compileAt_eq_map_rename, h]
    rfl
  | ok result =>
    have hcompile : ∀ stem, filter.compileAt schema config stem =
        .ok (.of (result.map (Condition.rename (stem ++ ·)))) := by
      intro stem
      rw [filter.compileAt_eq_map_rename, h]
      rfl
    cases result with
    | none =>
      refine .inr ⟨[], {}, nofun, fun stem => ⟨_, hcompile stem, rfl, ?_⟩⟩
      simp [Restriction.of, Parameters.get?]
    | some condition =>
      have hfills := Condition.fills_template fun _ => Filter.get?_slots_condition h
      refine .inr ⟨condition.template Slot.name, .ofSlots condition.slots,
        fun _ => Statement.exists_value_of_fills hfills, fun stem =>
          ⟨_, hcompile stem, condition.text_rename _, fun name value => ?_⟩⟩
      have hinjective : (stem ++ · : String → String).Injective := fun _ _ =>
        (String.append_right_inj stem).mp
      change (Parameters.ofSlots (condition.rename (stem ++ ·)).slots).get? name = some value ↔ _
      rw [Condition.slots_rename]
      exact Parameters.get?_ofSlots_rename hinjective (Filter.nodup_slots_condition h)

/-- A stem that looks like a name itself, and a logic word that is not known. -/
example :
    ((Filter.between "amount" none (some (.bool true))).within
        [.unknown "xor", .known .or]).compileAt Example.orders {} "p_0__0" =
      .ok ⟨"AMOUNT <= :p_0__0_0_0__0", .ofList [("p_0__0_0_0__0", .bool true)]⟩ := rfl

end FilterSql
