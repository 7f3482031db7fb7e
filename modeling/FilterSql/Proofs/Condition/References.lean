import Mathlib.Data.List.Nodup
import FilterSql.Proofs.Condition.Leaves
import FilterSql.Proofs.Condition.Positional

/-!
# References to parameters

The text of a condition refers to its parameters by name, and the values of the parameters
are decided on elsewhere. They fit: what is referred to is bound, what is bound is referred
to, and a list stands in the parentheses behind `IN` and nowhere else. So whatever is
compared with a column by a sign, by `LIKE` or by `BETWEEN` becomes one placeholder.

Results:
* `Condition.mem_template_iff`, `Condition.count_template_of_mem`: which names a condition
  refers to, and how often.
* `EachRefers.append`, `Condition.eachRefers_template`: what every reference is like, part
  by part.
* `compile_refers_to_parameters`: both, for what a filter compiles to, and what is sent for
  a reference outside of `IN`.
-/

namespace FilterSql

open Statement (Fills ofFilled valuesOf)

/-! ## Specification -/

/-- What stands before and behind a reference in the parentheses behind a column of the
schema and the word `IN`. -/
def IsListReference (schema : Schema) (before after : List (Piece String)) : Prop :=
  ∃ field column, schema.column? field = some column ∧
    verbatim (column ++ " IN (") <:+ before ∧ verbatim ")" <+: after

/-- How often each name of a predicate is referred to: once for every keyword column in a
keyword search, and once otherwise. -/
def Predicate.referenceCount (schema : Schema) (predicate : Predicate) : ℕ :=
  if predicate.field = keywordField then schema.keywordColumns.length else 1

/-! ## How often a name is referred to -/

namespace Condition

/-- How often a leaf refers to each of its slots. -/
def repetitions : Condition → ℕ
  | .like columns _ _ => columns.length
  | _ => 1

theorem count_likeTemplates (escaped : Bool) (pattern : Slot) (columns : List String)
    (name : String) :
    (likeTemplates Slot.name escaped pattern columns).count (.slot name) =
      [pattern.name].count name * columns.length := by
  have hone : ∀ column, (likeTemplate Slot.name column escaped pattern).count (.slot name) =
      [pattern.name].count name := by
    intro column
    rw [likeTemplate, List.count_append, List.count_append, count_slot_verbatim,
      count_slot_verbatim, Nat.zero_add, Nat.add_zero]
    simp [List.count_singleton]
  induction columns with
  | nil => rfl
  | cons column rest ih =>
    cases rest with
    | nil => rw [likeTemplates, hone, List.length_singleton, Nat.mul_one]
    | cons second rest =>
      show List.count _ (likeTemplate Slot.name column escaped pattern ++
        (verbatim " OR " ++ likeTemplates Slot.name escaped pattern (second :: rest))) = _
      rw [List.count_append, List.count_append, count_slot_verbatim, hone, ih,
        List.length_cons (a := column), Nat.mul_succ]
      omega

/-- A leaf refers to each of its slots as often as to every other. -/
theorem count_leaf {schema : Schema} {leaf : Condition} (fits : leaf.Fits schema)
    (name : String) :
    (leaf.template Slot.name).count (.slot name) =
      (leaf.slots.map Slot.name).count name * leaf.repetitions := by
  cases fits with
  | like some single => exact count_likeTemplates _ _ _ name
  | _ =>
    simp [template, slots, repetitions, List.count_append, count_slot_verbatim,
      List.count_cons]

theorem repetitions_pos_of_fits {schema : Schema} {leaf : Condition} (fits : leaf.Fits schema) :
    0 < leaf.repetitions := by
  cases fits with
  | like some single => exact List.length_pos_iff.mpr some
  | _ => exact Nat.one_pos

section Fits

variable {schema : Schema} {condition : Condition}
  (fits : ∀ leaf ∈ condition.leaves, leaf.Fits schema)

include fits

theorem count_template_eq_sum (name : String) :
    (condition.template Slot.name).count (.slot name) =
      (condition.leaves.map fun leaf =>
        (leaf.slots.map Slot.name).count name * leaf.repetitions).sum := by
  rw [count_template]
  exact congrArg List.sum (List.map_congr_left fun leaf member =>
    count_leaf (fits leaf member) name)

/-- A condition refers to its slots and to nothing else. -/
theorem mem_template_iff {name : String} :
    .slot name ∈ condition.template Slot.name ↔ name ∈ condition.slots.map Slot.name := by
  rw [← List.count_pos_iff, count_template_eq_sum fits, List.sum_pos_iff_exists_pos_nat,
    slots_eq_flatMap_leaves, List.map_flatMap, List.mem_flatMap]
  constructor
  · rintro ⟨_, hcount, hpos⟩
    obtain ⟨leaf, member, rfl⟩ := List.mem_map.mp hcount
    exact ⟨leaf, member, List.count_pos_iff.mp (Nat.pos_of_mul_pos_right hpos)⟩
  · rintro ⟨leaf, member, h⟩
    exact ⟨_, List.mem_map_of_mem member,
      Nat.mul_pos (List.count_pos_iff.mpr h) (repetitions_pos_of_fits (fits leaf member))⟩

end Fits

/-- Leaves that have no slot of a name do not refer to it. -/
theorem sum_count_of_absent {leaves : List Condition} {name : String}
    (h : ∀ leaf ∈ leaves, name ∉ leaf.slots.map Slot.name) :
    (leaves.map fun leaf => (leaf.slots.map Slot.name).count name * leaf.repetitions).sum = 0 := by
  refine Nat.eq_zero_of_not_pos fun hpos => ?_
  obtain ⟨_, hcount, hpos⟩ := List.sum_pos_iff_exists_pos_nat.mp hpos
  obtain ⟨leaf, member, rfl⟩ := List.mem_map.mp hcount
  exact h leaf member (List.count_pos_iff.mp (Nat.pos_of_mul_pos_right hpos))

/-- When no name is given to two slots, a condition refers to each of its slots as often as
the leaf of the slot does. -/
theorem count_template_of_mem {schema : Schema} {condition : Condition}
    (fits : ∀ leaf ∈ condition.leaves, leaf.Fits schema)
    (unique : (condition.slots.map Slot.name).Nodup) {leaf : Condition}
    (member : leaf ∈ condition.leaves) {slot : Slot} (h : slot ∈ leaf.slots) :
    (condition.template Slot.name).count (.slot slot.name) = leaf.repetitions := by
  have hname : slot.name ∈ leaf.slots.map Slot.name := List.mem_map_of_mem h
  rw [count_template_eq_sum fits]
  rw [slots_eq_flatMap_leaves, List.map_flatMap] at unique
  obtain ⟨first, rest, hleaves⟩ := List.append_of_mem member
  rw [hleaves, List.flatMap_append, List.flatMap_cons, List.nodup_append,
    List.nodup_append] at unique
  obtain ⟨-, ⟨hleaf, -, hrest⟩, hfirst⟩ := unique
  -- No other leaf has a slot of that name, and this leaf has one.
  have hbefore : ∀ other ∈ first, slot.name ∉ other.slots.map Slot.name := fun other hother hmem =>
    hfirst _ (List.mem_flatMap.mpr ⟨other, hother, hmem⟩) _ (List.mem_append_left _ hname) rfl
  have hbehind : ∀ other ∈ rest, slot.name ∉ other.slots.map Slot.name := fun other hother hmem =>
    hrest _ hname _ (List.mem_flatMap.mpr ⟨other, hother, hmem⟩) rfl
  rw [hleaves, List.map_append, List.sum_append, List.map_cons, List.sum_cons,
    List.count_eq_one_of_mem hleaf hname, sum_count_of_absent hbefore,
    sum_count_of_absent hbehind, Nat.zero_add, Nat.one_mul, Nat.add_zero]

end Condition

/-! ## What a reference is like -/

theorem verbatim_append {σ : Type} (first second : String) :
    (verbatim (first ++ second) : List (Piece σ)) = verbatim first ++ verbatim second := by
  rw [verbatim, String.toList_append, List.map_append]
  rfl

/-- A name has a value, and what stands around the name fits it: the parentheses behind `IN`
if the value is a list, and a blank otherwise. -/
def Refers (schema : Schema) (parameters : Parameters) (before : List (Piece String))
    (name : String) (after : List (Piece String)) : Prop :=
  ∃ value, parameters.get? name = some value ∧
    if value.isArray = true then IsListReference schema before after
    else [.verbatim ' '] <:+ before

theorem IsListReference.extend {schema : Schema} {before after : List (Piece String)}
    (h : IsListReference schema before after) (more others : List (Piece String)) :
    IsListReference schema (more ++ before) (after ++ others) := by
  obtain ⟨field, column, mapped, hbefore, hafter⟩ := h
  exact ⟨field, column, mapped, hbefore.trans (List.suffix_append _ _),
    hafter.trans (List.prefix_append _ _)⟩

/-- Behind a blank there is no list. -/
theorem not_isListReference_of_blank {schema : Schema} {before after : List (Piece String)}
    (blank : [.verbatim ' '] <:+ before) : ¬ IsListReference schema before after := by
  rintro ⟨field, column, -, hopen, -⟩
  have hlast : before.getLast? = some (.verbatim '(') := by
    obtain ⟨more, rfl⟩ := hopen
    rw [verbatim_append]
    simp [verbatim]
  obtain ⟨more, rfl⟩ := blank
  simp at hlast

section Refers

variable {schema : Schema} {parameters : Parameters} {before after : List (Piece String)}
  {name : String} {value : Json}

theorem Refers.extend (h : Refers schema parameters before name after)
    (more others : List (Piece String)) :
    Refers schema parameters (more ++ before) name (after ++ others) := by
  obtain ⟨value, hvalue, h⟩ := h
  refine ⟨value, hvalue, ?_⟩
  split_ifs at h ⊢ with isList
  · exact h.extend more others
  · exact h.trans (List.suffix_append _ _)

/-- A value is a list exactly when its reference stands in the parentheses behind `IN`. -/
theorem Refers.exists_value (h : Refers schema parameters before name after) :
    ∃ value, parameters.get? name = some value ∧
      (value.isArray = true ↔ IsListReference schema before after) := by
  obtain ⟨value, hvalue, h⟩ := h
  refine ⟨value, hvalue, ?_⟩
  split_ifs at h with isList
  · exact iff_of_true isList h
  · exact iff_of_false isList (not_isListReference_of_blank h)

/-- A list in the parentheses behind a column and `IN`. -/
theorem Refers.list {field column : String} (mapped : schema.column? field = some column)
    (hvalue : parameters.get? name = some value) (isList : value.isArray = true) :
    Refers schema parameters (verbatim (column ++ " IN (")) name (verbatim ")") := by
  refine ⟨value, hvalue, ?_⟩
  rw [if_pos isList]
  exact ⟨field, column, mapped, List.suffix_refl _, List.prefix_refl _⟩

/-- A single value behind a text that ends with a blank. -/
theorem Refers.single {lead word : String} (hvalue : parameters.get? name = some value)
    (single : value.isArray = false)
    (blank : [.verbatim ' '] <:+ (verbatim word : List (Piece String))) :
    Refers schema parameters (verbatim (lead ++ word)) name after := by
  refine ⟨value, hvalue, ?_⟩
  rw [if_neg (Bool.eq_false_iff.mp single), verbatim_append]
  exact blank.trans (List.suffix_append _ _)

/-- Every name in some pieces has a value that fits what stands around the name. -/
def EachRefers (schema : Schema) (parameters : Parameters) (pieces : List (Piece String)) : Prop :=
  ∀ before name after, pieces = before ++ .slot name :: after →
    Refers schema parameters before name after

namespace EachRefers

theorem exists_value {pieces : List (Piece String)} (h : EachRefers schema parameters pieces)
    {name : String} (member : .slot name ∈ pieces) :
    ∃ value, parameters.get? name = some value := by
  obtain ⟨before, after, hpieces⟩ := List.append_of_mem member
  obtain ⟨value, hvalue, -⟩ := h before name after hpieces
  exact ⟨value, hvalue⟩

theorem text (text : String) : EachRefers schema parameters (verbatim text) := by
  intro before name after hpieces
  have member : Piece.slot name ∈ verbatim text := by
    rw [hpieces]
    simp
  exact absurd member (slot_notMem_verbatim text name)

/-- What is required of every reference is required of it in its own part. -/
theorem append {first second : List (Piece String)} (h : EachRefers schema parameters first)
    (h' : EachRefers schema parameters second) :
    EachRefers schema parameters (first ++ second) := by
  intro before name after hpieces
  rcases List.append_eq_append_iff.mp hpieces with ⟨more, rfl, hsecond⟩ | ⟨rest, hfirst, hrest⟩
  · have hrefers := (h' more name after hsecond).extend first []
    rwa [List.append_nil] at hrefers
  · cases rest with
    | nil =>
      -- The reference is the first piece of the second part.
      rw [List.append_nil] at hfirst
      rw [← hfirst]
      have hrefers := (h' [] name after hrest.symm).extend first []
      rwa [List.append_nil, List.append_nil] at hrefers
    | cons piece rest =>
      obtain ⟨rfl, rfl⟩ := List.cons.inj hrest
      exact (h before name rest hfirst).extend [] second

/-- One reference between two texts. -/
theorem enclosed {lead tail : String}
    (h : Refers schema parameters (verbatim lead) name (verbatim tail)) :
    EachRefers schema parameters
      (verbatim lead ++ ([.slot name] ++ verbatim tail)) := by
  intro before other after hpieces
  obtain ⟨rfl, hname, rfl⟩ := (List.append_cons_inj_of_notMem
    (slot_notMem_verbatim lead other) (slot_notMem_verbatim tail other)).mp hpieces
  cases hname
  exact h

/-- One reference at the end of a text. -/
theorem behind {lead : String} (h : Refers schema parameters (verbatim lead) name []) :
    EachRefers schema parameters (verbatim lead ++ [.slot name]) := by
  have hnothing : [.slot name] = [.slot name] ++ verbatim "" := rfl
  rw [hnothing]
  exact enclosed h

end EachRefers

end Refers

/-! ## References of a condition -/

namespace Condition

section Leaf

variable {schema : Schema} {parameters : Parameters}

theorem eachRefers_likeTemplates {escaped : Bool} {pattern : Slot}
    (hvalue : parameters.get? pattern.name = some pattern.value)
    (single : pattern.value.isArray = false) (columns : List String) :
    EachRefers schema parameters (likeTemplates Slot.name escaped pattern columns) := by
  have hone : ∀ column,
      EachRefers schema parameters (likeTemplate Slot.name column escaped pattern) :=
    fun column => .enclosed (.single hvalue single (by decide))
  induction columns with
  | nil => exact .text ""
  | cons column rest ih =>
    cases rest with
    | nil => exact hone column
    | cons second rest => exact .append (hone column) (.append (.text _) ih)

theorem eachRefers_leaf {leaf : Condition} (fits : leaf.Fits schema)
    (values : ∀ slot ∈ leaf.slots, parameters.get? slot.name = some slot.value) :
    EachRefers schema parameters (leaf.template Slot.name) := by
  cases fits with
  | compare single =>
    exact .behind (.single (values _ (by simp [slots])) single (by decide))
  | among mapped isList =>
    exact .enclosed (.list mapped (values _ (by simp [slots])) isList)
  | @range column low high low_single high_single =>
    have hlow : EachRefers schema parameters
        (verbatim (column ++ " BETWEEN ") ++ [.slot low.name]) :=
      .behind (.single (values low (by simp [slots])) low_single (by decide))
    have hhigh : EachRefers schema parameters (verbatim ("" ++ " AND ") ++ [.slot high.name]) :=
      .behind (.single (values high (by simp [slots])) high_single (by decide))
    rw [template, ← List.append_assoc]
    exact hlow.append hhigh
  | like some single => exact eachRefers_likeTemplates (values _ (by simp [slots])) single _

/-- In a group, the references are those of its children. -/
theorem eachRefers_template {condition : Condition}
    (h : ∀ leaf ∈ condition.leaves, EachRefers schema parameters (leaf.template Slot.name)) :
    EachRefers schema parameters (condition.template Slot.name) := by
  induction condition using Condition.induct with
  | group connective children ih =>
    rw [leaves] at h
    refine .append (.text _) ?_
    induction children with
    | nil => exact .text ""
    | cons child rest ihrest =>
      rw [childLeaves] at h
      have hchild := ih child List.mem_cons_self fun leaf member =>
        h leaf (List.mem_append_left _ member)
      have hrest := ihrest (fun other member => ih other (List.mem_cons_of_mem _ member))
        fun leaf member => h leaf (List.mem_append_right _ member)
      exact .append (.text _) (.append hchild (.append (.text _) hrest))
  | _ => exact h _ List.mem_cons_self

end Leaf

end Condition

/-! ## References of a filter -/

theorem Predicate.repetitions_of_compiled {schema : Schema} {config : Config} {stem : String}
    {predicate : Predicate} {leaf : Condition}
    (h : Compiled schema config stem predicate (some leaf)) :
    leaf.repetitions = predicate.referenceCount schema := by
  generalize hresult : some leaf = result at h
  cases h with
  | unset null => cases hresult
  | keyword set field columns =>
    cases hresult
    rw [referenceCount, if_pos field]
    rfl
  | between field mapped operator value short single =>
    rw [referenceCount, if_neg field]
    obtain ⟨_, _, rfl⟩ | ⟨_, _, rfl⟩ := exists_of_rangeCondition? hresult.symm <;> rfl
  | among field | equal set field | contains set field | order set field =>
    cases hresult
    rw [referenceCount, if_neg field]
    rfl

namespace Filter

variable {schema : Schema} {config : Config} {stem : String} {filter : Filter}
  {condition : Condition}

theorem fits_leaves (h : filter.condition? schema config stem = .ok (some condition)) :
    ∀ leaf ∈ condition.leaves, leaf.Fits schema := by
  intro leaf member
  obtain ⟨path, predicate, -, hcompiled⟩ := hasLeaf_of_mem_leaves h leaf member
  exact Predicate.fits_of_compiled hcompiled

/-- What is referred to in what a filter compiles to, and how. -/
theorem eachRefers_condition (h : filter.condition? schema config stem = .ok (some condition)) :
    EachRefers schema (.ofSlots condition.slots) (condition.template Slot.name) := by
  refine Condition.eachRefers_template fun leaf member => ?_
  refine Condition.eachRefers_leaf (fits_leaves h leaf member) fun slot hslot => ?_
  refine get?_slots_condition h ?_
  rw [Condition.slots_eq_flatMap_leaves]
  exact List.mem_flatMap.mpr ⟨leaf, member, hslot⟩

/-- How often a slot is referred to in what a filter compiles to. -/
theorem count_slot_condition (h : filter.condition? schema config stem = .ok (some condition))
    {slot : Slot} (member : slot ∈ condition.slots) :
    ∃ path predicate number, filter.at? path = some (.test predicate) ∧
      slot.name = addressName stem path number ∧
      (condition.template Slot.name).count (.slot slot.name) =
        predicate.referenceCount schema := by
  have hmember := member
  rw [Condition.slots_eq_flatMap_leaves, List.mem_flatMap] at hmember
  obtain ⟨leaf, hleaf, hslot⟩ := hmember
  obtain ⟨path, predicate, hat, hcompiled⟩ := hasLeaf_of_mem_leaves h leaf hleaf
  have hslots := Predicate.slots_of_compiled hcompiled
  rw [Option.toList_some, List.flatMap_singleton] at hslots
  rw [hslots] at hslot
  obtain ⟨number, -, hname⟩ := Predicate.mem_slots_iff.mp hslot
  refine ⟨path, predicate, number, hat, ?_, ?_⟩
  · rw [hname, slotName_foldl_childStem]
  · rw [← hslots] at hslot
    rw [Condition.count_template_of_mem (fits_leaves h) (nodup_slots_condition h) hleaf hslot,
      Predicate.repetitions_of_compiled hcompiled]

end Filter

/-- **References and parameters fit.** Let no column contain a quote, a colon, a hyphen or a
slash, let the configuration be valid, and let a filter compile. Then:
* the names that the text refers to are the names of the parameters;
* each reference has a value, and the value is a list exactly when the reference stands in
  the parentheses behind a column and `IN`; every other reference becomes one placeholder
  with one value, whatever stands around it;
* each name is that of an operand, and it is referred to once, or once for every keyword
  column when it is searched for in all of them. -/
theorem compile_refers_to_parameters {schema : Schema} {config : Config} {filter : Filter}
    {restriction : Restriction} (columns : schema.EveryColumn IsInertText)
    (valid : config.check = .ok ()) (h : filter.compile schema config = .ok restriction) :
    (∀ name, .slot name ∈ Template.pieces restriction.sql ↔
      name ∈ restriction.parameters.names) ∧
    (∀ before name after, Template.pieces restriction.sql = before ++ .slot name :: after →
      ∃ value, restriction.parameters.get? name = some value ∧
        (value.isArray = true ↔ IsListReference schema before after) ∧
        (¬ IsListReference schema before after →
          ∃ first rest, Fills restriction.parameters before first ∧
            Fills restriction.parameters after rest ∧
            ∀ dialect, Statement.bind dialect restriction.sql restriction.parameters =
              .ok ⟨(ofFilled dialect 0 first).sql ++
                  dialect.mark ((valuesOf first).length + 1) ++
                  (ofFilled dialect ((valuesOf first).length + 1) rest).sql,
                valuesOf first ++ .ofJson value :: valuesOf rest⟩)) ∧
    ∀ name ∈ restriction.parameters.names, ∃ path predicate number,
      filter.at? path = some (.test predicate) ∧ name = addressName config.stem path number ∧
        (Template.pieces restriction.sql).count (.slot name) =
          predicate.referenceCount schema := by
  obtain ⟨result, hcondition, rfl⟩ := Filter.compileAt_eq_ok_iff.mp h
  cases result with
  | none =>
    have hpieces : Template.pieces (Restriction.of none).sql = [] := rfl
    have hnames : (Restriction.of none).parameters.names = [] := rfl
    rw [hpieces, hnames]
    refine ⟨fun name => by simp, fun before name after hsplit => ?_, by simp⟩
    simp at hsplit
  | some condition =>
    have hpieces : Template.pieces (Restriction.of (some condition)).sql =
        condition.template Slot.name :=
      (Condition.spells_text (Filter.columns_condition? columns hcondition)
        (Filter.isIdentifier_slots_condition (Config.check_eq_ok_iff.mp valid)
          hcondition)).pieces_eq
    have hnames : ∀ name, name ∈ (Restriction.of (some condition)).parameters.names ↔
        name ∈ condition.slots.map Slot.name := by
      intro name
      rw [Parameters.mem_names_iff, Restriction.of, Parameters.ofSlots,
        Parameters.contains_ofList, map_fst_slots]
    have hrefers := Filter.eachRefers_condition hcondition
    rw [← hpieces] at hrefers
    refine ⟨fun name => ?_, fun before name after hsplit => ?_, fun name member => ?_⟩
    · rw [hnames, hpieces, Condition.mem_template_iff (Filter.fits_leaves hcondition)]
    · obtain ⟨value, hvalue, hlist⟩ := (hrefers before name after hsplit).exists_value
      refine ⟨value, hvalue, hlist, fun outside => ?_⟩
      exact Statement.exists_fills_around hsplit (fun other => hrefers.exists_value) hvalue
        (Bool.eq_false_iff.mpr (mt hlist.mp outside))
    · rw [hnames, List.mem_map] at member
      obtain ⟨slot, hslot, rfl⟩ := member
      rw [hpieces]
      exact Filter.count_slot_condition hcondition hslot

/-- A pattern that is searched for in two columns, a list and a bound. -/
theorem references_of_search :
    ∃ restriction, Example.search.compile Example.orders {} = .ok restriction ∧
      (Template.pieces restriction.sql).count (.slot "p_0__0") = 2 ∧
      .slot "p_1_1__1" ∈ Template.pieces restriction.sql ∧
      ∀ before after, Template.pieces restriction.sql = before ++ .slot "p_1_0__0" :: after →
        IsListReference Example.orders before after := by
  obtain ⟨hnames, hsplit, hcount⟩ := compile_refers_to_parameters Example.everyColumn_orders rfl
    (show Example.search.compile Example.orders {} = .ok _ from rfl)
  refine ⟨_, rfl, ?_, (hnames _).mpr (Parameters.mem_names_iff.mpr rfl),
    fun before after hpieces => ?_⟩
  · obtain ⟨path, predicate, number, hat, hname, hcount⟩ :=
      hcount "p_0__0" (Parameters.mem_names_iff.mpr rfl)
    have hname : addressName "p" [0] 0 = addressName "p" path number := hname
    obtain ⟨rfl, rfl⟩ := addressName_injective hname
    cases hat
    exact hcount
  · obtain ⟨value, hvalue, hlist, -⟩ := hsplit before _ after hpieces
    cases hvalue
    exact hlist.mp rfl

end FilterSql
