import Mathlib.Data.List.Forall2
import Mathlib.Data.Option.Basic
import FilterSql.Proofs.Condition.Slots

/-!
# Compiling two filters side by side

Two filters that differ in values only compile to two conditions that differ in values
only, or fail with the same error. What the compiler looks at in a value is its kind.

Results:
* `Filter.agree_condition?`: what holds of two runs on related predicates holds of two
  runs on filters that are built alike from related predicates.
* `Predicate.agree_of_alike`: predicates with values of the same kinds agree.
* `Condition.Related.text_eq`, `Condition.Related.forall₂_slots`: conditions that differ
  in values have the same text, and the same names of slots.
-/

namespace FilterSql

/-! ## Specification -/

/-- The kinds of values. -/
inductive Json.Kind where
  | null
  | single
  | object
  | array
deriving DecidableEq, Repr

/-- The kind of a value. -/
def Json.kind : Json → Kind
  | .null => .null
  | .bool _ | .number _ | .string _ => .single
  | .object _ => .object
  | .array _ => .array

/-- For each entry of an array, whether it is `null`, and whether it is an array or an
object. -/
def Json.entryKinds : Json → List (Bool × Bool)
  | .array items => items.map fun item => (item.isNull, item.isNested)
  | _ => []

/-- Predicates that differ in their values only, which are of the same kind. -/
structure Predicate.Alike (first second : Predicate) : Prop where
  field : first.field = second.field
  operator : first.operator = second.operator
  kind : first.value.kind = second.value.kind
  entries : first.operator = some .between → first.value.entryKinds = second.value.entryKinds

/-- The number of entries of an array. -/
def Json.arrayLength? : Json → Option ℕ
  | .array items => some items.length
  | _ => none

/-- Alike predicates whose arrays are of the same length. -/
structure Predicate.AlikeInLength (first second : Predicate) : Prop extends Alike first second where
  length : first.value.arrayLength? = second.value.arrayLength?

/-- Predicates that differ in their fields only, which are mapped to the same column. -/
structure Predicate.Remapped (schema : Schema) (first second : Predicate) : Prop where
  operator : first.operator = second.operator
  value : first.value = second.value
  field : first.field = second.field ∨
    first.field ≠ keywordField ∧ second.field ≠ keywordField ∧
      ∃ column, schema.column? first.field = some column ∧
        schema.column? second.field = some column

/-- Filters with the same groups and logic words, and with related predicates. -/
inductive Filter.Related (R : Predicate → Predicate → Prop) : Filter → Filter → Prop where
  | test {first second : Predicate} (h : R first second) : Related R (.test first) (.test second)
  | group {logic : Logic} {children others : List Filter}
      (h : List.Forall₂ (Related R) children others) :
      Related R (.group logic children) (.group logic others)

/-- Two outcomes agree if both are results or both are errors, and related. -/
inductive Agree {ε α β : Type} (E : ε → ε → Prop) (C : α → β → Prop) :
    Except ε α → Except ε β → Prop where
  | ok {a : α} {b : β} (h : C a b) : Agree E C (.ok a) (.ok b)
  | error {e e' : ε} (h : E e e') : Agree E C (.error e) (.error e')

/-- Conditions that differ in the values of their slots only, which are related. -/
inductive Condition.Related (V : Json → Json → Prop) : Condition → Condition → Prop where
  | compare {column : String} {relation : Relation} {name : String} {value other : Json}
      (h : V value other) :
      Related V (.compare column relation ⟨name, value⟩) (.compare column relation ⟨name, other⟩)
  | among {column name : String} {value other : Json} (h : V value other) :
      Related V (.among column ⟨name, value⟩) (.among column ⟨name, other⟩)
  | range {column name name' : String} {low low' high high' : Json} (h : V low low')
      (h' : V high high') :
      Related V (.range column ⟨name, low⟩ ⟨name', high⟩)
        (.range column ⟨name, low'⟩ ⟨name', high'⟩)
  | like {columns : List String} {escaped : Bool} {name : String} {value other : Json}
      (h : V value other) :
      Related V (.like columns escaped ⟨name, value⟩) (.like columns escaped ⟨name, other⟩)
  | group {connective : Connective} {children others : List Condition}
      (h : List.Forall₂ (Related V) children others) :
      Related V (.group connective children) (.group connective others)

/-! ## Outcomes that agree -/

namespace Agree

variable {ε α β γ δ : Type} {E : ε → ε → Prop} {C : α → β → Prop} {D : γ → δ → Prop}
variable {x : Except ε α} {y : Except ε β}

theorem bind (h : Agree E C x y) {f : α → Except ε γ} {g : β → Except ε δ}
    (hnext : ∀ a b, C a b → Agree E D (f a) (g b)) : Agree E D (x >>= f) (y >>= g) := by
  cases h with
  | ok h => exact hnext _ _ h
  | error h => exact .error h

theorem map (h : Agree E C x y) {f : α → γ} {g : β → δ} (hnext : ∀ a b, C a b → D (f a) (g b)) :
    Agree E D (x.map f) (y.map g) := by
  cases h with
  | ok h => exact .ok (hnext _ _ h)
  | error h => exact .error h

theorem exists_of_ok (h : Agree E C x y) {a : α} (ha : x = .ok a) : ∃ b, y = .ok b ∧ C a b := by
  cases h with
  | ok h =>
    cases ha
    exact ⟨_, rfl, h⟩
  | error h => cases ha

theorem imp_of_ok (h : Agree E C x y) {D : α → β → Prop}
    (hCD : ∀ a b, x = .ok a → y = .ok b → C a b → D a b) : Agree E D x y := by
  cases h with
  | ok h => exact .ok (hCD _ _ rfl rfl h)
  | error h => exact .error h

theorem mono (h : Agree E C x y) {D : α → β → Prop} (hCD : ∀ a b, C a b → D a b) :
    Agree E D x y :=
  h.imp_of_ok fun a b _ _ => hCD a b

theorem refl {C : α → α → Prop} (hE : ∀ e, E e e) (hC : ∀ a, C a a) (x : Except ε α) :
    Agree E C x x := by
  cases x with
  | ok a => exact .ok (hC a)
  | error e => exact .error (hE e)

end Agree

/-! ## Conditions that differ in values -/

theorem forall₂_imp_of_mem {α β : Type} {R S : α → β → Prop} {list : List α} {others : List β}
    (h : List.Forall₂ R list others) (hRS : ∀ a ∈ list, ∀ b, R a b → S a b) :
    List.Forall₂ S list others := by
  have hboth := (List.forall₂_and_left list others).mpr ⟨hRS, h⟩
  exact hboth.imp fun a b hab => hab.1 b hab.2

theorem isEmpty_eq_of_forall₂ {α β : Type} {R : α → β → Prop} {list : List α} {others : List β}
    (h : List.Forall₂ R list others) : list.isEmpty = others.isEmpty := by
  cases h <;> rfl

/-- Slots of the same name with related values. -/
def Slot.Related (V : Json → Json → Prop) (slot other : Slot) : Prop :=
  slot.name = other.name ∧ V slot.value other.value

namespace Condition.Related

variable {V : Json → Json → Prop} {first second : Condition}

theorem refl (hV : ∀ value, V value value) (condition : Condition) :
    condition.Related V condition := by
  induction condition using Condition.induct with
  | compare column relation operand => exact .compare (hV _)
  | among column list => exact .among (hV _)
  | range column low high => exact .range (hV _) (hV _)
  | like columns escaped pattern => exact .like (hV _)
  | group connective children ih => exact .group (List.forall₂_same.mpr ih)

/-- Values are not in the text. -/
theorem text_eq (h : first.Related V second) : first.text = second.text := by
  have hchildren : ∀ {children others : List Condition} (connective : Connective),
      List.Forall₂ (fun child other => child.text = other.text) children others →
      childrenText connective children = childrenText connective others := by
    intro children others connective hrelated
    induction hrelated with
    | nil => rfl
    | cons hchild _ ih => rw [childrenText, childrenText, hchild, ih]
  induction first using Condition.induct generalizing second with
  | compare column relation operand => cases h; rfl
  | among column list => cases h; rfl
  | range column low high => cases h; rfl
  | like columns escaped pattern => cases h; rfl
  | group connective children ih =>
    obtain ⟨⟩ | ⟨⟩ | ⟨⟩ | ⟨⟩ | ⟨hrelated⟩ := h
    have htext := forall₂_imp_of_mem hrelated fun child member other h => ih child member h
    rw [text, text, hchildren connective htext]

/-- Slot by slot, the names are the same and the values are related. -/
theorem forall₂_slots (h : first.Related V second) :
    List.Forall₂ (Slot.Related V) first.slots second.slots := by
  have hchildren : ∀ {children others : List Condition},
      List.Forall₂ (fun child other =>
        List.Forall₂ (Slot.Related V) child.slots other.slots) children others →
      List.Forall₂ (Slot.Related V) (childSlots children) (childSlots others) := by
    intro children others hrelated
    induction hrelated with
    | nil => exact .nil
    | cons hchild _ ih => exact List.rel_append hchild ih
  induction first using Condition.induct generalizing second with
  | compare column relation operand =>
    obtain ⟨hvalue⟩ := h
    exact .cons ⟨rfl, hvalue⟩ .nil
  | among column list =>
    obtain ⟨⟩ | ⟨hvalue⟩ := h
    exact .cons ⟨rfl, hvalue⟩ .nil
  | range column low high =>
    obtain ⟨⟩ | ⟨⟩ | ⟨hlow, hhigh⟩ := h
    exact .cons ⟨rfl, hlow⟩ (.cons ⟨rfl, hhigh⟩ .nil)
  | like columns escaped pattern =>
    obtain ⟨⟩ | ⟨⟩ | ⟨⟩ | ⟨hvalue⟩ := h
    exact .cons ⟨rfl, hvalue⟩ .nil
  | group connective children ih =>
    obtain ⟨⟩ | ⟨⟩ | ⟨⟩ | ⟨⟩ | ⟨hrelated⟩ := h
    exact hchildren (forall₂_imp_of_mem hrelated fun child member other h => ih child member h)

end Condition.Related

/-! ## Filters -/

namespace Filter

variable {R : Predicate → Predicate → Prop} {E : OperationError → OperationError → Prop}
variable {V : Json → Json → Prop} {schema : Schema} {config : Config}

theorem agree_childConditions {children others : List Filter}
    (h : List.Forall₂ (fun child other : Filter => ∀ stem,
      Agree E (Option.Rel (Condition.Related V)) (child.condition? schema config stem)
        (other.condition? schema config stem)) children others) (stem : String) (index : ℕ) :
    Agree E (List.Forall₂ (Condition.Related V))
      (childConditions schema config stem index children)
      (childConditions schema config stem index others) := by
  induction h generalizing index with
  | nil => exact .ok .nil
  | cons hchild _ ih =>
    rw [childConditions, childConditions]
    refine (hchild (childStem stem index)).bind fun first second hfirst => ?_
    refine (ih (index + 1)).bind fun rest rest' hrest => .ok ?_
    cases hfirst with
    | some h => exact .cons h hrest
    | none => exact hrest

theorem Related.single {logic : Logic} {only : Filter} {other : Filter}
    (h : Related R (.group logic [only]) other) :
    ∃ second, other = .group logic [second] ∧ Related R only second := by
  cases h with
  | group h =>
    obtain ⟨second, others, hsecond, hnil, rfl⟩ := List.forall₂_cons_left_iff.mp h
    cases hnil
    exact ⟨second, rfl, hsecond⟩

/-- What holds of two runs on related predicates holds of two runs on filters that are
built alike. -/
theorem agree_condition? (hlogic : ∀ e, E e e)
    (hpredicate : ∀ first second, R first second → ∀ stem,
      Agree E (Option.Rel (Condition.Related V)) (first.condition? schema config stem)
        (second.condition? schema config stem))
    {first second : Filter} (h : first.Related R second) (stem : String) :
    Agree E (Option.Rel (Condition.Related V)) (first.condition? schema config stem)
      (second.condition? schema config stem) := by
  induction first using Filter.induct generalizing second stem with
  | test predicate =>
    obtain ⟨h⟩ := h
    exact hpredicate _ _ h stem
  | single logic only ih =>
    obtain ⟨other, rfl, hother⟩ := h.single
    rw [condition?, condition?]
    exact ih hother _
  | group logic children many ih =>
    obtain ⟨⟩ | ⟨h⟩ := h
    rename_i others
    have many' : ∀ only, others ≠ [only] := by
      rintro only rfl
      obtain ⟨child, rest, _, hnil, rfl⟩ := List.forall₂_cons_right_iff.mp h
      cases hnil
      exact many child rfl
    have hchildren := agree_childConditions
      (forall₂_imp_of_mem h fun child member other h stem => ih child member h stem) stem 0
    rw [condition?_group many, condition?_group many']
    refine (Agree.refl hlogic (fun _ => rfl) logic.connective).bind ?_
    rintro connective _ rfl
    refine hchildren.bind fun conditions conditions' hconditions => ?_
    rw [isEmpty_eq_of_forall₂ hconditions, isEmpty_eq_of_forall₂ h]
    split_ifs
    · exact .ok .none
    · exact .ok (.some (.group hconditions))

end Filter

/-! ## Predicates -/

namespace Json

variable {value other : Json}

theorem isNull_eq_of_kind (h : value.kind = other.kind) : value.isNull = other.isNull := by
  cases value <;> cases other <;> first | rfl | cases h

theorem isArray_eq_of_kind (h : value.kind = other.kind) : value.isArray = other.isArray := by
  cases value <;> cases other <;> first | rfl | cases h

theorem isNested_eq_of_kind (h : value.kind = other.kind) : value.isNested = other.isNested := by
  cases value <;> cases other <;> first | rfl | cases h

/-- Two values that are not arrays. -/
def BothFlat (value other : Json) : Prop :=
  value.isArray = false ∧ other.isArray = false

end Json

namespace Predicate

variable {V : Json → Json → Prop} {schema : Schema} {config : Config}

theorem bound?_of_entryKinds {items others : List Json}
    (h : (Json.array items).entryKinds = (Json.array others).entryKinds) (index : ℕ) :
    Option.Rel (fun bound other : Json => bound.isNested = other.isNested)
      (bound? items index) (bound? others index) := by
  have hentry := congrArg (fun kinds => kinds[index]?) h
  simp only [Json.entryKinds, List.getElem?_map] at hentry
  cases hitem : items[index]? with
  | none =>
    cases hother : others[index]? with
    | none => rw [bound?, bound?, hitem, hother]; exact .none
    | some other => simp [hitem, hother] at hentry
  | some item =>
    cases hother : others[index]? with
    | none => simp [hitem, hother] at hentry
    | some other =>
      simp only [hitem, hother, Option.map_some, Option.some.injEq, Prod.mk.injEq] at hentry
      obtain ⟨hnull, hnested⟩ := hentry
      rw [bound?, bound?, hitem, hother, Option.filter, Option.filter, hnull]
      split_ifs
      · exact .some hnested
      · exact .none

theorem bothFlat_of_bounds {bound other : Option Json}
    (h : Option.Rel (fun bound other : Json => bound.isNested = other.isNested) bound other)
    (single : ∀ value ∈ bound, value.isNested = false) : Option.Rel Json.BothFlat bound other := by
  cases h with
  | none => exact .none
  | some h =>
    have hvalue := single _ rfl
    rw [h] at hvalue
    exact .some ⟨Json.isArray_of_not_isNested (single _ rfl), Json.isArray_of_not_isNested hvalue⟩

/-- Ranges with entries of the same kinds have the same bounds set, or the same error. -/
theorem agree_bounds {value other : Json} (field : String) (hkind : value.kind = other.kind)
    (hentries : value.entryKinds = other.entryKinds) :
    Agree Eq (fun pair pair' => Option.Rel Json.BothFlat pair.1 pair'.1 ∧
        Option.Rel Json.BothFlat pair.2 pair'.2)
      (bounds field value) (bounds field other) := by
  cases value with
  | array items =>
    cases other with
    | array others =>
      have hlength : items.length = others.length := by
        simpa [Json.entryKinds] using congrArg List.length hentries
      have hlow := bound?_of_entryKinds hentries 0
      have hhigh := bound?_of_entryKinds hentries 1
      rw [bounds, bounds, hlength]
      dsimp only
      generalize bound? items 0 = low at *
      generalize bound? items 1 = high at *
      generalize bound? others 0 = low' at *
      generalize bound? others 1 = high' at *
      have hany : (low.toList ++ high.toList).any Json.isNested =
          (low'.toList ++ high'.toList).any Json.isNested := by
        cases hlow <;> cases hhigh <;> simp_all
      rw [← hany]
      split_ifs with short nested
      · exact .error rfl
      · obtain ⟨hlowFlat, hhighFlat⟩ : (∀ value, low = some value → value.isNested = false) ∧
            ∀ value, high = some value → value.isNested = false := by
          simpa using nested
        exact .ok ⟨bothFlat_of_bounds hlow hlowFlat, bothFlat_of_bounds hhigh hhighFlat⟩
      · exact .error rfl
    | _ => cases hkind
  | _ =>
    cases other with
    | array others => cases hkind
    | _ => exact .error rfl

theorem rel_rangeCondition? (hflat : ∀ value other, Json.BothFlat value other → V value other)
    (column stem : String) {bounds others : Option Json × Option Json}
    (hlow : Option.Rel Json.BothFlat bounds.1 others.1)
    (hhigh : Option.Rel Json.BothFlat bounds.2 others.2) :
    Option.Rel (Condition.Related V) (rangeCondition? column stem bounds)
      (rangeCondition? column stem others) := by
  obtain ⟨low, high⟩ := bounds
  obtain ⟨low', high'⟩ := others
  cases hlow with
  | none =>
    cases hhigh with
    | none => exact .none
    | some hhigh => exact .some (.compare (hflat _ _ hhigh))
  | some hlow =>
    cases hhigh with
    | none => exact .some (.compare (hflat _ _ hlow))
    | some hhigh => exact .some (.range (hflat _ _ hlow) (hflat _ _ hhigh))

theorem agree_operatorCondition? (hflat : ∀ value other, Json.BothFlat value other → V value other)
    (stem field column : String) (operator : Operator) {value other : Json}
    (hkind : value.kind = other.kind)
    (hentries : operator = .between → value.entryKinds = other.entryKinds)
    (harray : value.isArray = true → V value other) :
    Agree Eq (Option.Rel (Condition.Related V))
      (operatorCondition? config stem field column operator value)
      (operatorCondition? config stem field column operator other) := by
  have hsame := Json.isArray_eq_of_kind hkind
  cases operator with
  | equals =>
    rw [operatorCondition?, operatorCondition?, ← hsame]
    cases h : value.isArray with
    | true => exact .ok (.some (.among (harray h)))
    | false => exact .ok (.some (.compare (hflat _ _ ⟨h, hsame ▸ h⟩)))
  | contains =>
    rw [operatorCondition?, operatorCondition?, ← hsame]
    cases h : value.isArray with
    | true => exact .ok (.some (.among (harray h)))
    | false => exact .ok (.some (.like (hflat _ _ ⟨rfl, rfl⟩)))
  | between =>
    exact (agree_bounds field hkind (hentries rfl)).map fun bounds others h =>
      rel_rangeCondition? hflat column stem h.1 h.2
  | order relation =>
    rw [operatorCondition?, operatorCondition?, ← Json.isNested_eq_of_kind hkind]
    cases h : value.isNested with
    | true => exact .error rfl
    | false =>
      have hvalue := Json.isArray_of_not_isNested h
      exact .ok (.some (.compare (hflat _ _ ⟨hvalue, hsame ▸ hvalue⟩)))
  | unknown name => exact .error rfl

/-- Predicates with values of the same kinds compile to conditions that differ in values
only, or fail with the same error. -/
theorem agree_of_alike (hflat : ∀ value other, Json.BothFlat value other → V value other)
    {first second : Predicate} (h : first.Alike second)
    (harray : first.value.isArray = true → V first.value second.value) (stem : String) :
    Agree Eq (Option.Rel (Condition.Related V)) (first.condition? schema config stem)
      (second.condition? schema config stem) := by
  obtain ⟨hfield, hoperator, hkind, hentries⟩ := h
  rw [condition?, condition?, ← hfield, ← hoperator, ← Json.isNull_eq_of_kind hkind]
  split_ifs with null field
  · exact .ok .none
  · rw [keywordCondition, keywordCondition]
    split_ifs
    · exact .error rfl
    · exact .ok (.some (.like (hflat _ _ ⟨rfl, rfl⟩)))
  · refine (Agree.refl (fun _ => rfl) (fun _ => rfl) (schema.resolve first.field)).bind ?_
    rintro column _ rfl
    cases hop : first.operator with
    | none => exact .error rfl
    | some operator =>
      exact agree_operatorCondition? hflat stem first.field column operator hkind
        (fun h => hentries (by rw [hop, h])) harray

theorem agree_field (stem column : String) (operator : Operator) (value : Json)
    (field field' : String) :
    Agree (fun _ _ => True) Eq (operatorCondition? config stem field column operator value)
      (operatorCondition? config stem field' column operator value) := by
  have hrefl : ∀ outcome : Except OperationError (Option Condition),
      Agree (fun _ _ => True) Eq outcome outcome :=
    Agree.refl (fun _ => trivial) fun _ => rfl
  cases operator with
  | equals => exact hrefl _
  | contains => exact hrefl _
  | between =>
    have hbounds : Agree (fun _ _ => True) Eq (bounds field value) (bounds field' value) := by
      unfold bounds
      split
      · dsimp only
        split_ifs
        · exact .error trivial
        · exact .ok rfl
        · exact .error trivial
      · exact .error trivial
    exact hbounds.map fun bounds _ h => by rw [h]
  | order relation =>
    rw [operatorCondition?, operatorCondition?]
    split_ifs
    · exact .error trivial
    · exact .ok rfl
  | unknown name => exact hrefl _

/-- A field stands in a condition by its column only. -/
theorem agree_of_remapped {first second : Predicate} (h : first.Remapped schema second)
    (stem : String) :
    Agree (fun _ _ => True) Eq (first.condition? schema config stem)
      (second.condition? schema config stem) := by
  obtain ⟨name, operator, value⟩ := first
  obtain ⟨name', operator', value'⟩ := second
  obtain ⟨rfl, rfl, rfl | ⟨hfirst, hsecond, column, hmapped, hmapped'⟩⟩ := h
  · exact Agree.refl (fun _ => trivial) (fun _ => rfl) _
  · rw [condition?, condition?, if_neg hfirst, if_neg hsecond,
      Schema.resolve_eq_ok_iff.mpr hmapped, Schema.resolve_eq_ok_iff.mpr hmapped']
    split_ifs with null
    · exact .ok rfl
    · cases operator with
      | none => exact .error trivial
      | some operator => exact agree_field stem column operator value name name'

end Predicate

end FilterSql
