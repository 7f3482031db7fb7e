import FilterSql.Proofs.Parameters
import FilterSql.Proofs.Condition.Naming

/-!
# Parameters of compiled filters

A condition binds its slots one after the other, and the parameters of children
are merged by their parent.

Results:
* `Condition.parameters_eq`: when the names of all slots are different, no merge
  fails and every slot is bound.
* `Filter.slots_condition?`: what a filter compiles to has the slots of the filter.
* `Filter.compileAt_eq_ok_iff`: merging the parameters of children never fails.
* `compileAt_binds_each_operand`: what is bound, name by name and in number.
-/

namespace FilterSql

/-! ## Slots of a condition -/

namespace Condition

mutual

/-- The slots of a condition, in the order in which its parameters are bound. -/
def slots : Condition → List Slot
  | .compare _ _ operand => [operand]
  | .among _ list => [list]
  | .range _ low high => [low, high]
  | .like _ _ pattern => [pattern]
  | .group _ children => childSlots children

/-- The slots of children, one child after the other. -/
def childSlots : List Condition → List Slot
  | [] => []
  | child :: rest => child.slots ++ childSlots rest

end

theorem childSlots_eq_flatMap (children : List Condition) :
    childSlots children = children.flatMap slots := by
  induction children with
  | nil => rfl
  | cons child rest ih => rw [childSlots, ih, List.flatMap_cons]

theorem childSlots_append (first second : List Condition) :
    childSlots (first ++ second) = childSlots first ++ childSlots second := by
  simp only [childSlots_eq_flatMap, List.flatMap_append]

end Condition

/-- The parameters that bind some slots. -/
def Parameters.ofSlots (slots : List Slot) : Parameters :=
  .ofList (slots.map fun slot => (slot.name, slot.value))

theorem map_fst_slots (slots : List Slot) :
    (slots.map fun slot => (slot.name, slot.value)).map Prod.fst = slots.map Slot.name := by
  rw [List.map_map]
  rfl

theorem Parameters.merge_ofSlots {first second : List Slot}
    (unique : ((first ++ second).map Slot.name).Nodup) :
    (Parameters.ofSlots first).merge (.ofSlots second) = .ok (.ofSlots (first ++ second)) := by
  rw [ofSlots, ofSlots, ofSlots, List.map_append]
  apply merge_ofList
  rwa [← List.map_append, map_fst_slots]

theorem Parameters.get?_ofSlots_eq_some_iff {slots : List Slot}
    (unique : (slots.map Slot.name).Nodup) {name : String} {value : Json} :
    (Parameters.ofSlots slots).get? name = some value ↔ ⟨name, value⟩ ∈ slots := by
  rw [ofSlots, get?_ofList_eq_some_iff (by rwa [map_fst_slots]), List.mem_map]
  constructor
  · rintro ⟨slot, member, h⟩
    cases h
    exact member
  · exact fun member => ⟨_, member, rfl⟩

namespace Condition

theorem childrenParameters_eq {children : List Condition}
    (ih : ∀ child ∈ children, (child.slots.map Slot.name).Nodup →
      child.parameters = .ok (.ofSlots child.slots)) :
    ∀ before, ((before ++ childSlots children).map Slot.name).Nodup →
      childrenParameters (.ofSlots before) children =
        .ok (.ofSlots (before ++ childSlots children)) := by
  induction children with
  | nil => intro before _; rw [childrenParameters, childSlots, List.append_nil]
  | cons child rest ihrest =>
    intro before unique
    rw [childSlots, ← List.append_assoc] at unique ⊢
    have hfound : ((before ++ child.slots).map Slot.name).Nodup := by
      rw [List.map_append] at unique
      exact unique.of_append_left
    have hchild : (child.slots.map Slot.name).Nodup := by
      rw [List.map_append] at hfound
      exact hfound.of_append_right
    rw [childrenParameters, ih child List.mem_cons_self hchild]
    change (Parameters.ofSlots before).merge (.ofSlots child.slots) >>=
      (fun found => childrenParameters found rest) = _
    rw [Parameters.merge_ofSlots hfound]
    exact ihrest (fun other h => ih other (List.mem_cons_of_mem _ h)) _ unique

/-- A condition whose slots have different names binds each of them: no parameter is
written twice and no merge fails. -/
theorem parameters_eq {condition : Condition} (unique : (condition.slots.map Slot.name).Nodup) :
    condition.parameters = .ok (.ofSlots condition.slots) := by
  induction condition using Condition.induct with
  | group connective children ih =>
    have := childrenParameters_eq ih [] (by simpa [slots] using unique)
    rw [parameters, slots]
    exact this
  | _ => rfl

end Condition

/-! ## Slots of what a filter compiles to -/

namespace Predicate

theorem setItems_eq_bounds {items : List Json} (short : items.length ≤ 2) :
    (Json.array items).setItems = (bound? items 0).toList ++ (bound? items 1).toList := by
  match items, short with
  | [], _ => rfl
  | [low], _ =>
    cases h : low.isNull <;> simp [Json.setItems, bound?, Option.filter, h]
  | [low, high], _ =>
    cases h : low.isNull <;> cases h' : high.isNull <;>
      simp [Json.setItems, bound?, Option.filter, h, h']

theorem slots_rangeCondition? (column stem : String) (bounds : Option Json × Option Json) :
    (rangeCondition? column stem bounds).toList.flatMap Condition.slots =
      (bounds.1.toList ++ bounds.2.toList).zipIdx.map fun entry =>
        ⟨slotName stem entry.2, entry.1⟩ := by
  obtain ⟨low | low, high | high⟩ := bounds <;> simp [rangeCondition?, Condition.slots]

theorem slots_of_compiled {schema : Schema} {config : Config} {stem : String}
    {predicate : Predicate} {result : Option Condition}
    (h : Compiled schema config stem predicate result) :
    result.toList.flatMap Condition.slots = predicate.slots config.escapeWildcards stem := by
  cases h with
  | unset null => simp [slots, operands, null]
  | keyword set field columns =>
    simp [slots, operands, set, field, Condition.slots, Pattern.containing_eq]
  | among field mapped operator value =>
    rcases operator with operator | operator <;>
      simp [slots, operands, field, operator, value, Json.isNull, Json.isArray, Condition.slots]
  | equal set field mapped operator value =>
    simp [slots, operands, set, field, operator, Condition.slots]
  | contains set field mapped operator value =>
    simp [slots, operands, set, field, operator, value, Condition.slots, Pattern.containing_eq]
  | between field mapped operator value short single =>
    have hoperands : predicate.operands config.escapeWildcards = predicate.value.setItems := by
      simp [operands, field, operator, value, Json.isNull]
    rw [slots_rangeCondition?, slots, hoperands, value, setItems_eq_bounds short]
  | order set field mapped operator value =>
    simp [slots, operands, set, field, operator, Condition.slots]

end Predicate

namespace Filter

variable {schema : Schema} {config : Config} {stem : String}

theorem slots_childConditions {children : List Filter}
    (ih : ∀ child ∈ children, ∀ {stem : String} {result : Option Condition},
      child.condition? schema config stem = .ok result →
        result.toList.flatMap Condition.slots = child.slots config.escapeWildcards stem)
    {index : Nat} {conditions : List Condition}
    (h : childConditions schema config stem index children = .ok conditions) :
    Condition.childSlots conditions = childSlots config.escapeWildcards stem index children := by
  refine childConditions_induct (P := fun index children conditions =>
    Condition.childSlots conditions = childSlots config.escapeWildcards stem index children)
    (fun _ => rfl) ?_ h
  intro index child rest first others member hfirst hothers
  rw [Condition.childSlots_append, childSlots, ← ih child member hfirst, hothers]
  cases first <;> simp [Condition.childSlots]

/-- Compiling keeps the slots of a filter: none is lost where children drop out or a
group is passed through. -/
theorem slots_condition? {filter : Filter} {result : Option Condition}
    (h : filter.condition? schema config stem = .ok result) :
    result.toList.flatMap Condition.slots = filter.slots config.escapeWildcards stem := by
  induction filter using Filter.induct generalizing stem result with
  | test predicate => exact Predicate.slots_of_compiled (Predicate.compiled_of_condition? h)
  | single logic only ih =>
    rw [condition?] at h
    rw [ih h, slots, childSlots, childSlots, List.append_nil]
  | group logic children many ih =>
    obtain ⟨connective, conditions, _, hconditions, rfl⟩ :=
      (condition?_group_eq_ok_iff many).mp h
    have hslots := slots_childConditions @ih hconditions
    rw [slots, ← hslots]
    split_ifs with hempty
    · rw [hempty.1]
      rfl
    · simp [Condition.slots]

end Filter

/-! ## Compiling never meets a name twice -/

theorem Predicate.condition?_ne_nameBoundTwice (schema : Schema) (config : Config)
    (stem : String) (predicate : Predicate) (name : String) :
    predicate.condition? schema config stem ≠ .error (.nameBoundTwice name) := by
  have hresolve : schema.resolve predicate.field ≠ .error (.nameBoundTwice name) := by
    rw [Schema.resolve]
    cases schema.column? predicate.field <;> simp
  have hbounds : bounds predicate.field predicate.value ≠ .error (.nameBoundTwice name) := by
    unfold bounds
    split
    · dsimp only
      split_ifs <;> simp
    · simp
  intro h
  unfold condition? at h
  split_ifs at h with null field
  · unfold keywordCondition at h
    split_ifs at h <;> cases h
  · rcases bind_eq_error_iff.mp h with h | ⟨column, _, h⟩
    · exact hresolve h
    · cases hop : predicate.operator with
      | none => simp [hop] at h
      | some operator =>
        cases operator <;> simp only [hop, operatorCondition?] at h
        case between =>
          rw [map_eq_pure_bind] at h
          rcases bind_eq_error_iff.mp h with h | ⟨_, _, h⟩
          · exact hbounds h
          · cases h
        all_goals first | cases h | (split_ifs at h <;> cases h)

namespace Filter

theorem childConditions_ne_nameBoundTwice {schema : Schema} {config : Config} {name : String}
    {children : List Filter}
    (ih : ∀ child ∈ children, ∀ stem,
      child.condition? schema config stem ≠ .error (.nameBoundTwice name)) :
    ∀ stem index, childConditions schema config stem index children ≠
      .error (.nameBoundTwice name) := by
  induction children with
  | nil => intro stem index h; cases h
  | cons child rest ihrest =>
    intro stem index h
    rw [childConditions] at h
    rcases bind_eq_error_iff.mp h with h | ⟨_, _, h⟩
    · exact ih child List.mem_cons_self _ h
    · rcases bind_eq_error_iff.mp h with h | ⟨_, _, h⟩
      · exact ihrest (fun other member => ih other (List.mem_cons_of_mem _ member)) _ _ h
      · cases h

theorem condition?_ne_nameBoundTwice (schema : Schema) (config : Config) (stem : String)
    (filter : Filter) (name : String) :
    filter.condition? schema config stem ≠ .error (.nameBoundTwice name) := by
  induction filter using Filter.induct generalizing stem with
  | test predicate => exact predicate.condition?_ne_nameBoundTwice schema config stem name
  | single logic only ih => rw [condition?]; exact ih _
  | group logic children many ih =>
    intro h
    rw [condition?_group many] at h
    rcases bind_eq_error_iff.mp h with h | ⟨connective, _, h⟩
    · cases logic <;> cases h
    · rcases bind_eq_error_iff.mp h with h | ⟨conditions, _, h⟩
      · exact childConditions_ne_nameBoundTwice ih _ _ h
      · split_ifs at h <;> cases h

end Filter

/-- The restriction to a condition, its parameters read off its slots. -/
def Restriction.of : Option Condition → Restriction
  | none => {}
  | some condition => ⟨condition.text, .ofSlots condition.slots⟩

namespace Filter

variable {schema : Schema} {config : Config} {stem : String} {filter : Filter}

theorem slots_condition {condition : Condition}
    (h : filter.condition? schema config stem = .ok (some condition)) :
    condition.slots = filter.slots config.escapeWildcards stem := by
  have hslots := slots_condition? h
  rwa [Option.toList_some, List.flatMap_singleton] at hslots

theorem nodup_slots_condition {condition : Condition}
    (h : filter.condition? schema config stem = .ok (some condition)) :
    (condition.slots.map Slot.name).Nodup := by
  rw [slots_condition h]
  exact nodup_slots _ _ _

theorem get?_slots_condition {condition : Condition}
    (h : filter.condition? schema config stem = .ok (some condition)) {slot : Slot}
    (member : slot ∈ condition.slots) :
    (Parameters.ofSlots condition.slots).get? slot.name = some slot.value :=
  (Parameters.get?_ofSlots_eq_some_iff (nodup_slots_condition h)).mpr member

/-- Merging the parameters of children never fails, so a filter compiles as soon as it
has a condition or is without constraint. -/
theorem compileAt_eq_map :
    filter.compileAt schema config stem =
      (filter.condition? schema config stem).map Restriction.of := by
  rw [compileAt]
  cases h : filter.condition? schema config stem with
  | error e => rfl
  | ok result =>
    cases result with
    | none => rfl
    | some condition =>
      change (Restriction.ofCondition? (some condition)) = _
      rw [Restriction.ofCondition?, Condition.parameters_eq (nodup_slots_condition h)]
      rfl

theorem compileAt_eq_ok_iff {restriction : Restriction} :
    filter.compileAt schema config stem = .ok restriction ↔
      ∃ result, filter.condition? schema config stem = .ok result ∧
        restriction = Restriction.of result := by
  rw [compileAt_eq_map]
  cases filter.condition? schema config stem with
  | error e => simp [Except.map]
  | ok result => simp [Except.map, eq_comm]

end Filter

/-! ## What is bound -/

/-- **Every operand is bound once, under the name of its address.** For every schema,
configuration, stem and filter:
* different addresses have different names, and so have the slots that a condition
  binds one after the other, so nothing is written over;
* compiling never reports that a name is bound twice;
* the parameters of a compiled filter are as many as the slots of its predicates, and
  a name has a value exactly if it spells out the address of that operand. -/
theorem compileAt_binds_each_operand (schema : Schema) (config : Config) (stem : String)
    (filter : Filter) :
    (∀ path path' number number',
      addressName stem path number = addressName stem path' number' →
        path = path' ∧ number = number') ∧
    (∀ condition, filter.condition? schema config stem = .ok (some condition) →
      (condition.slots.map Slot.name).Nodup) ∧
    (∀ name, filter.compileAt schema config stem ≠ .error (.nameBoundTwice name)) ∧
    ∀ restriction, filter.compileAt schema config stem = .ok restriction →
      restriction.parameters.size = (filter.predicates.map Predicate.slotCount).sum ∧
      ∀ name value, restriction.parameters.get? name = some value ↔
        ∃ path predicate number, filter.at? path = some (.test predicate) ∧
          (predicate.operands config.escapeWildcards)[number]? = some value ∧
          name = addressName stem path number := by
  refine ⟨fun _ _ _ _ => addressName_injective, fun _ => Filter.nodup_slots_condition, ?_, ?_⟩
  · intro name h
    rw [Filter.compileAt_eq_map] at h
    cases hcondition : filter.condition? schema config stem with
    | error e =>
      rw [hcondition] at h
      cases h
      exact Filter.condition?_ne_nameBoundTwice schema config stem filter name hcondition
    | ok result => rw [hcondition] at h; cases h
  · intro restriction h
    obtain ⟨result, hcondition, rfl⟩ := Filter.compileAt_eq_ok_iff.mp h
    have hslots := Filter.slots_condition? hcondition
    have hparameters : (Restriction.of result).parameters =
        .ofSlots (filter.slots config.escapeWildcards stem) := by
      rw [← hslots]
      cases result <;> simp [Restriction.of, Parameters.ofSlots]
      rfl
    have unique := Filter.nodup_slots config.escapeWildcards filter stem
    rw [hparameters]
    constructor
    · rw [Parameters.ofSlots, Parameters.size_ofList (by rwa [map_fst_slots]), List.length_map,
        Filter.length_slots]
    · intro name value
      rw [Parameters.get?_ofSlots_eq_some_iff unique, Filter.mem_slots_iff]

namespace Example

/-- A schema with two fields for one column, and with two keyword columns. -/
def orders : Schema :=
  .build "order" "ORDERS" [.column "status" "STATUS_CD", .column "state" "STATUS_CD",
    .column "amount" "AMOUNT", .keyword "name" "NAME", .keyword "description" "DESCRIPTION"]

/-- A filter with a keyword search, a list, a range and an open range. -/
def searchBy (field : String) : Filter :=
  .any [.keyword (.string "50%"),
    .all [.equals field (.array [.string "A", .string "B"]),
      .between "amount" (some (.number (.integer 1))) (some (.number (.integer 2))),
      .equals field .null, .between "amount" none (some (.number (.integer 9)))]]

def search : Filter :=
  searchBy "status"

end Example

theorem compileAt_binds_search :
    ∃ restriction, Example.search.compileAt Example.orders {} "p" = .ok restriction ∧
      restriction.parameters.size = 5 ∧
      restriction.parameters.get? "p_1_1__1" = some (.number (.integer 2)) := by
  obtain ⟨-, -, -, h⟩ := compileAt_binds_each_operand Example.orders {} "p" Example.search
  obtain ⟨hsize, hget⟩ := h _ rfl
  exact ⟨_, rfl, hsize, (hget _ _).mpr ⟨[1, 1], _, 1, rfl, rfl, rfl⟩⟩

end FilterSql
