import FilterSql.Proofs.Condition.Template

/-!
# Leaves of a condition

The leaves of a condition are its parts that are no groups, from left to right. A group adds
nothing but inert text to what its leaves are written as, and in a condition that a filter
has been compiled to, each leaf is what one predicate of the filter has been compiled to.

Results:
* `Condition.slots_eq_flatMap_leaves`, `Condition.count_template`: slots and placeholders of
  a condition, leaf by leaf.
* `Predicate.fits_of_compiled`: what the compiler has seen to in a leaf.
* `Filter.hasLeaf_of_mem_leaves`: each leaf comes from a predicate, and its parameters are
  named after the place of that predicate.
-/

namespace FilterSql

theorem slot_notMem_verbatim {σ : Type} (text : String) (content : σ) :
    Piece.slot content ∉ verbatim text := by
  simp [verbatim]

namespace Condition

mutual

/-- The parts of a condition that are no groups. -/
def leaves : Condition → List Condition
  | .group _ children => childLeaves children
  | leaf => [leaf]

/-- The leaves of children, one child after the other. -/
def childLeaves : List Condition → List Condition
  | [] => []
  | child :: rest => child.leaves ++ childLeaves rest

end

theorem childLeaves_eq_flatMap (children : List Condition) :
    childLeaves children = children.flatMap leaves := by
  induction children with
  | nil => rfl
  | cons child rest ih => rw [childLeaves, ih, List.flatMap_cons]

/-- The slots of a condition are those of its leaves. -/
theorem slots_eq_flatMap_leaves (condition : Condition) :
    condition.slots = condition.leaves.flatMap slots := by
  induction condition using Condition.induct with
  | group connective children ih =>
    rw [slots, leaves, childSlots_eq_flatMap, childLeaves_eq_flatMap, List.flatMap_assoc]
    exact List.flatMap_congr ih
  | _ => exact (List.append_nil _).symm

/-! ## Placeholders, leaf by leaf -/

section Template

variable {σ : Type} [DecidableEq σ] (slot : Slot → σ)

theorem count_slot_verbatim (text : String) (content : σ) :
    (verbatim text).count (.slot content) = 0 :=
  List.count_eq_zero.mpr (slot_notMem_verbatim text content)

/-- A placeholder occurs in a condition as often as in all of its leaves together. -/
theorem count_template (condition : Condition) (content : σ) :
    (condition.template slot).count (.slot content) =
      (condition.leaves.map fun leaf => (leaf.template slot).count (.slot content)).sum := by
  induction condition using Condition.induct with
  | group connective children ih =>
    rw [template, leaves, List.count_append, count_slot_verbatim, Nat.zero_add]
    induction children with
    | nil => rfl
    | cons child rest ihrest =>
      rw [childTemplates, childLeaves, List.count_append, List.count_append, List.count_append,
        count_slot_verbatim, count_slot_verbatim, ih child List.mem_cons_self,
        ihrest fun other member => ih other (List.mem_cons_of_mem _ member), List.map_append,
        List.sum_append, Nat.zero_add, Nat.zero_add]
  | _ => simp [leaves]

end Template

end Condition

/-! ## Leaves of predicates -/

/-- A leaf in which a list stands in the place of a list, and single values stand in every
other place. -/
inductive Condition.Fits (schema : Schema) : Condition → Prop where
  | compare {column : String} {relation : Relation} {operand : Slot}
      (single : operand.value.isArray = false) : Fits schema (.compare column relation operand)
  | among {field column : String} {list : Slot} (mapped : schema.column? field = some column)
      (isList : list.value.isArray = true) : Fits schema (.among column list)
  | range {column : String} {low high : Slot} (low_single : low.value.isArray = false)
      (high_single : high.value.isArray = false) : Fits schema (.range column low high)
  | like {columns : List String} {escaped : Bool} {pattern : Slot} (some : columns ≠ [])
      (single : pattern.value.isArray = false) : Fits schema (.like columns escaped pattern)

namespace Predicate

variable {schema : Schema} {config : Config} {stem : String} {predicate : Predicate}
  {leaf : Condition}

/-- What the compiler has seen to in what a predicate has compiled to. -/
theorem fits_of_compiled (h : Compiled schema config stem predicate (some leaf)) :
    leaf.Fits schema := by
  generalize hresult : some leaf = result at h
  cases h with
  | unset null => cases hresult
  | keyword set field columns =>
    cases hresult
    exact .like columns rfl
  | among field mapped operator value =>
    cases hresult
    exact .among mapped rfl
  | equal set field mapped operator value =>
    cases hresult
    exact .compare value
  | contains set field mapped operator value =>
    cases hresult
    exact .like (List.cons_ne_nil _ _) rfl
  | @between _ items field mapped operator value short single =>
    have hlow : ∀ low, bound? items 0 = some low → low.isArray = false := fun low h =>
      Json.isArray_of_not_isNested (single low (by simp [h]))
    have hhigh : ∀ high, bound? items 1 = some high → high.isArray = false := fun high h =>
      Json.isArray_of_not_isNested (single high (by simp [h]))
    cases h : bound? items 0 with
    | none =>
      cases h' : bound? items 1 with
      | none =>
        rw [h, h'] at hresult
        cases hresult
      | some high =>
        rw [h, h'] at hresult
        cases hresult
        exact .compare (hhigh high h')
    | some low =>
      cases h' : bound? items 1 with
      | none =>
        rw [h, h'] at hresult
        cases hresult
        exact .compare (hlow low h)
      | some high =>
        rw [h, h'] at hresult
        cases hresult
        exact .range (hlow low h) (hhigh high h')
  | order set field mapped operator value =>
    cases hresult
    exact .compare (Json.isArray_of_not_isNested value)

end Predicate

theorem Condition.leaves_of_fits {schema : Schema} {leaf : Condition} (h : leaf.Fits schema) :
    leaf.leaves = [leaf] := by
  cases h <;> rfl

/-! ## Where leaves come from -/

namespace Filter

variable {schema : Schema} {config : Config}

/-- The predicate at some path has compiled to a leaf, and the parameters of the leaf are
named after that path. -/
def HasLeaf (schema : Schema) (config : Config) (stem : String) (filter : Filter)
    (leaf : Condition) : Prop :=
  ∃ path predicate, filter.at? path = some (.test predicate) ∧
    predicate.Compiled schema config (path.foldl childStem stem) (some leaf)

theorem HasLeaf.group {stem : String} {logic : Logic} {children : List Filter} {index : ℕ}
    {child : Filter} {leaf : Condition} (hchild : children[index]? = some child)
    (h : child.HasLeaf schema config (childStem stem index) leaf) :
    (Filter.group logic children).HasLeaf schema config stem leaf := by
  obtain ⟨path, predicate, hat, hcompiled⟩ := h
  refine ⟨index :: path, predicate, ?_, hcompiled⟩
  rw [at?, hchild]
  exact hat

theorem hasLeaf_of_mem_childLeaves {children : List Filter}
    (ih : ∀ child ∈ children, ∀ {stem : String} {condition : Condition},
      child.condition? schema config stem = .ok (some condition) →
        ∀ leaf ∈ condition.leaves, child.HasLeaf schema config stem leaf)
    {stem : String} {index : ℕ} {conditions : List Condition}
    (h : childConditions schema config stem index children = .ok conditions) :
    ∀ leaf ∈ Condition.childLeaves conditions, ∃ (offset : ℕ) (child : Filter),
      children[offset]? = some child ∧
        child.HasLeaf schema config (childStem stem (index + offset)) leaf := by
  refine childConditions_induct (P := fun index children conditions =>
    ∀ leaf ∈ Condition.childLeaves conditions, ∃ (offset : ℕ) (child : Filter),
      children[offset]? = some child ∧
        child.HasLeaf schema config (childStem stem (index + offset)) leaf)
    (fun _ _ member => nomatch member) ?_ h
  intro index child rest first others member hfirst hothers leaf hleaf
  rw [Condition.childLeaves_eq_flatMap, List.flatMap_append, List.mem_append] at hleaf
  rcases hleaf with hleaf | hleaf
  · cases first with
    | none => cases hleaf
    | some condition =>
      rw [Option.toList_some, List.flatMap_singleton] at hleaf
      exact ⟨0, child, rfl, ih child member hfirst leaf hleaf⟩
  · rw [← Condition.childLeaves_eq_flatMap] at hleaf
    obtain ⟨offset, other, hother, hcompiled⟩ := hothers leaf hleaf
    refine ⟨offset + 1, other, hother, ?_⟩
    rwa [Nat.add_comm offset, ← Nat.add_assoc]

/-- Each leaf of what a filter has compiled to comes from a predicate of the filter. -/
theorem hasLeaf_of_mem_leaves {filter : Filter} {stem : String} {condition : Condition}
    (h : filter.condition? schema config stem = .ok (some condition)) :
    ∀ leaf ∈ condition.leaves, filter.HasLeaf schema config stem leaf := by
  induction filter using Filter.induct generalizing stem condition with
  | test predicate =>
    have hcompiled := Predicate.compiled_of_condition? h
    intro leaf hleaf
    have hself := Condition.leaves_of_fits (Predicate.fits_of_compiled hcompiled)
    rw [hself, List.mem_singleton] at hleaf
    rw [hleaf]
    exact ⟨[], predicate, rfl, hcompiled⟩
  | single logic only ih =>
    rw [condition?] at h
    exact fun leaf hleaf => .group rfl (ih h leaf hleaf)
  | group logic children many ih =>
    obtain ⟨connective, conditions, _, hconditions, hresult⟩ :=
      (condition?_group_eq_ok_iff many).mp h
    split_ifs at hresult
    cases hresult
    intro leaf hleaf
    rw [Condition.leaves] at hleaf
    obtain ⟨offset, child, hchild, hcompiled⟩ :=
      hasLeaf_of_mem_childLeaves @ih hconditions leaf hleaf
    rw [Nat.zero_add] at hcompiled
    exact .group hchild hcompiled

end Filter

end FilterSql
