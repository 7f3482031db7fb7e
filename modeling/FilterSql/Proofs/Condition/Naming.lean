import Mathlib.Algebra.GroupWithZero.Nat
import Mathlib.Data.List.Nodup
import FilterSql.Proofs.Condition.Pattern

/-!
# Names of parameters

A parameter is named after the address of its operand: the path of child indices
to the predicate and a number within the predicate. The name spells the address
out after the stem, as in `p_1_0__0`.

Results:
* `addressName_injective`: for any stem, different addresses have different
  names, although indices have different numbers of digits and `_` and `__`
  overlap.
* `Filter.mem_slots_iff`, `Filter.nodup_slots`, `Filter.length_slots`: the slots
  of a filter are its operands by address, under names that are all different.
* `Filter.flatMap_condition?`: what is collected along a compiled condition comes from
  the predicates of the filter; `Filter.exists_compiled`: each of these compiles.
-/

namespace FilterSql

/-! ## Specification -/

/-- The entries of an array that are not `null`. -/
def Json.setItems : Json → List Json
  | .array items => items.filter fun item => !item.isNull
  | _ => []

/-- The values that a predicate hands over, in order. A keyword search and a search
for a text that is not in an array hand over a pattern. -/
def Predicate.operands (escaped : Bool) (predicate : Predicate) : List Json :=
  if predicate.value.isNull then []
  else if predicate.field = keywordField then
    [.string (predicate.value.searchPattern escaped)]
  else match predicate.operator with
    | some .between => predicate.value.setItems
    | some .contains =>
      if predicate.value.isArray then [predicate.value]
      else [.string (predicate.value.searchPattern escaped)]
    | _ => [predicate.value]

/-- The number of slots of a predicate: none without a value, one for a keyword
search, one for each bound of a range, and one otherwise. -/
def Predicate.slotCount (predicate : Predicate) : Nat :=
  if predicate.value.isNull then 0
  else if predicate.field = keywordField then 1
  else if predicate.operator = some .between then predicate.value.setItems.length
  else 1

namespace Filter

mutual

/-- The predicates of a filter from left to right. -/
def predicates : Filter → List Predicate
  | .test predicate => [predicate]
  | .group _ children => childPredicates children

/-- The predicates of children from left to right. -/
def childPredicates : List Filter → List Predicate
  | [] => []
  | child :: rest => child.predicates ++ childPredicates rest

end

/-- The part of a filter that a path of child indices leads to. -/
def at? : List Nat → Filter → Option Filter
  | [], filter => some filter
  | index :: path, .group _ children => children[index]?.bind (at? path)
  | _ :: _, .test _ => none

end Filter

/-- The name of the operand with a number in the predicate at a path: the stem, an
index for each step of the path, and the number. -/
def addressName (stem : String) (path : List Nat) (number : Nat) : String :=
  stem ++ String.join (path.map fun index => "_" ++ toString index) ++ "__" ++ toString number

/-! ## Names determine addresses -/

theorem slotName_foldl_childStem (stem : String) (path : List Nat) (number : Nat) :
    slotName (path.foldl childStem stem) number = addressName stem path number := by
  induction path generalizing stem with
  | nil => simp [slotName, addressName]
  | cons index path ih => simp [ih, addressName, childStem, String.append_assoc]

theorem slotName_eq_addressName (stem : String) (number : Nat) :
    slotName stem number = addressName stem [] number :=
  slotName_foldl_childStem stem [] number

theorem addressName_childStem (stem : String) (index : Nat) (path : List Nat) (number : Nat) :
    addressName (childStem stem index) path number = addressName stem (index :: path) number := by
  rw [← slotName_foldl_childStem, ← slotName_foldl_childStem, List.foldl_cons]

/-- What a name adds to the stem. -/
def addressSuffix : List Nat → Nat → List Char
  | [], number => '_' :: '_' :: Nat.toDigits 10 number
  | index :: path, number => '_' :: (Nat.toDigits 10 index ++ addressSuffix path number)

theorem toList_addressName (stem : String) (path : List Nat) (number : Nat) :
    (addressName stem path number).toList = stem.toList ++ addressSuffix path number := by
  induction path generalizing stem with
  | nil => simp [addressName, addressSuffix]
  | cons index path ih =>
    rw [← addressName_childStem, ih]
    simp [childStem, addressSuffix]

theorem addressSuffix_eq_cons (path : List Nat) (number : Nat) :
    ∃ rest, addressSuffix path number = '_' :: rest := by
  cases path <;> exact ⟨_, rfl⟩

theorem toDigits_injective {i j : Nat} (h : Nat.toDigits 10 i = Nat.toDigits 10 j) : i = j := by
  have := congrArg (fun digits => Nat.ofDigitChars 10 digits 0) h
  simpa using this

/-- The digits of a number end where an underscore follows. -/
theorem toDigits_append_underscore_injective {i j : Nat} {rest rest' : List Char}
    (h : Nat.toDigits 10 i ++ '_' :: rest = Nat.toDigits 10 j ++ '_' :: rest') :
    i = j ∧ rest = rest' := by
  have hdigits : ∀ (n : Nat) (rest : List Char),
      (Nat.toDigits 10 n ++ '_' :: rest).takeWhile Char.isDigit = Nat.toDigits 10 n := by
    intro n rest
    rw [List.takeWhile_append_of_pos]
    · simp [Char.isDigit]
    · exact fun c hc => Nat.isDigit_of_mem_toDigits (by decide) (by decide) hc
  have hij : Nat.toDigits 10 i = Nat.toDigits 10 j := by
    rw [← hdigits i rest, h, hdigits j rest']
  rw [hij] at h
  exact ⟨toDigits_injective hij, List.tail_eq_of_cons_eq (List.append_cancel_left h)⟩

theorem addressSuffix_injective {path path' : List Nat} {number number' : Nat}
    (h : addressSuffix path number = addressSuffix path' number') :
    path = path' ∧ number = number' := by
  -- An index has a digit where the number of an operand has its second underscore.
  have hfirst : ∀ (n index : Nat) (rest : List Char),
      '_' :: Nat.toDigits 10 n ≠ Nat.toDigits 10 index ++ rest := by
    intro n index rest heq
    cases hd : Nat.toDigits 10 index with
    | nil => exact Nat.toDigits_ne_nil hd
    | cons c digits =>
      have hc : c.isDigit :=
        Nat.isDigit_of_mem_toDigits (by decide) (by decide) (hd ▸ List.mem_cons_self)
      rw [hd, List.cons_append] at heq
      rw [← (List.cons.inj heq).1] at hc
      revert hc
      decide
  induction path generalizing path' with
  | nil =>
    cases path' with
    | nil => exact ⟨rfl, toDigits_injective (by simpa [addressSuffix] using h)⟩
    | cons index path' => exact absurd (List.cons.inj h).2 (hfirst number index _)
  | cons index path ih =>
    cases path' with
    | nil => exact absurd (List.cons.inj h).2.symm (hfirst number' index _)
    | cons index' path' =>
      obtain ⟨rest, hrest⟩ := addressSuffix_eq_cons path number
      obtain ⟨rest', hrest'⟩ := addressSuffix_eq_cons path' number'
      have htail := (List.cons.inj h).2
      rw [hrest, hrest'] at htail
      obtain ⟨hindex, htail⟩ := toDigits_append_underscore_injective htail
      obtain ⟨hpath, hnumber⟩ := ih (by rw [hrest, hrest', htail])
      exact ⟨by rw [hindex, hpath], hnumber⟩

/-- Whatever the stem, a name determines the address that it stands for. -/
theorem addressName_injective {stem : String} {path path' : List Nat} {number number' : Nat}
    (h : addressName stem path number = addressName stem path' number') :
    path = path' ∧ number = number' := by
  have hlist := congrArg String.toList h
  rw [toList_addressName, toList_addressName] at hlist
  exact addressSuffix_injective (List.append_cancel_left hlist)

/-! ## Slots of a filter -/

/-- The slots of a predicate: its operands under their names. -/
def Predicate.slots (escaped : Bool) (stem : String) (predicate : Predicate) : List Slot :=
  (predicate.operands escaped).zipIdx.map fun entry => ⟨slotName stem entry.2, entry.1⟩

namespace Filter

mutual

/-- The slots of a filter from left to right. -/
def slots (escaped : Bool) (stem : String) : Filter → List Slot
  | .test predicate => predicate.slots escaped stem
  | .group _ children => childSlots escaped stem 0 children

/-- The slots of children from left to right, the first child being at an index. -/
def childSlots (escaped : Bool) (stem : String) (index : Nat) : List Filter → List Slot
  | [] => []
  | child :: rest =>
    child.slots escaped (childStem stem index) ++ childSlots escaped stem (index + 1) rest

end

end Filter

theorem Predicate.mem_slots_iff {escaped : Bool} {stem : String} {predicate : Predicate}
    {slot : Slot} :
    slot ∈ predicate.slots escaped stem ↔
      ∃ number, (predicate.operands escaped)[number]? = some slot.value ∧
        slot.name = slotName stem number := by
  obtain ⟨name, value⟩ := slot
  simp only [slots, List.mem_map, Slot.mk.injEq, Prod.exists, List.mem_zipIdx_iff_getElem?]
  constructor
  · rintro ⟨operand, number, h, rfl, rfl⟩
    exact ⟨number, h, rfl⟩
  · rintro ⟨number, h, rfl⟩
    exact ⟨value, number, h, rfl, rfl⟩

theorem Predicate.length_operands (escaped : Bool) (predicate : Predicate) :
    (predicate.operands escaped).length = predicate.slotCount := by
  unfold operands slotCount
  by_cases null : predicate.value.isNull = true
  · rw [if_pos null, if_pos null]
    rfl
  by_cases field : predicate.field = keywordField
  · rw [if_neg null, if_neg null, if_pos field, if_pos field]
    rfl
  rw [if_neg null, if_neg null, if_neg field, if_neg field]
  cases predicate.operator with
  | none => rfl
  | some operator =>
    cases operator with
    | contains =>
      rw [if_neg (show some Operator.contains ≠ some .between by simp)]
      cases h : predicate.value.isArray <;> simp
    | _ => rfl

namespace Filter

theorem mem_childSlots_iff {escaped : Bool} {stem : String} {index : Nat}
    {children : List Filter} {slot : Slot} :
    slot ∈ childSlots escaped stem index children ↔
      ∃ (offset : Nat) (child : Filter), children[offset]? = some child ∧
        slot ∈ child.slots escaped (childStem stem (index + offset)) := by
  induction children generalizing index with
  | nil => simp [childSlots]
  | cons first rest ih =>
    rw [childSlots, List.mem_append, ih]
    constructor
    · rintro (h | ⟨offset, child, hchild, h⟩)
      · exact ⟨0, first, rfl, h⟩
      · refine ⟨offset + 1, child, hchild, ?_⟩
        rwa [show index + (offset + 1) = index + 1 + offset by omega]
    · rintro ⟨offset, child, hchild, h⟩
      cases offset with
      | zero =>
        cases hchild
        exact .inl h
      | succ offset =>
        refine .inr ⟨offset, child, hchild, ?_⟩
        rwa [show index + 1 + offset = index + (offset + 1) by omega]

/-- The slots of a filter are the operands of its predicates, each under the name of
its address. -/
theorem mem_slots_iff {escaped : Bool} {filter : Filter} {slot : Slot} {stem : String} :
    slot ∈ filter.slots escaped stem ↔
      ∃ path predicate number, filter.at? path = some (.test predicate) ∧
        (predicate.operands escaped)[number]? = some slot.value ∧
        slot.name = addressName stem path number := by
  have hgroup : ∀ (logic : Logic) (children : List Filter),
      (∀ child ∈ children, ∀ {stem : String}, slot ∈ child.slots escaped stem ↔
        ∃ path predicate number, child.at? path = some (.test predicate) ∧
          (predicate.operands escaped)[number]? = some slot.value ∧
          slot.name = addressName stem path number) →
      ∀ {stem : String}, slot ∈ (Filter.group logic children).slots escaped stem ↔
        ∃ path predicate number, (Filter.group logic children).at? path = some (.test predicate) ∧
          (predicate.operands escaped)[number]? = some slot.value ∧
          slot.name = addressName stem path number := by
    intro logic children ih stem
    rw [slots, mem_childSlots_iff]
    constructor
    · rintro ⟨index, child, hchild, h⟩
      obtain ⟨path, predicate, number, hat, hvalue, hname⟩ :=
        (ih child (List.mem_of_getElem? hchild)).mp h
      refine ⟨index :: path, predicate, number, ?_, hvalue, ?_⟩
      · rw [at?, hchild]
        exact hat
      · rw [hname, Nat.zero_add, addressName_childStem]
    · rintro ⟨path, predicate, number, hat, hvalue, hname⟩
      cases path with
      | nil => cases hat
      | cons index path =>
        rw [at?, Option.bind_eq_some_iff] at hat
        obtain ⟨child, hchild, hat⟩ := hat
        refine ⟨index, child, hchild, (ih child (List.mem_of_getElem? hchild)).mpr ?_⟩
        exact ⟨path, predicate, number, hat, hvalue, by
          rw [hname, Nat.zero_add, addressName_childStem]⟩
  induction filter using Filter.induct generalizing stem with
  | test predicate =>
    rw [slots, Predicate.mem_slots_iff]
    constructor
    · rintro ⟨number, hvalue, hname⟩
      exact ⟨[], predicate, number, rfl, hvalue, by rw [hname, slotName_eq_addressName]⟩
    · rintro ⟨path, predicate', number, hat, hvalue, hname⟩
      cases path with
      | nil =>
        cases hat
        exact ⟨number, hvalue, by rw [hname, slotName_eq_addressName]⟩
      | cons index path => cases hat
  | single logic only ih => exact hgroup logic [only] (by simpa using @ih)
  | group logic children _ ih => exact hgroup logic children (fun child h _ => ih child h)

/-- No name is given to two slots of a filter. -/
theorem nodup_slots (escaped : Bool) (filter : Filter) (stem : String) :
    ((filter.slots escaped stem).map Slot.name).Nodup := by
  have hchildren : ∀ (children : List Filter) (index : Nat) (stem : String),
      (∀ child ∈ children, ∀ stem, ((child.slots escaped stem).map Slot.name).Nodup) →
      ((childSlots escaped stem index children).map Slot.name).Nodup := by
    intro children
    induction children with
    | nil => intro index stem _; exact List.nodup_nil
    | cons first rest ih =>
      intro index stem h
      rw [childSlots, List.map_append]
      refine List.Nodup.append (h first List.mem_cons_self _)
        (ih (index + 1) stem fun child member => h child (List.mem_cons_of_mem _ member)) ?_
      -- A common name would have an address below this child and one below a later child.
      intro name hfirst hrest
      obtain ⟨slot, hslot, rfl⟩ := List.mem_map.mp hfirst
      obtain ⟨other, hother, hname⟩ := List.mem_map.mp hrest
      obtain ⟨offset, child, _, hother⟩ := mem_childSlots_iff.mp hother
      obtain ⟨path, _, number, _, _, hfirstName⟩ := mem_slots_iff.mp hslot
      obtain ⟨path', _, number', _, _, hotherName⟩ := mem_slots_iff.mp hother
      rw [hfirstName, hotherName, addressName_childStem, addressName_childStem] at hname
      have := (List.cons.inj (addressName_injective hname).1).1
      omega
  induction filter using Filter.induct generalizing stem with
  | test predicate =>
    have hnames : (predicate.slots escaped stem).map Slot.name =
        (List.range (predicate.operands escaped).length).map (slotName stem) := by
      rw [Predicate.slots, List.map_map, List.range_eq_range', ← List.zipIdx_map_snd, List.map_map]
      rfl
    rw [slots, hnames]
    refine List.Nodup.map (fun number number' h => ?_) List.nodup_range
    rw [slotName_eq_addressName, slotName_eq_addressName] at h
    exact (addressName_injective h).2
  | single logic only ih => exact hchildren [only] 0 stem (by simpa using ih)
  | group logic children _ ih => exact hchildren children 0 stem ih

theorem length_slots (escaped : Bool) (filter : Filter) (stem : String) :
    (filter.slots escaped stem).length = (filter.predicates.map Predicate.slotCount).sum := by
  have hchildren : ∀ (children : List Filter) (index : Nat) (stem : String),
      (∀ child ∈ children, ∀ stem, (child.slots escaped stem).length =
        (child.predicates.map Predicate.slotCount).sum) →
      (childSlots escaped stem index children).length =
        ((childPredicates children).map Predicate.slotCount).sum := by
    intro children
    induction children with
    | nil => intro index stem _; rfl
    | cons child rest ih =>
      intro index stem h
      rw [childSlots, childPredicates, List.length_append, List.map_append, List.sum_append,
        h child List.mem_cons_self,
        ih _ _ fun other member => h other (List.mem_cons_of_mem _ member)]
  induction filter using Filter.induct generalizing stem with
  | test predicate =>
    rw [slots, predicates, Predicate.slots, List.length_map, List.length_zipIdx,
      Predicate.length_operands, List.map_singleton, List.sum_singleton]
  | single logic only ih => exact hchildren [only] 0 stem (by simpa using ih)
  | group logic children _ ih => exact hchildren children 0 stem ih

end Filter

/-! ## What is collected along a filter -/

namespace Filter

variable {α : Type} {schema : Schema} {config : Config} {collect : Condition → List α}
variable {gather : Predicate → List α}

theorem flatMap_childConditions {children : List Filter}
    (ih : ∀ child ∈ children, ∀ {stem : String} {result : Option Condition},
      child.condition? schema config stem = .ok result →
        result.toList.flatMap collect = child.predicates.flatMap gather)
    {stem : String} {index : Nat} {conditions : List Condition}
    (h : childConditions schema config stem index children = .ok conditions) :
    conditions.flatMap collect = (childPredicates children).flatMap gather := by
  refine childConditions_induct (P := fun _ children conditions =>
    conditions.flatMap collect = (childPredicates children).flatMap gather) (fun _ => rfl) ?_ h
  intro index child rest first others member hfirst hothers
  rw [List.flatMap_append, childPredicates, List.flatMap_append, ih child member hfirst, hothers]

/-- What is collected along a condition child by child comes from the predicates of the
filter from left to right. -/
theorem flatMap_condition?
    (test : ∀ {stem : String} {predicate : Predicate} {result : Option Condition},
      predicate.Compiled schema config stem result →
        result.toList.flatMap collect = gather predicate)
    (group : ∀ connective children,
      collect (.group connective children) = children.flatMap collect)
    {filter : Filter} {stem : String} {result : Option Condition}
    (h : filter.condition? schema config stem = .ok result) :
    result.toList.flatMap collect = filter.predicates.flatMap gather := by
  induction filter using Filter.induct generalizing stem result with
  | test predicate =>
    rw [predicates, List.flatMap_singleton]
    exact test (Predicate.compiled_of_condition? h)
  | single logic only ih =>
    rw [condition?] at h
    rw [ih h, predicates, childPredicates, childPredicates, List.append_nil]
  | group logic children many ih =>
    obtain ⟨connective, conditions, _, hconditions, rfl⟩ :=
      (condition?_group_eq_ok_iff many).mp h
    have hcollected := flatMap_childConditions @ih hconditions
    rw [predicates, ← hcollected]
    split_ifs with hempty
    · rw [hempty.1]
      rfl
    · rw [Option.toList_some, List.flatMap_singleton, group]

/-- In a filter that compiles, every predicate compiles. -/
theorem exists_compiled {filter : Filter} {stem : String} {result : Option Condition}
    (h : filter.condition? schema config stem = .ok result) :
    ∀ predicate ∈ filter.predicates, ∃ stem result,
      predicate.Compiled schema config stem result := by
  induction filter using Filter.induct generalizing stem result with
  | test predicate =>
    rw [predicates, List.forall_mem_singleton]
    exact ⟨stem, result, Predicate.compiled_of_condition? h⟩
  | single logic only ih =>
    rw [condition?] at h
    rw [predicates, childPredicates, childPredicates, List.append_nil]
    exact ih h
  | group logic children many ih =>
    obtain ⟨_, conditions, _, hconditions, _⟩ := (condition?_group_eq_ok_iff many).mp h
    refine childConditions_induct (P := fun _ children _ => ∀ predicate ∈ childPredicates children,
      ∃ stem result, predicate.Compiled schema config stem result) (by simp [childPredicates]) ?_
      hconditions
    intro index child rest first others member hfirst hothers predicate hpredicate
    rw [childPredicates, List.mem_append] at hpredicate
    rcases hpredicate with hpredicate | hpredicate
    · exact ih child member hfirst predicate hpredicate
    · exact hothers predicate hpredicate

end Filter

end FilterSql
