import Mathlib.Data.List.Nodup
import FilterSql.Parameters

/-!
# Parameters as a finite map

What the operations on `Parameters` do to the values that `get?` reads.

Results:
* `get?_ofList`: the last value of a name wins; `get?_ofList_eq_some_iff`: when
  every name occurs once, the entries are exactly those of the list.
* `merge_ofList`: lists without a common name merge into the joined list.
* `merge_eq_ok_iff`: merging succeeds exactly when no name is in both;
  `get?_of_merge`: each side keeps its values; `exists_first_common`: it fails for the
  smallest name that is in both.
* `names_eq_of_contains`: the names depend on which names are contained only.
-/

namespace FilterSql.Parameters

/-! ## Reading -/

/-- Parameters are determined by the values that they give to names. -/
theorem ext {left right : Parameters} (h : ∀ name, left.get? name = right.get? name) :
    left = right := by
  obtain ⟨entries⟩ := left
  obtain ⟨others⟩ := right
  congr 1
  exact Std.ExtTreeMap.ext_getElem? h

@[simp] theorem get?_empty (name : String) : empty.get? name = none := by
  simp [get?, empty]

theorem get?_insert (parameters : Parameters) (name other : String) (value : Json) :
    (parameters.insert name value).get? other =
      if name = other then some value else parameters.get? other := by
  simp [get?, insert, Std.ExtTreeMap.getElem?_insert]

theorem contains_eq_isSome (parameters : Parameters) (name : String) :
    parameters.contains name = (parameters.get? name).isSome :=
  Std.ExtTreeMap.contains_eq_isSome_getElem?

theorem contains_eq_true_iff {parameters : Parameters} {name : String} :
    parameters.contains name = true ↔ ∃ value, parameters.get? name = some value := by
  rw [contains_eq_isSome, Option.isSome_iff_exists]

theorem contains_eq_false_iff {parameters : Parameters} {name : String} :
    parameters.contains name = false ↔ parameters.get? name = none := by
  rw [contains_eq_isSome, Option.isSome_eq_false_iff, Option.isNone_iff_eq_none]

theorem mem_names_iff {parameters : Parameters} {name : String} :
    name ∈ parameters.names ↔ parameters.contains name = true := by
  simp [names, contains, Std.ExtTreeMap.mem_keys]

theorem mem_toList_iff {parameters : Parameters} {name : String} {value : Json} :
    (name, value) ∈ parameters.toList ↔ parameters.get? name = some value := by
  simp [toList, get?, Std.ExtTreeMap.mem_toList_iff_getElem?_eq_some]

/-! ## Lists of names and values -/

theorem get?_foldl_insert (list : List (String × Json)) (parameters : Parameters)
    (name : String) :
    (list.foldl (fun parameters entry => parameters.insert entry.1 entry.2) parameters).get? name =
      ((list.reverse.find? fun entry => entry.1 = name).map Prod.snd).or
        (parameters.get? name) := by
  induction list generalizing parameters with
  | nil => simp
  | cons entry rest ih =>
    rw [List.foldl_cons, ih, get?_insert, List.reverse_cons, List.find?_append]
    by_cases h : entry.1 = name <;>
      cases rest.reverse.find? (fun entry => entry.1 = name) <;> simp [h]

/-- The last of several values of one name wins. -/
theorem get?_ofList (list : List (String × Json)) (name : String) :
    (ofList list).get? name =
      (list.reverse.find? fun entry => entry.1 = name).map Prod.snd := by
  rw [ofList, get?_foldl_insert, get?_empty, Option.or_none]

theorem contains_ofList {list : List (String × Json)} {name : String} :
    (ofList list).contains name = true ↔ name ∈ list.map Prod.fst := by
  rw [contains_eq_isSome, get?_ofList, Option.isSome_map, List.find?_isSome]
  simp only [List.mem_reverse, decide_eq_true_eq, List.mem_map]

/-- When every name occurs once, the entries are exactly those of the list. -/
theorem get?_ofList_eq_some_iff {list : List (String × Json)} (unique : (list.map Prod.fst).Nodup)
    {name : String} {value : Json} :
    (ofList list).get? name = some value ↔ (name, value) ∈ list := by
  rw [get?_ofList, Option.map_eq_some_iff]
  constructor
  · rintro ⟨⟨other, _⟩, found, rfl⟩
    have hname : other = name := by simpa using List.find?_some found
    subst hname
    exact List.mem_reverse.mp (List.mem_of_find?_eq_some found)
  · intro member
    have hsome : (list.reverse.find? fun entry => entry.1 = name).isSome := by
      rw [List.find?_isSome]
      exact ⟨(name, value), List.mem_reverse.mpr member, by simp⟩
    obtain ⟨entry, found⟩ := Option.isSome_iff_exists.mp hsome
    have hname : entry.1 = name := by simpa using List.find?_some found
    have hmem : entry ∈ list := List.mem_reverse.mp (List.mem_of_find?_eq_some found)
    have hentry : entry = (name, value) :=
      List.inj_on_of_nodup_map unique hmem member hname
    exact ⟨entry, found, by rw [hentry]⟩

theorem nodup_keys_toList (parameters : Parameters) :
    (parameters.toList.map Prod.fst).Nodup := by
  rw [toList, Std.ExtTreeMap.map_fst_toList_eq_keys]
  exact Std.ExtTreeMap.nodup_keys

@[simp] theorem ofList_toList (parameters : Parameters) :
    ofList parameters.toList = parameters := by
  apply ext
  intro name
  apply Option.ext
  intro value
  rw [get?_ofList_eq_some_iff parameters.nodup_keys_toList, mem_toList_iff]

/-- Reading a list back gives its entries, in the order of their names. -/
theorem toList_ofList_perm {list : List (String × Json)} (unique : (list.map Prod.fst).Nodup) :
    (ofList list).toList.Perm list := by
  have hkeys := (ofList list).nodup_keys_toList
  rw [List.perm_ext_iff_of_nodup hkeys.of_map unique.of_map]
  rintro ⟨name, value⟩
  rw [mem_toList_iff, get?_ofList_eq_some_iff unique]

theorem size_ofList {list : List (String × Json)} (unique : (list.map Prod.fst).Nodup) :
    (ofList list).size = list.length := by
  rw [← (toList_ofList_perm unique).length_eq, toList, Std.ExtTreeMap.length_toList]
  rfl

/-! ## Names -/

theorem nodup_names (parameters : Parameters) : parameters.names.Nodup :=
  Std.ExtTreeMap.nodup_keys

theorem names_pairwise (parameters : Parameters) :
    parameters.names.Pairwise fun name other => compare name other = .lt :=
  Std.ExtTreeMap.ordered_keys

theorem names_sorted (parameters : Parameters) : parameters.names.Pairwise (· < ·) :=
  parameters.names_pairwise.imp compareOfLessAndEq_eq_lt.mp

/-- Names are listed in order, so the list of them is determined by its members. -/
theorem names_eq_of_contains {left right : Parameters}
    (h : ∀ name, left.contains name = true ↔ right.contains name = true) :
    left.names = right.names := by
  have hperm : left.names.Perm right.names := by
    rw [List.perm_ext_iff_of_nodup left.nodup_names right.nodup_names]
    intro name
    rw [mem_names_iff, mem_names_iff, h]
  refine hperm.eq_of_pairwise ?_ left.names_pairwise right.names_pairwise
  intro name other _ _ hlt hgt
  rw [Std.OrientedOrd.eq_swap, hgt] at hlt
  cases hlt

/-! ## Merging -/

/-- Parameters without a common name are merged into the union of both. -/
theorem merge_of_disjoint {left right : Parameters}
    (h : ∀ name, left.contains name = true → right.contains name = false) :
    left.merge right = .ok ⟨left.entries ∪ right.entries⟩ := by
  have hnone : right.names.find? left.contains = none := by
    rw [List.find?_eq_none]
    intro name member common
    rw [mem_names_iff, h name common] at member
    cases member
  rw [merge, hnone]

theorem get?_union (left right : Parameters) (name : String) :
    (⟨left.entries ∪ right.entries⟩ : Parameters).get? name =
      (right.get? name).or (left.get? name) :=
  Std.ExtTreeMap.getElem?_union

/-- Merging succeeds exactly when no name is in both, and then gives the union of both. -/
theorem merge_eq_ok_iff {left right merged : Parameters} :
    left.merge right = .ok merged ↔
      (∀ name, left.contains name = true → right.contains name = false) ∧
        merged = ⟨left.entries ∪ right.entries⟩ := by
  constructor
  · intro h
    have hdisjoint : ∀ name, left.contains name = true → right.contains name = false := by
      intro name hleft
      rw [Bool.eq_false_iff]
      intro hright
      rw [merge] at h
      cases hfind : right.names.find? left.contains with
      | none =>
        have := List.find?_eq_none.mp hfind name (mem_names_iff.mpr hright)
        exact this hleft
      | some common =>
        rw [hfind] at h
        cases h
    rw [merge_of_disjoint hdisjoint] at h
    cases h
    exact ⟨hdisjoint, rfl⟩
  · rintro ⟨hdisjoint, rfl⟩
    exact merge_of_disjoint hdisjoint

/-- A name is the smallest of those that are on both sides, in code point order. -/
structure IsFirstCommon (first second : Parameters) (name : String) : Prop where
  left : first.contains name = true
  right : second.contains name = true
  least : ∀ other, first.contains other = true → second.contains other = true → name ≤ other

/-- When names are on both sides, merging fails and reports the smallest of them. -/
theorem exists_first_common {left right : Parameters} {name : String}
    (hleft : left.contains name = true) (hright : right.contains name = true) :
    ∃ first, IsFirstCommon left right first ∧
      left.merge right = .error (.nameBoundTwice first) := by
  have hsome : (right.names.find? left.contains).isSome = true :=
    List.find?_isSome.mpr ⟨name, mem_names_iff.mpr hright, hleft⟩
  obtain ⟨first, hfind⟩ := Option.isSome_iff_exists.mp hsome
  obtain ⟨hfirst, before, after, hnames, hbefore⟩ := List.find?_eq_some_iff_append.mp hfind
  refine ⟨first, ⟨hfirst, ?_, fun other hother hcommon => ?_⟩, ?_⟩
  · rw [← mem_names_iff, hnames]
    exact List.mem_append_right _ List.mem_cons_self
  · -- A common name is not before the one that has been found, and names are listed in order.
    have member : other ∈ before ++ first :: after := hnames ▸ mem_names_iff.mpr hcommon
    have hsorted := right.names_sorted
    rw [hnames, List.pairwise_append, List.pairwise_cons] at hsorted
    rcases List.mem_append.mp member with member | member
    · have hforeign := hbefore other member
      rw [hother] at hforeign
      cases hforeign
    · rcases List.mem_cons.mp member with rfl | member
      · exact String.le_refl _
      · exact Std.le_of_lt (hsorted.2.1.1 other member)
  · rw [merge, hfind]

/-- What is bound on one side keeps its value in the merged parameters. -/
theorem get?_of_merge {left right merged : Parameters} (h : left.merge right = .ok merged)
    (name : String) : merged.get? name = (right.get? name).or (left.get? name) := by
  obtain ⟨_, rfl⟩ := merge_eq_ok_iff.mp h
  exact get?_union left right name

theorem get?_right_of_merge {left right merged : Parameters} (h : left.merge right = .ok merged)
    {name : String} {value : Json} (hvalue : right.get? name = some value) :
    merged.get? name = some value := by
  rw [get?_of_merge h, hvalue]
  rfl

/-- In merged parameters no value of the left side is covered by the right side. -/
theorem get?_left_of_merge {left right merged : Parameters} (h : left.merge right = .ok merged)
    {name : String} {value : Json} (hvalue : left.get? name = some value) :
    merged.get? name = some value := by
  have hright : right.get? name = none := by
    have hcontains : right.contains name = false :=
      (merge_eq_ok_iff.mp h).1 name (by rw [contains_eq_isSome, hvalue]; rfl)
    rw [contains_eq_isSome] at hcontains
    simpa using hcontains
  rw [get?_of_merge h, hright, hvalue]
  rfl

/-- A name has a value in merged parameters exactly when it has it on one of the sides. -/
theorem get?_of_merge_eq_some_iff {left right merged : Parameters}
    (h : left.merge right = .ok merged) (name : String) (value : Json) :
    merged.get? name = some value ↔ left.get? name = some value ∨ right.get? name = some value := by
  constructor
  · intro hvalue
    rw [get?_of_merge h, Option.or_eq_some_iff] at hvalue
    rcases hvalue with hright | ⟨_, hleft⟩
    · exact .inr hright
    · exact .inl hleft
  · rintro (hleft | hright)
    · exact get?_left_of_merge h hleft
    · exact get?_right_of_merge h hright

/-- Lists in which no name occurs twice merge into the joined list. -/
theorem merge_ofList {first second : List (String × Json)}
    (unique : ((first ++ second).map Prod.fst).Nodup) :
    (ofList first).merge (ofList second) = .ok (ofList (first ++ second)) := by
  rw [List.map_append] at unique
  have hdisjoint := List.disjoint_of_nodup_append unique
  rw [merge_of_disjoint]
  · congr 1
    apply ext
    intro name
    rw [get?_union, get?_ofList, get?_ofList, get?_ofList, List.reverse_append, List.find?_append]
    cases second.reverse.find? fun entry => entry.1 = name <;> rfl
  · intro name common
    rw [Bool.eq_false_iff, Ne, contains_ofList]
    exact hdisjoint (contains_ofList.mp common)

end FilterSql.Parameters
