import Mathlib.Tactic.Common
import FilterSql.Wire.Decode

/-!
# Values that are read back

Whatever value is read is in normal form: its objects list their members in the order of
the names, and each name once. A value in normal form is read back as it is, with one
exception: an object whose first member has the reserved name of an embedding is read as
the text that it embeds.

Results:
* `Json.sortMembers_of_inOrder`, `Json.inOrder_sortMembers`: sorting members.
* `Document.sorted_of_toJson?`: what is read is in normal form.
* `Document.toJson?_ofJson`: reading a value back sorts it, if no member has the reserved
  name.
* `Json.readsBack_iff_sorted`, `Json.readsBack_of_isPlain`: which values are read back.
-/

namespace FilterSql

/-! ## Specification -/

namespace Json

/-- Members in the order of their names, each name once. -/
def InOrder {α : Type} (members : List (String × α)) : Prop :=
  members.Pairwise fun first second => compare first.1 second.1 = .lt

mutual

/-- A value with the members of all objects in order. -/
def sorted : Json → Json
  | .array items => .array (sortedItems items)
  | .object members => .object (sortMembers (sortedMembers members))
  | .null => .null
  | .bool value => .bool value
  | .number value => .number value
  | .string text => .string text

/-- Items, each with its members in order. -/
def sortedItems : List Json → List Json
  | [] => []
  | item :: rest => item.sorted :: sortedItems rest

/-- Members, each with the members of its value in order. -/
def sortedMembers : List (String × Json) → List (String × Json)
  | [] => []
  | (name, value) :: rest => (name, value.sorted) :: sortedMembers rest

end

/-- A value that is decoded from itself. -/
def ReadsBack (value : Json) : Prop :=
  Wire.Decoder.json (Document.ofJson value) = .ok value

end Json

namespace Document

mutual

/-- No member has the reserved name of an embedding. -/
def isPlain : Document → Bool
  | .array items => itemsPlain items
  | .object members => membersPlain members
  | .null | .bool _ | .number _ | .string _ | .unreadable | .malformed => true

/-- No member of an item has the reserved name. -/
def itemsPlain : List Document → Bool
  | [] => true
  | item :: rest => item.isPlain && itemsPlain rest

/-- Neither these members nor those of their values have the reserved name. -/
def membersPlain : List (Option String × Document) → Bool
  | [] => true
  | (name, value) :: rest => name != some embeddingName && (value.isPlain && membersPlain rest)

end

end Document

/-! ## Sorting members -/

namespace Json

section Members

variable {α : Type} {name : String} {value : α} {members : List (String × α)}

theorem mem_insertMember {member : String × α} (h : member ∈ insertMember name value members) :
    member = (name, value) ∨ member ∈ members := by
  induction members with
  | nil => exact .inl (List.mem_singleton.mp h)
  | cons first rest ih =>
    obtain ⟨other, old⟩ := first
    rw [insertMember] at h
    cases horder : compare name other with
    | lt =>
      rw [horder] at h
      exact List.mem_cons.mp h
    | eq =>
      rw [horder] at h
      exact (List.mem_cons.mp h).imp_right (List.mem_cons_of_mem _)
    | gt =>
      rw [horder] at h
      rcases List.mem_cons.mp h with rfl | h
      · exact .inr List.mem_cons_self
      · exact (ih h).imp_right (List.mem_cons_of_mem _)

theorem inOrder_insertMember (h : InOrder members) : InOrder (insertMember name value members) := by
  induction members with
  | nil => exact List.pairwise_singleton _ _
  | cons first rest ih =>
    obtain ⟨other, old⟩ := first
    obtain ⟨hfirst, hrest⟩ := List.pairwise_cons.mp h
    rw [insertMember]
    cases horder : compare name other with
    | lt =>
      refine List.pairwise_cons.mpr ⟨fun member hmember => ?_, h⟩
      rcases List.mem_cons.mp hmember with rfl | hmember
      · exact horder
      · exact Std.TransCmp.lt_trans horder (hfirst member hmember)
    | eq =>
      obtain rfl : name = other := Std.LawfulEqCmp.eq_of_compare horder
      exact List.pairwise_cons.mpr ⟨hfirst, hrest⟩
    | gt =>
      refine List.pairwise_cons.mpr ⟨fun member hmember => ?_, ih hrest⟩
      rcases mem_insertMember hmember with rfl | hmember
      · exact Std.OrientedCmp.gt_iff_lt.mp horder
      · exact hfirst member hmember

theorem insertMember_of_last (h : ∀ member ∈ members, compare member.1 name = .lt) :
    insertMember name value members = members ++ [(name, value)] := by
  induction members with
  | nil => rfl
  | cons first rest ih =>
    obtain ⟨other, old⟩ := first
    have horder : compare name other = .gt :=
      Std.OrientedCmp.gt_iff_lt.mpr (h _ List.mem_cons_self)
    rw [insertMember, horder, List.cons_append,
      ← ih fun member hmember => h member (List.mem_cons_of_mem _ hmember)]

theorem mem_sortMembers {member : String × α} (h : member ∈ sortMembers members) :
    member ∈ members := by
  have hfold : ∀ found : List (String × α),
      member ∈ members.foldl (fun sorted member => insertMember member.1 member.2 sorted) found →
      member ∈ found ∨ member ∈ members := by
    clear h
    induction members with
    | nil => exact fun found => .inl
    | cons first rest ih =>
      intro found h
      rcases ih _ h with hfound | hrest
      · rcases mem_insertMember hfound with rfl | hfound
        · exact .inr List.mem_cons_self
        · exact .inl hfound
      · exact .inr (List.mem_cons_of_mem _ hrest)
  exact (hfold [] h).resolve_left (List.not_mem_nil)

/-- Sorted members are in order. -/
theorem inOrder_sortMembers (members : List (String × α)) : InOrder (sortMembers members) := by
  have hfold : ∀ found : List (String × α), InOrder found →
      InOrder (members.foldl (fun sorted member => insertMember member.1 member.2 sorted)
        found) := by
    induction members with
    | nil => exact fun found h => h
    | cons first rest ih => exact fun found h => ih _ (inOrder_insertMember h)
  exact hfold [] List.Pairwise.nil

/-- Members in order stay as they are. -/
theorem sortMembers_of_inOrder (h : InOrder members) : sortMembers members = members := by
  have hfold : ∀ found : List (String × α), InOrder (found ++ members) →
      members.foldl (fun sorted member => insertMember member.1 member.2 sorted) found =
        found ++ members := by
    clear h
    induction members with
    | nil => exact fun found _ => (List.append_nil found).symm
    | cons first rest ih =>
      intro found h
      have hlast : ∀ member ∈ found, compare member.1 first.1 = .lt := fun member hmember =>
        (List.pairwise_append.mp h).2.2 member hmember first List.mem_cons_self
      rw [List.append_cons] at h ⊢
      rw [List.foldl_cons, insertMember_of_last hlast]
      exact ih _ h
  exact hfold [] h

end Members

/-- Whether members are in order depends on their names alone. -/
theorem inOrder_of_names {α : Type} {members : List (String × α)} (names : List String)
    (h : members.map Prod.fst = names)
    (order : names.Pairwise fun first second => compare first second = .lt) : InOrder members := by
  rw [← h] at order
  exact List.pairwise_map.mp order

/-! ## Sorting values -/

theorem sortedItems_eq_map (items : List Json) : sortedItems items = items.map sorted := by
  induction items with
  | nil => rfl
  | cons item rest ih => rw [sortedItems, ih, List.map_cons]

theorem sortedMembers_eq_map (members : List (String × Json)) :
    sortedMembers members = members.map fun member => (member.1, member.2.sorted) := by
  induction members with
  | nil => rfl
  | cons member rest ih => rw [sortedMembers, ih, List.map_cons]

theorem sorted_array {items : List Json} (h : ∀ item ∈ items, item.sorted = item) :
    (array items).sorted = .array items := by
  rw [sorted, sortedItems_eq_map, List.map_congr_left h, List.map_id']

theorem sorted_object {members : List (String × Json)} (order : InOrder members)
    (h : ∀ member ∈ members, member.2.sorted = member.2) :
    (object members).sorted = .object members := by
  have hvalues : sortedMembers members = members := by
    rw [sortedMembers_eq_map]
    refine (List.map_congr_left fun member hmember => ?_).trans (List.map_id' members)
    rw [h member hmember]
  rw [sorted, hvalues, sortMembers_of_inOrder order]

end Json

/-! ## Induction -/

mutual

theorem Json.induct {P : Json → Prop} (null : P .null) (bool : ∀ value, P (.bool value))
    (number : ∀ value, P (.number value)) (string : ∀ text, P (.string text))
    (array : ∀ items, (∀ item ∈ items, P item) → P (.array items))
    (object : ∀ members, (∀ member ∈ members, P member.2) → P (.object members)) :
    ∀ value, P value
  | .null => null
  | .bool value => bool value
  | .number value => number value
  | .string text => string text
  | .array items => array items (Json.induct_items null bool number string array object items)
  | .object members =>
    object members (Json.induct_members null bool number string array object members)

theorem Json.induct_items {P : Json → Prop} (null : P .null) (bool : ∀ value, P (.bool value))
    (number : ∀ value, P (.number value)) (string : ∀ text, P (.string text))
    (array : ∀ items, (∀ item ∈ items, P item) → P (.array items))
    (object : ∀ members, (∀ member ∈ members, P member.2) → P (.object members)) :
    ∀ items : List Json, ∀ item ∈ items, P item
  | [], _, member => nomatch member
  | first :: rest, item, member => by
    rcases List.mem_cons.mp member with h | h
    · rw [h]; exact Json.induct null bool number string array object first
    · exact Json.induct_items null bool number string array object rest item h

theorem Json.induct_members {P : Json → Prop} (null : P .null) (bool : ∀ value, P (.bool value))
    (number : ∀ value, P (.number value)) (string : ∀ text, P (.string text))
    (array : ∀ items, (∀ item ∈ items, P item) → P (.array items))
    (object : ∀ members, (∀ member ∈ members, P member.2) → P (.object members)) :
    ∀ members : List (String × Json), ∀ member ∈ members, P member.2
  | [], _, member => nomatch member
  | (name, value) :: rest, member, hmember => by
    rcases List.mem_cons.mp hmember with h | h
    · rw [h]; exact Json.induct null bool number string array object value
    · exact Json.induct_members null bool number string array object rest member h

end

mutual

theorem Document.induct {P : Document → Prop} (null : P .null) (bool : ∀ value, P (.bool value))
    (number : ∀ value, P (.number value)) (string : ∀ text, P (.string text))
    (array : ∀ items, (∀ item ∈ items, P item) → P (.array items))
    (object : ∀ members, (∀ member ∈ members, P member.2) → P (.object members))
    (unreadable : P .unreadable) (malformed : P .malformed) : ∀ document, P document
  | .null => null
  | .bool value => bool value
  | .number value => number value
  | .string text => string text
  | .array items => array items
    (Document.induct_items null bool number string array object unreadable malformed items)
  | .object members => object members
    (Document.induct_members null bool number string array object unreadable malformed members)
  | .unreadable => unreadable
  | .malformed => malformed

theorem Document.induct_items {P : Document → Prop} (null : P .null)
    (bool : ∀ value, P (.bool value)) (number : ∀ value, P (.number value))
    (string : ∀ text, P (.string text))
    (array : ∀ items, (∀ item ∈ items, P item) → P (.array items))
    (object : ∀ members, (∀ member ∈ members, P member.2) → P (.object members))
    (unreadable : P .unreadable) (malformed : P .malformed) :
    ∀ items : List Document, ∀ item ∈ items, P item
  | [], _, member => nomatch member
  | first :: rest, item, member => by
    rcases List.mem_cons.mp member with h | h
    · rw [h]
      exact Document.induct null bool number string array object unreadable malformed first
    · exact Document.induct_items null bool number string array object unreadable malformed rest
        item h

theorem Document.induct_members {P : Document → Prop} (null : P .null)
    (bool : ∀ value, P (.bool value)) (number : ∀ value, P (.number value))
    (string : ∀ text, P (.string text))
    (array : ∀ items, (∀ item ∈ items, P item) → P (.array items))
    (object : ∀ members, (∀ member ∈ members, P member.2) → P (.object members))
    (unreadable : P .unreadable) (malformed : P .malformed) :
    ∀ members : List (Option String × Document), ∀ member ∈ members, P member.2
  | [], _, member => nomatch member
  | (name, value) :: rest, member, hmember => by
    rcases List.mem_cons.mp hmember with h | h
    · rw [h]
      exact Document.induct null bool number string array object unreadable malformed value
    · exact Document.induct_members null bool number string array object unreadable malformed rest
        member h

end

/-! ## What is read -/

namespace Document

variable {embedded? : String → Option Json}

theorem exists_of_itemsToJson? {items : List Document} {values : List Json}
    (h : itemsToJson? embedded? items = some values) {value : Json} (member : value ∈ values) :
    ∃ item ∈ items, item.toJson? embedded? = some value := by
  induction items generalizing values with
  | nil =>
    cases h
    cases member
  | cons item rest ih =>
    simp only [itemsToJson?, Option.bind_eq_bind, Option.bind_eq_some_iff] at h
    obtain ⟨first, hfirst, others, hothers, h⟩ := h
    cases h
    rcases List.mem_cons.mp member with rfl | member
    · exact ⟨item, List.mem_cons_self, hfirst⟩
    · obtain ⟨found, hfound, hvalue⟩ := ih hothers member
      exact ⟨found, List.mem_cons_of_mem _ hfound, hvalue⟩

theorem exists_of_membersToJson? {members : List (Option String × Document)}
    {values : List (String × Json)} (h : membersToJson? embedded? members = some values)
    {value : String × Json} (member : value ∈ values) :
    ∃ named ∈ members, named.1 = some value.1 ∧ named.2.toJson? embedded? = some value.2 := by
  induction members generalizing values with
  | nil =>
    cases h
    cases member
  | cons named rest ih =>
    simp only [membersToJson?, Option.bind_eq_bind, Option.bind_eq_some_iff] at h
    obtain ⟨name, hname, first, hfirst, others, hothers, h⟩ := h
    cases h
    rcases List.mem_cons.mp member with rfl | member
    · exact ⟨named, List.mem_cons_self, hname, hfirst⟩
    · obtain ⟨found, hfound, hvalue⟩ := ih hothers member
      exact ⟨found, List.mem_cons_of_mem _ hfound, hvalue⟩

theorem toJson?_object_eq_some_iff {members : List (Option String × Document)} {value : Json} :
    (object members).toJson? embedded? = some value ↔
      (isEmbedding members = true ∧ ∃ text, embeddedText? members = some text ∧
        embedded? text = some value) ∨
      isEmbedding members = false ∧ ∃ values, membersToJson? embedded? members = some values ∧
        value = .object (Json.sortMembers values) := by
  rw [toJson?]
  cases isEmbedding members with
  | true => simp [Option.bind_eq_some_iff]
  | false =>
    simp only [Bool.false_eq_true, false_and, true_and, false_or, Option.map_eq_some_iff,
      @eq_comm _ value]

/-- What is read is in normal form, if embedded texts are. -/
theorem sorted_of_toJson?
    (hembedded : ∀ text value, embedded? text = some value → value.sorted = value)
    {document : Document} {value : Json} (h : document.toJson? embedded? = some value) :
    value.sorted = value := by
  induction document using Document.induct generalizing value with
  | array items ih =>
    obtain ⟨values, hvalues, rfl⟩ := Option.map_eq_some_iff.mp h
    refine Json.sorted_array fun other member => ?_
    obtain ⟨item, hitem, hother⟩ := exists_of_itemsToJson? hvalues member
    exact ih item hitem hother
  | object members ih =>
    rcases toJson?_object_eq_some_iff.mp h with ⟨_, text, _, htext⟩ | ⟨_, values, hvalues, rfl⟩
    · exact hembedded text value htext
    · refine Json.sorted_object (Json.inOrder_sortMembers values) fun other member => ?_
      obtain ⟨named, hnamed, _, hother⟩ :=
        exists_of_membersToJson? hvalues (Json.mem_sortMembers member)
      exact ih named hnamed hother
  | unreadable => cases h
  | malformed => cases h
  | _ =>
    cases h
    rfl

end Document

theorem Json.sorted_of_parse? {text : String} {value : Json} (h : parse? text = some value) :
    value.sorted = value := by
  have hwithin : ∀ nesting text value, parseWithin? nesting text = some value →
      value.sorted = value := by
    intro nesting
    induction nesting with
    | zero => exact fun _ _ => nofun
    | succ nesting ih =>
      intro text value h
      rw [parseWithin?] at h
      split at h
      · exact Document.sorted_of_toJson? ih h
      · cases h
  exact hwithin _ _ _ h

/-! ## Documents without embedded texts -/

namespace Document

theorem isPlain_array_iff {items : List Document} :
    (array items).isPlain = true ↔ ∀ item ∈ items, item.isPlain = true := by
  rw [isPlain]
  induction items with
  | nil => simp [itemsPlain]
  | cons item rest ih => simp [itemsPlain, ih]

theorem isPlain_object_iff {members : List (Option String × Document)} :
    (object members).isPlain = true ↔
      ∀ member ∈ members, member.1 ≠ some embeddingName ∧ member.2.isPlain = true := by
  rw [isPlain]
  induction members with
  | nil => simp [membersPlain]
  | cons member rest ih => simp [membersPlain, ih, and_assoc]

theorem isEmbedding_of_isPlain {members : List (Option String × Document)}
    (h : (object members).isPlain = true) : isEmbedding members = false := by
  cases members with
  | nil => rfl
  | cons member rest =>
    have hname := (isPlain_object_iff.mp h member List.mem_cons_self).1
    simpa [isEmbedding] using hname

theorem ofItems_eq_map (items : List Json) : ofItems items = items.map ofJson := by
  induction items with
  | nil => rfl
  | cons item rest ih => rw [ofItems, ih, List.map_cons]

theorem ofMembers_eq_map (members : List (String × Json)) :
    ofMembers members = members.map fun member => (some member.1, ofJson member.2) := by
  induction members with
  | nil => rfl
  | cons member rest ih => rw [ofMembers, ih, List.map_cons]

variable {embedded? : String → Option Json}

theorem itemsToJson?_ofItems {items : List Json}
    (h : ∀ item ∈ items, (ofJson item).toJson? embedded? = some item.sorted) :
    itemsToJson? embedded? (ofItems items) = some (Json.sortedItems items) := by
  induction items with
  | nil => rfl
  | cons item rest ih =>
    rw [ofItems, itemsToJson?, h item List.mem_cons_self,
      ih fun other member => h other (List.mem_cons_of_mem _ member)]
    rfl

theorem membersToJson?_ofMembers {members : List (String × Json)}
    (h : ∀ member ∈ members, (ofJson member.2).toJson? embedded? = some member.2.sorted) :
    membersToJson? embedded? (ofMembers members) = some (Json.sortedMembers members) := by
  induction members with
  | nil => rfl
  | cons member rest ih =>
    rw [ofMembers, membersToJson?, h member List.mem_cons_self,
      ih fun other hother => h other (List.mem_cons_of_mem _ hother)]
    rfl

/-- Reading a value back sorts its members, if none of them has the reserved name. -/
theorem toJson?_ofJson {value : Json} (plain : (ofJson value).isPlain = true) :
    (ofJson value).toJson? embedded? = some value.sorted := by
  induction value using Json.induct with
  | array items ih =>
    rw [ofJson, ofItems_eq_map, isPlain_array_iff, List.forall_mem_map] at plain
    rw [ofJson, toJson?, itemsToJson?_ofItems fun item member => ih item member (plain item member)]
    rfl
  | object members ih =>
    have hembeds : isEmbedding (ofMembers members) = false := isEmbedding_of_isPlain plain
    rw [ofJson, ofMembers_eq_map, isPlain_object_iff, List.forall_mem_map] at plain
    rw [ofJson, toJson?, hembeds, membersToJson?_ofMembers fun member hmember =>
      ih member hmember (plain member hmember).2]
    rfl
  | _ => rfl

/-- A value that is read from a document without reserved names has none either. -/
theorem isPlain_of_toJson? {document : Document} (plain : document.isPlain = true) {value : Json}
    (h : document.toJson? embedded? = some value) : (ofJson value).isPlain = true := by
  induction document using Document.induct generalizing value with
  | array items ih =>
    obtain ⟨values, hvalues, rfl⟩ := Option.map_eq_some_iff.mp h
    rw [isPlain_array_iff] at plain
    rw [ofJson, ofItems_eq_map, isPlain_array_iff, List.forall_mem_map]
    intro other member
    obtain ⟨item, hitem, hother⟩ := exists_of_itemsToJson? hvalues member
    exact ih item hitem (plain item hitem) hother
  | object members ih =>
    have hembeds := isEmbedding_of_isPlain plain
    rcases toJson?_object_eq_some_iff.mp h with ⟨htrue, _⟩ | ⟨_, values, hvalues, rfl⟩
    · rw [hembeds] at htrue
      cases htrue
    · rw [isPlain_object_iff] at plain
      rw [ofJson, ofMembers_eq_map, isPlain_object_iff, List.forall_mem_map]
      intro other member
      obtain ⟨named, hnamed, hname, hother⟩ :=
        exists_of_membersToJson? hvalues (Json.mem_sortMembers member)
      obtain ⟨hne, hplain⟩ := plain named hnamed
      exact ⟨hname ▸ hne, ih named hnamed hplain hother⟩
  | unreadable => cases h
  | malformed => cases h
  | _ =>
    cases h
    rfl

end Document

theorem Wire.Decoder.json_eq_ok_iff {document : Document} {value : Json} :
    Wire.Decoder.json document = .ok value ↔ document.toJson? Json.parse? = some value := by
  rw [Wire.Decoder.json]
  cases document.toJson? Json.parse? with
  | none => simp
  | some read => simp

namespace Json

/-- A value that is read back is in normal form. -/
theorem ReadsBack.sorted_eq {value : Json} (h : value.ReadsBack) : value.sorted = value :=
  Document.sorted_of_toJson? (fun _ _ => sorted_of_parse?) (Wire.Decoder.json_eq_ok_iff.mp h)

/-- Without reserved names, the values in normal form are read back. -/
theorem readsBack_iff_sorted {value : Json} (plain : (Document.ofJson value).isPlain = true) :
    value.ReadsBack ↔ value.sorted = value := by
  rw [ReadsBack, Wire.Decoder.json_eq_ok_iff, Document.toJson?_ofJson plain, Option.some.injEq]

/-- What is decoded from a document without reserved names is read back. -/
theorem readsBack_of_isPlain {document : Document} (plain : document.isPlain = true)
    {value : Json} (h : Wire.Decoder.json document = .ok value) : value.ReadsBack := by
  have hread := Wire.Decoder.json_eq_ok_iff.mp h
  rw [readsBack_iff_sorted (Document.isPlain_of_toJson? plain hread)]
  exact Document.sorted_of_toJson? (fun _ _ => sorted_of_parse?) hread

/-- An object that looks like an embedded text is read as the value of the text. -/
example : Wire.Decoder.json (Document.ofJson (.object [(Document.embeddingName, .string "7")])) =
    .ok (.number (.integer 7)) := rfl

end Json

end FilterSql
