import FilterSql.Proofs.Condition.Naming
import FilterSql.Proofs.Json.Sorted
import FilterSql.Wire.Filter

/-!
# Filters on the wire

Operators and logic words are written by their names. A filter is canonical when no name
that is known stands in it as an unknown one; then reading the names again gives the same
operators and words.

Results:
* `Wire.isCanonical_of_decodeFilter`: every filter that is decoded is canonical.
* `Wire.decodeFilter_encodeFilter_iff`: the filters that are decoded from what they are
  encoded to.
* `Wire.sorted_encodeFilter`, `Wire.decodeFilter_sorted_iff`: filters are encoded with their
  members in order.
-/

namespace FilterSql

/-! ## Specification -/

/-- An unknown operator has none of the known names. -/
def Operator.IsCanonical (operator : Operator) : Prop :=
  ∀ name, operator = .unknown name → ∀ known ∈ Operator.all, known.name ≠ name

/-- An unknown logic word is none of the known words. -/
def Logic.IsCanonical (logic : Logic) : Prop :=
  ∀ word, logic = .unknown word → ∀ connective : Connective, connective.word ≠ word

/-- No name that is known stands in a filter as an unknown one. -/
inductive Filter.IsCanonical : Filter → Prop where
  | test {predicate : Predicate} (operator : ∀ known ∈ predicate.operator, known.IsCanonical) :
      IsCanonical (.test predicate)
  | group {logic : Logic} {children : List Filter} (word : logic.IsCanonical)
      (each : ∀ child ∈ children, child.IsCanonical) : IsCanonical (.group logic children)

/-- Every operand of a filter is read back as it is. -/
def Filter.ReadsOperands (filter : Filter) : Prop :=
  ∀ predicate ∈ filter.predicates, predicate.value.ReadsBack

/-- A filter is built by constructors that take operators and logic words by name. -/
inductive Filter.IsNamed : Filter → Prop where
  | predicate (field name : String) (value : Json) : IsNamed (.compare field (.ofName name) value)
  | keyword (value : Json) : IsNamed (.keyword value)
  | group (word : String) {children : List Filter} (each : ∀ child ∈ children, child.IsNamed) :
      IsNamed (.group (.ofWord word) children)

/-! ## Names -/

theorem Operator.isCanonical_ofName (name : String) : (ofName name).IsCanonical := by
  intro other hother known hknown
  rw [ofName] at hother
  cases hfind : all.find? fun operator => operator.name == name with
  | none =>
    rw [hfind, Option.getD_none] at hother
    cases hother
    simpa using List.find?_eq_none.mp hfind known hknown
  | some found =>
    rw [hfind, Option.getD_some] at hother
    have hall : ∀ operator ∈ all, operator.isKnown = true := by decide
    have hfound := hall found (List.mem_of_find?_eq_some hfind)
    rw [hother] at hfound
    cases hfound

/-- Canonical operators are given by their names. -/
theorem Operator.ofName_name_iff {operator : Operator} :
    ofName operator.name = operator ↔ operator.IsCanonical := by
  constructor
  · intro h
    rw [← h]
    exact isCanonical_ofName _
  · intro canonical
    cases operator with
    | unknown name =>
      have hfind : all.find? (fun operator => operator.name == name) = none := by
        rw [List.find?_eq_none]
        intro known hknown
        simpa using canonical name rfl known hknown
      rw [Operator.name, ofName, hfind]
      rfl
    | order relation => cases relation <;> rfl
    | _ => rfl

theorem Logic.isCanonical_ofWord (word : String) : (ofWord word).IsCanonical := by
  intro other hother connective
  rw [ofWord] at hother
  split_ifs at hother with hand hor
  cases hother
  cases connective with
  | and => exact Ne.symm hand
  | or => exact Ne.symm hor

/-- Canonical logic words are given by their words. -/
theorem Logic.ofWord_word_iff {logic : Logic} : ofWord logic.word = logic ↔ logic.IsCanonical := by
  constructor
  · intro h
    rw [← h]
    exact isCanonical_ofWord _
  · intro canonical
    cases logic with
    | known connective => cases connective <;> rfl
    | unknown word =>
      have hword := canonical word rfl
      rw [Logic.word, ofWord, if_neg (hword .and).symm, if_neg (hword .or).symm]

namespace Filter

/-- What is built from names is canonical. -/
theorem IsNamed.isCanonical {filter : Filter} (h : filter.IsNamed) : filter.IsCanonical := by
  induction h with
  | predicate field name value =>
    refine .test ?_
    rintro _ ⟨⟩
    exact Operator.isCanonical_ofName name
  | keyword value => exact .test nofun
  | group word _ ih => exact .group (Logic.isCanonical_ofWord word) ih

theorem isCanonical_test_iff {predicate : Predicate} :
    (Filter.test predicate).IsCanonical ↔
      ∀ operator ∈ predicate.operator, operator.IsCanonical := by
  refine ⟨?_, .test⟩
  rintro ⟨h⟩
  exact h

theorem isCanonical_group_iff {logic : Logic} {children : List Filter} :
    (Filter.group logic children).IsCanonical ↔
      logic.IsCanonical ∧ ∀ child ∈ children, child.IsCanonical := by
  refine ⟨?_, fun h => .group h.1 h.2⟩
  rintro ⟨⟩
  exact ⟨‹_›, ‹_›⟩

theorem mem_childPredicates {children : List Filter} {predicate : Predicate} :
    predicate ∈ childPredicates children ↔ ∃ child ∈ children, predicate ∈ child.predicates := by
  induction children with
  | nil => simp [childPredicates]
  | cons child rest ih => simp [childPredicates, ih]

theorem readsOperands_test_iff {predicate : Predicate} :
    (Filter.test predicate).ReadsOperands ↔ predicate.value.ReadsBack :=
  List.forall_mem_singleton

theorem readsOperands_group_iff {logic : Logic} {children : List Filter} :
    (Filter.group logic children).ReadsOperands ↔ ∀ child ∈ children, child.ReadsOperands := by
  constructor
  · intro h child member predicate hpredicate
    exact h predicate (mem_childPredicates.mpr ⟨child, member, hpredicate⟩)
  · intro h predicate hpredicate
    obtain ⟨child, member, hchild⟩ := mem_childPredicates.mp hpredicate
    exact h child member predicate hchild

end Filter

/-! ## Decoded filters -/

/-- A canonical filter whose operands have a property. -/
structure Filter.Sound (V : Json → Prop) (filter : Filter) : Prop where
  canonical : filter.IsCanonical
  operands : ∀ predicate ∈ filter.predicates, V predicate.value

theorem Filter.Sound.group {V : Json → Prop} {logic : Logic} {children : List Filter}
    (word : logic.IsCanonical) (each : ∀ child ∈ children, child.Sound V) :
    (Filter.group logic children).Sound V where
  canonical := .group word fun child member => (each child member).canonical
  operands := by
    intro predicate hpredicate
    obtain ⟨child, member, hchild⟩ := mem_childPredicates.mp hpredicate
    exact (each child member).operands predicate hchild

namespace Wire

theorem once_eq_ok_iff {α : Type} {given : Option α} {value : Except WireError α}
    {result : Option α} :
    once given value = .ok result ↔
      given = none ∧ ∃ read, value = .ok read ∧ result = some read := by
  cases given with
  | none => cases value <;> simp [once, eq_comm]
  | some earlier => simp [once]

theorem ignore_eq_ok_iff {α : Type} {record result : α} {document : Document} :
    ignore record document = .ok result ↔ document.wellFormed = true ∧ result = record := by
  rw [ignore]
  split_ifs with h <;> simp [h, eq_comm]

theorem Decoder.optional_eq_ok {α : Type} {decoder : Decoder α} {document : Document}
    {result : Option α} (h : Decoder.optional decoder document = .ok result) :
    ∀ value ∈ result, decoder document = .ok value := by
  intro value hvalue
  rw [hvalue] at h
  unfold Decoder.optional at h
  split at h
  · cases h
  · cases hdecode : decoder document with
    | error e => rw [hdecode] at h; cases h
    | ok other => rw [hdecode] at h; cases h; rfl

/-- Documents of a kind that their parts share, and a property of the values of all of
them. -/
structure Reads (D : Document → Prop) (V : Json → Prop) : Prop where
  items : ∀ {items}, D (.array items) → ∀ item ∈ items, D item
  members : ∀ {members}, D (.object members) → ∀ named ∈ members, D named.2
  value : ∀ {document value}, D document → Decoder.json document = .ok value → V value
  null : V .null

/-- What has been read of a node is canonical. -/
structure NodeParts.Sound (V : Json → Prop) (parts : NodeParts) : Prop where
  operator : ∀ operator ∈ parts.operator.join, operator.IsCanonical
  value : ∀ value ∈ parts.value, V value
  group : ∀ group ∈ parts.group.join, group.Sound V

/-- What has been read of a group is canonical. -/
structure GroupParts.Sound (V : Json → Prop) (parts : GroupParts) : Prop where
  logic : ∀ logic ∈ parts.logic, logic.IsCanonical
  children : ∀ children ∈ parts.children, ∀ child ∈ children, child.Sound V

variable {D : Document → Prop} {V : Json → Prop}

theorem NodeParts.Sound.empty : ({} : NodeParts).Sound V :=
  ⟨nofun, nofun, nofun⟩

theorem GroupParts.Sound.empty : ({} : GroupParts).Sound V :=
  ⟨nofun, nofun⟩

theorem NodeParts.Sound.withGroup {parts : NodeParts} (sound : parts.Sound V)
    {group : Option Filter} (h : ∀ filter ∈ group, filter.Sound V) :
    ({ parts with group := some group } : NodeParts).Sound V :=
  ⟨sound.operator, sound.value, h⟩

theorem GroupParts.Sound.withChildren {parts : GroupParts} (sound : parts.Sound V)
    {children : List Filter} (h : ∀ child ∈ children, child.Sound V) :
    ({ parts with children := some children } : GroupParts).Sound V := by
  refine ⟨sound.logic, ?_⟩
  rintro _ ⟨⟩
  exact h

theorem isCanonical_of_decodeOperator {document : Document} {operator : Operator}
    (h : decodeOperator document = .ok operator) : operator.IsCanonical := by
  obtain ⟨name, _, rfl⟩ := map_eq_ok_iff.mp h
  exact Operator.isCanonical_ofName name

theorem NodeParts.Sound.put (reads : Reads D V) {parts result : NodeParts} (sound : parts.Sound V)
    {name : Option String} {document : Document} (hD : D document)
    (h : parts.put name document = .ok result) : result.Sound V := by
  unfold NodeParts.put at h
  split at h
  · obtain ⟨field, hfield, h⟩ := bind_eq_ok_iff.mp h
    cases h
    exact ⟨sound.operator, sound.value, sound.group⟩
  · obtain ⟨operator, hoperator, h⟩ := bind_eq_ok_iff.mp h
    obtain ⟨_, read, hread, rfl⟩ := once_eq_ok_iff.mp hoperator
    cases h
    refine ⟨fun operator member => ?_, sound.value, sound.group⟩
    exact isCanonical_of_decodeOperator (Decoder.optional_eq_ok hread operator member)
  · obtain ⟨value, hvalue, h⟩ := bind_eq_ok_iff.mp h
    obtain ⟨_, read, hread, rfl⟩ := once_eq_ok_iff.mp hvalue
    cases h
    refine ⟨sound.operator, ?_, sound.group⟩
    rintro _ ⟨⟩
    exact reads.value hD hread
  · rw [(ignore_eq_ok_iff.mp h).2]
    exact sound
  · cases h

theorem NodeParts.Sound.toFilter (reads : Reads D V) {parts : NodeParts} (sound : parts.Sound V)
    {filter : Filter} (h : parts.toFilter = .ok filter) : filter.Sound V := by
  rw [NodeParts.toFilter] at h
  cases hgroup : parts.group.join with
  | some group =>
    rw [hgroup] at h
    cases h
    exact sound.group _ hgroup
  | none =>
    cases hfield : parts.field.join with
    | none =>
      rw [hgroup, hfield] at h
      cases h
    | some field =>
      rw [hgroup, hfield] at h
      cases h
      refine ⟨.test sound.operator, fun predicate member => ?_⟩
      rw [List.mem_singleton.mp member]
      cases hvalue : parts.value with
      | none => exact reads.null
      | some value => exact sound.value value hvalue

theorem GroupParts.Sound.put {parts result : GroupParts} (sound : parts.Sound V)
    {name : Option String} {document : Document} (h : parts.put name document = .ok result) :
    result.Sound V := by
  unfold GroupParts.put at h
  split at h
  · obtain ⟨logic, hlogic, h⟩ := bind_eq_ok_iff.mp h
    obtain ⟨_, read, hread, rfl⟩ := once_eq_ok_iff.mp hlogic
    cases h
    refine ⟨?_, sound.children⟩
    rintro _ ⟨⟩
    obtain ⟨word, _, rfl⟩ := map_eq_ok_iff.mp hread
    exact Logic.isCanonical_ofWord word
  · rw [(ignore_eq_ok_iff.mp h).2]
    exact sound
  · cases h

theorem GroupParts.Sound.toFilter {parts : GroupParts} (sound : parts.Sound V) {filter : Filter}
    (h : parts.toFilter = .ok filter) : filter.Sound V := by
  obtain ⟨logic, hlogic, h⟩ := bind_eq_ok_iff.mp h
  cases h
  cases hword : parts.logic with
  | none =>
    rw [hword] at hlogic
    cases hlogic
  | some word =>
    rw [hword] at hlogic
    cases hlogic
    refine .group (sound.logic _ hword) fun child member => ?_
    cases hchildren : parts.children with
    | none =>
      rw [hchildren] at member
      cases member
    | some children =>
      rw [hchildren] at member
      exact sound.children children hchildren child member

mutual

theorem sound_of_decodeFilter (reads : Reads D V) : ∀ (document : Document) (filter : Filter),
    D document → decodeFilter document = .ok filter → filter.Sound V
  | .object members, _, hD, h => by
    rw [decodeFilter] at h
    obtain ⟨parts, hparts, h⟩ := bind_eq_ok_iff.mp h
    exact (sound_of_decodeNodeMembers reads members _ parts (reads.members hD) .empty
      hparts).toFilter reads h
  | .array items, filter, hD, h => by
    rw [decodeFilter] at h
    obtain ⟨parts, hparts, h⟩ := bind_eq_ok_iff.mp h
    split_ifs at h
    exact (sound_of_decodeNodeItems reads items _ _ parts (reads.items hD) .empty
      hparts).toFilter reads h
  | .null, _, _, h | .bool _, _, _, h | .number _, _, _, h | .string _, _, _, h
  | .unreadable, _, _, h | .malformed, _, _, h => by
    simp [decodeFilter] at h

theorem sound_of_decodeNodeMembers (reads : Reads D V) :
    ∀ (members : List (Option String × Document)) (parts result : NodeParts),
      (∀ named ∈ members, D named.2) → parts.Sound V →
      decodeNodeMembers parts members = .ok result → result.Sound V
  | [], parts, _, _, sound, h => by
    cases h
    exact sound
  | (name, document) :: rest, parts, result, hD, sound, h => by
    have hdocument := hD _ List.mem_cons_self
    have hrest := fun named member => hD named (List.mem_cons_of_mem _ member)
    rw [decodeNodeMembers] at h
    split_ifs at h with hname
    · obtain ⟨group, hgroup, h⟩ := bind_eq_ok_iff.mp h
      obtain ⟨_, read, hread, rfl⟩ := once_eq_ok_iff.mp hgroup
      exact sound_of_decodeNodeMembers reads rest _ result hrest
        (sound.withGroup (sound_of_decodeGroup? reads document read hdocument hread)) h
    · obtain ⟨next, hnext, h⟩ := bind_eq_ok_iff.mp h
      exact sound_of_decodeNodeMembers reads rest next result hrest
        (sound.put reads hdocument hnext) h

theorem sound_of_decodeNodeItems (reads : Reads D V) :
    ∀ (items : List Document) (names : List String) (parts result : NodeParts),
      (∀ item ∈ items, D item) → parts.Sound V →
      decodeNodeItems names parts items = .ok result → result.Sound V
  | [], _, parts, _, _, sound, h => by
    cases h
    exact sound
  | document :: rest, [], parts, _, _, sound, h => by
    cases h
    exact sound
  | document :: rest, name :: names, parts, result, hD, sound, h => by
    have hdocument := hD _ List.mem_cons_self
    have hrest := fun item member => hD item (List.mem_cons_of_mem _ member)
    rw [decodeNodeItems] at h
    split_ifs at h with hname
    · obtain ⟨group, hgroup, h⟩ := bind_eq_ok_iff.mp h
      obtain ⟨_, read, hread, rfl⟩ := once_eq_ok_iff.mp hgroup
      exact sound_of_decodeNodeItems reads rest names _ result hrest
        (sound.withGroup (sound_of_decodeGroup? reads document read hdocument hread)) h
    · obtain ⟨next, hnext, h⟩ := bind_eq_ok_iff.mp h
      exact sound_of_decodeNodeItems reads rest names next result hrest
        (sound.put reads hdocument hnext) h

theorem sound_of_decodeGroup? (reads : Reads D V) :
    ∀ (document : Document) (result : Option Filter), D document →
      decodeGroup? document = .ok result → ∀ filter ∈ result, filter.Sound V
  | .null, _, _, h => by
    cases h
    nofun
  | .object members, _, hD, h => by
    rw [decodeGroup?] at h
    obtain ⟨parts, hparts, h⟩ := bind_eq_ok_iff.mp h
    obtain ⟨filter, hfilter, h⟩ := bind_eq_ok_iff.mp h
    cases h
    rintro _ ⟨⟩
    exact (sound_of_decodeGroupMembers reads members _ parts (reads.members hD) .empty
      hparts).toFilter hfilter
  | .array items, _, hD, h => by
    rw [decodeGroup?] at h
    obtain ⟨parts, hparts, h⟩ := bind_eq_ok_iff.mp h
    split_ifs at h
    obtain ⟨filter, hfilter, h⟩ := bind_eq_ok_iff.mp h
    cases h
    rintro _ ⟨⟩
    exact (sound_of_decodeGroupItems reads items _ _ parts (reads.items hD) .empty
      hparts).toFilter hfilter
  | .bool _, _, _, h | .number _, _, _, h | .string _, _, _, h
  | .unreadable, _, _, h | .malformed, _, _, h => by
    simp [decodeGroup?] at h

theorem sound_of_decodeGroupMembers (reads : Reads D V) :
    ∀ (members : List (Option String × Document)) (parts result : GroupParts),
      (∀ named ∈ members, D named.2) → parts.Sound V →
      decodeGroupMembers parts members = .ok result → result.Sound V
  | [], parts, _, _, sound, h => by
    cases h
    exact sound
  | (name, document) :: rest, parts, result, hD, sound, h => by
    have hrest := fun named member => hD named (List.mem_cons_of_mem _ member)
    rw [decodeGroupMembers] at h
    split_ifs at h with hname
    · obtain ⟨children, hchildren, h⟩ := bind_eq_ok_iff.mp h
      obtain ⟨_, read, hread, rfl⟩ := once_eq_ok_iff.mp hchildren
      have hchildren := sound_of_decodeFilters reads document read (hD _ List.mem_cons_self) hread
      exact sound_of_decodeGroupMembers reads rest _ result hrest (sound.withChildren hchildren) h
    · obtain ⟨next, hnext, h⟩ := bind_eq_ok_iff.mp h
      exact sound_of_decodeGroupMembers reads rest next result hrest (sound.put hnext) h

theorem sound_of_decodeGroupItems (reads : Reads D V) :
    ∀ (items : List Document) (names : List String) (parts result : GroupParts),
      (∀ item ∈ items, D item) → parts.Sound V →
      decodeGroupItems names parts items = .ok result → result.Sound V
  | [], _, parts, _, _, sound, h => by
    cases h
    exact sound
  | document :: rest, [], parts, _, _, sound, h => by
    cases h
    exact sound
  | document :: rest, name :: names, parts, result, hD, sound, h => by
    have hrest := fun item member => hD item (List.mem_cons_of_mem _ member)
    rw [decodeGroupItems] at h
    split_ifs at h with hname
    · obtain ⟨children, hchildren, h⟩ := bind_eq_ok_iff.mp h
      obtain ⟨_, read, hread, rfl⟩ := once_eq_ok_iff.mp hchildren
      have hchildren := sound_of_decodeFilters reads document read (hD _ List.mem_cons_self) hread
      exact sound_of_decodeGroupItems reads rest names _ result hrest (sound.withChildren hchildren)
        h
    · obtain ⟨next, hnext, h⟩ := bind_eq_ok_iff.mp h
      exact sound_of_decodeGroupItems reads rest names next result hrest (sound.put hnext) h

theorem sound_of_decodeFilters (reads : Reads D V) :
    ∀ (document : Document) (filters : List Filter), D document →
      decodeFilters document = .ok filters → ∀ filter ∈ filters, filter.Sound V
  | .array items, filters, hD, h =>
    sound_of_decodeFilterItems reads items filters (reads.items hD) h
  | .null, _, _, h | .bool _, _, _, h | .number _, _, _, h | .string _, _, _, h
  | .object _, _, _, h | .unreadable, _, _, h | .malformed, _, _, h => by
    simp [decodeFilters] at h

theorem sound_of_decodeFilterItems (reads : Reads D V) :
    ∀ (items : List Document) (filters : List Filter), (∀ item ∈ items, D item) →
      decodeFilterItems items = .ok filters → ∀ filter ∈ filters, filter.Sound V
  | [], _, _, h => by
    cases h
    nofun
  | item :: rest, _, hD, h => by
    rw [decodeFilterItems] at h
    obtain ⟨first, hfirst, h⟩ := bind_eq_ok_iff.mp h
    obtain ⟨others, hothers, h⟩ := bind_eq_ok_iff.mp h
    cases h
    rw [List.forall_mem_cons]
    exact ⟨sound_of_decodeFilter reads item first (hD _ List.mem_cons_self) hfirst,
      sound_of_decodeFilterItems reads rest others
        (fun other member => hD other (List.mem_cons_of_mem _ member)) hothers⟩

end

theorem reads_any : Reads (fun _ => True) (fun _ => True) :=
  ⟨fun _ _ _ => trivial, fun _ _ _ => trivial, fun _ _ => trivial, trivial⟩

theorem reads_isPlain : Reads (fun document => document.isPlain = true) Json.ReadsBack where
  items := Document.isPlain_array_iff.mp
  members plain named member := (Document.isPlain_object_iff.mp plain named member).2
  value plain h := Json.readsBack_of_isPlain plain h
  null := rfl

/-- Every value that is decoded is in normal form. -/
theorem reads_sorted : Reads (fun _ => True) (fun value => value.sorted = value) where
  items _ _ _ := trivial
  members _ _ _ := trivial
  value _ h := Document.sorted_of_toJson? (fun _ _ => Json.sorted_of_parse?)
    (Decoder.json_eq_ok_iff.mp h)
  null := rfl

/-- Every filter that is decoded is canonical. -/
theorem isCanonical_of_decodeFilter {document : Document} {filter : Filter}
    (h : decodeFilter document = .ok filter) : filter.IsCanonical :=
  (sound_of_decodeFilter reads_any document filter trivial h).canonical

/-! ## Encoded filters -/

/-- The last member of a predicate is its value. -/
theorem decodeNodeMembers_value (parts : NodeParts) (h : parts.value = none)
    (document : Document) :
    (do (← decodeNodeMembers parts [(some "value", document)]).toFilter) = (do
      let value ← Decoder.json document
      ({ parts with value := some value } : NodeParts).toFilter) := by
  rw [decodeNodeMembers, if_neg (by decide), NodeParts.put, h]
  cases Decoder.json document <;> rfl

/-- A predicate is read back with its operator given by name. -/
theorem decodeFilter_encodePredicate (predicate : Predicate) :
    decodeFilter (Document.ofJson (encodePredicate predicate)) = (do
      let value ← Decoder.json (Document.ofJson predicate.value)
      return .test ⟨predicate.field, predicate.operator.map fun operator => .ofName operator.name,
        value⟩) := by
  obtain ⟨field, operator, value⟩ := predicate
  cases null : value.isNull with
  | true =>
    obtain rfl : value = .null := by
      cases value with
      | null => rfl
      | _ => cases null
    cases operator <;> rfl
  | false =>
    rw [encodePredicate, null]
    cases operator with
    | none => exact decodeNodeMembers_value { field := some (some field) } rfl _
    | some operator =>
      exact decodeNodeMembers_value
        { field := some (some field), operator := some (some (.ofName operator.name)) } rfl _

/-- A group is read back with its logic given by the word. -/
theorem decodeFilter_encodeGroup (logic : Logic) (children : List Filter) :
    decodeFilter (Document.ofJson (encodeFilter (.group logic children))) = (do
      let read ← decodeFilterItems (Document.ofItems (encodeFilters children))
      return .group (.ofWord logic.word) read) := by
  have hchildren : decodeFilters (.array (Document.ofItems (encodeFilters children))) =
      decodeFilterItems (Document.ofItems (encodeFilters children)) := by
    rw [decodeFilters]
  have hgroup : decodeGroup? (.object [(some "logic", .string logic.word),
        (some "subFilters", .array (Document.ofItems (encodeFilters children)))]) = (do
      let read ← decodeFilterItems (Document.ofItems (encodeFilters children))
      return some (.group (.ofWord logic.word) read)) := by
    rw [decodeGroup?, decodeGroupMembers, if_neg (by decide)]
    show (do
      let parts ← decodeGroupMembers { logic := some (.ofWord logic.word) }
        [(some "subFilters", .array (Document.ofItems (encodeFilters children)))]
      return some (← parts.toFilter)) = _
    rw [decodeGroupMembers, if_pos rfl, hchildren]
    cases decodeFilterItems (Document.ofItems (encodeFilters children)) <;> rfl
  show (do
    let parts ← decodeNodeMembers {} [(some "filter", .object [(some "logic", .string logic.word),
      (some "subFilters", .array (Document.ofItems (encodeFilters children)))])]
    parts.toFilter) = _
  rw [decodeNodeMembers, if_pos rfl, hgroup]
  cases decodeFilterItems (Document.ofItems (encodeFilters children)) <;> rfl

theorem decodeFilterItems_encodeFilters_iff {children : List Filter} :
    decodeFilterItems (Document.ofItems (encodeFilters children)) = .ok children ↔
      ∀ child ∈ children, decodeFilter (Document.ofJson (encodeFilter child)) = .ok child := by
  induction children with
  | nil => exact ⟨fun _ => nofun, fun _ => rfl⟩
  | cons child rest ih =>
    rw [List.forall_mem_cons, ← ih, encodeFilters, Document.ofItems, decodeFilterItems,
      bind_eq_ok_iff]
    constructor
    · rintro ⟨first, hfirst, h⟩
      obtain ⟨others, hothers, h⟩ := bind_eq_ok_iff.mp h
      cases h
      exact ⟨hfirst, hothers⟩
    · rintro ⟨hfirst, hothers⟩
      refine ⟨child, hfirst, ?_⟩
      rw [hothers]
      rfl

theorem decodeFilter_encodePredicate_iff {predicate : Predicate} :
    decodeFilter (Document.ofJson (encodePredicate predicate)) = .ok (.test predicate) ↔
      (∀ operator ∈ predicate.operator, operator.IsCanonical) ∧ predicate.value.ReadsBack := by
  obtain ⟨field, operator, value⟩ := predicate
  have hoperator : operator.map (fun operator => Operator.ofName operator.name) = operator ↔
      ∀ known ∈ operator, known.IsCanonical := by
    cases operator with
    | none => exact ⟨fun _ => nofun, fun _ => rfl⟩
    | some known => simp [Operator.ofName_name_iff]
  rw [decodeFilter_encodePredicate, bind_eq_ok_iff, ← hoperator]
  constructor
  · rintro ⟨read, hread, h⟩
    injection h with h
    injection h with h
    injection h with _ hsame hvalue
    subst hvalue
    exact ⟨hsame, hread⟩
  · rintro ⟨hsame, hread⟩
    refine ⟨value, hread, ?_⟩
    rw [hsame]
    rfl

/-- A filter is decoded from what it is encoded to exactly when it is canonical and its
operands are read back. -/
theorem decodeFilter_encodeFilter_iff {filter : Filter} :
    decodeFilter (Document.ofJson (encodeFilter filter)) = .ok filter ↔
      filter.IsCanonical ∧ filter.ReadsOperands := by
  have hgroup : ∀ (logic : Logic) (children : List Filter),
      (∀ child ∈ children, decodeFilter (Document.ofJson (encodeFilter child)) = .ok child ↔
        child.IsCanonical ∧ child.ReadsOperands) →
      (decodeFilter (Document.ofJson (encodeFilter (.group logic children))) =
          .ok (.group logic children) ↔
        (Filter.group logic children).IsCanonical ∧
          (Filter.group logic children).ReadsOperands) := by
    intro logic children ih
    have hchildren := decodeFilterItems_encodeFilters_iff.trans (forall₂_congr ih)
    rw [decodeFilter_encodeGroup, bind_eq_ok_iff, Filter.isCanonical_group_iff,
      Filter.readsOperands_group_iff, and_assoc, ← forall₂_and, ← hchildren,
      ← Logic.ofWord_word_iff]
    constructor
    · rintro ⟨read, hread, h⟩
      injection h with h
      injection h with hword hsame
      subst hsame
      exact ⟨hword, hread⟩
    · rintro ⟨hword, hread⟩
      refine ⟨children, hread, ?_⟩
      rw [hword]
      rfl
  induction filter using Filter.induct with
  | test predicate =>
    rw [Filter.isCanonical_test_iff, Filter.readsOperands_test_iff]
    exact decodeFilter_encodePredicate_iff
  | single logic only ih => exact hgroup logic [only] (by simpa using ih)
  | group logic children _ ih => exact hgroup logic children ih

/-! ## Members in order -/

theorem encodeFilters_eq_map (filters : List Filter) :
    encodeFilters filters = filters.map encodeFilter := by
  induction filters with
  | nil => rfl
  | cons filter rest ih => rw [encodeFilters, ih, List.map_cons]

/-- Predicates are encoded with their members in order. -/
theorem sorted_encodePredicate {predicate : Predicate}
    (h : predicate.value.sorted = predicate.value) :
    (encodePredicate predicate).sorted = encodePredicate predicate := by
  obtain ⟨field, operator, value⟩ := predicate
  rw [encodePredicate]
  refine Json.sorted_object ?_ fun member hmember => ?_
  · cases operator with
    | none =>
      cases value.isNull with
      | true => exact Json.inOrder_of_names ["field"] rfl (by decide)
      | false => exact Json.inOrder_of_names ["field", "value"] rfl (by decide)
    | some operator =>
      cases value.isNull with
      | true => exact Json.inOrder_of_names ["field", "operator"] rfl (by decide)
      | false => exact Json.inOrder_of_names ["field", "operator", "value"] rfl (by decide)
  · simp only [List.mem_append, List.mem_cons, Option.mem_toList, Option.map_eq_some_iff,
      Option.ite_none_left_eq_some, Option.some.injEq] at hmember
    rcases hmember with (rfl | ⟨operator, _, rfl⟩) | ⟨_, rfl⟩
    · rfl
    · rfl
    · exact h

/-- Filters are encoded with their members in order, when the members of their operands are. -/
theorem sorted_encodeFilter {filter : Filter}
    (h : ∀ predicate ∈ filter.predicates, predicate.value.sorted = predicate.value) :
    (encodeFilter filter).sorted = encodeFilter filter := by
  have hgroup : ∀ (logic : Logic) (children : List Filter),
      (∀ child ∈ children, (encodeFilter child).sorted = encodeFilter child) →
      (encodeFilter (.group logic children)).sorted = encodeFilter (.group logic children) := by
    intro logic children ih
    have hchildren : (Json.array (encodeFilters children)).sorted =
        .array (encodeFilters children) := by
      apply Json.sorted_array
      rw [encodeFilters_eq_map, List.forall_mem_map]
      exact ih
    rw [encodeFilter]
    refine Json.sorted_object (Json.inOrder_of_names ["filter"] rfl (by decide)) ?_
    rw [List.forall_mem_singleton]
    refine Json.sorted_object (Json.inOrder_of_names ["logic", "subFilters"] rfl (by decide)) ?_
    rw [List.forall_mem_cons, List.forall_mem_singleton]
    exact ⟨rfl, hchildren⟩
  induction filter using Filter.induct with
  | test predicate => exact sorted_encodePredicate (h _ (List.mem_singleton_self _))
  | single logic only ih =>
    refine hgroup logic [only] ?_
    rw [List.forall_mem_singleton]
    exact ih fun predicate member => h predicate (Filter.mem_childPredicates.mpr
      ⟨only, List.mem_singleton_self _, member⟩)
  | group logic children _ ih =>
    exact hgroup logic children fun child member => ih child member fun predicate hpredicate =>
      h predicate (Filter.mem_childPredicates.mpr ⟨child, member, hpredicate⟩)

theorem decodeFilter_sorted_iff {filter : Filter} :
    decodeFilter (Document.ofJson (encodeFilter filter).sorted) = .ok filter ↔
      filter.IsCanonical ∧ filter.ReadsOperands := by
  constructor
  · intro h
    have hsorted := (sound_of_decodeFilter reads_sorted _ _ trivial h).operands
    rw [sorted_encodeFilter hsorted] at h
    exact decodeFilter_encodeFilter_iff.mp h
  · intro h
    rw [sorted_encodeFilter fun predicate member => (h.2 predicate member).sorted_eq]
    exact decodeFilter_encodeFilter_iff.mpr h

end Wire

end FilterSql
