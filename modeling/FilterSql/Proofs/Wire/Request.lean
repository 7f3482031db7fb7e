import FilterSql.Proofs.Wire.Filter
import FilterSql.Wire.Request

/-!
# Page requests on the wire

A request is written with all of its parts. However a request was spelled, the words of its
directions are read into the same few values, so that writing them out and reading them again
changes nothing. The parts are listed in one order when they are written to a text, and in the
order of their names when they are written to a value.

Results:
* `Wire.sound_of_decodeRequest`: every page request that is decoded is canonical.
* `Wire.decodeRequest_encodeRequest_iff`, `Wire.decodeRequest_sorted_iff`: the page requests
  that are decoded from what they are encoded to, in either order.
* `requests_survive_the_wire`: what is decoded is canonical, and what is canonical is given
  back by its wire form, whole requests and single filters alike.
-/

namespace FilterSql

/-! ## Specification -/

/-- An unknown direction is not one of the known words in any mix of ASCII cases. -/
def Direction.IsCanonical (direction : Direction) : Prop :=
  ∀ word, direction = .unknown word →
    word.toList.map Char.toLower ≠ "asc".toList ∧ word.toList.map Char.toLower ≠ "desc".toList

/-- No word that is known stands in a page request as an unknown one. -/
structure PageRequest.IsCanonical (request : PageRequest) : Prop where
  sort : ∀ entry ∈ request.sort, entry.direction.IsCanonical
  filter : ∀ filter ∈ request.filter, filter.IsCanonical

/-- Every operand of the filter of a page request is read back as it is. -/
def PageRequest.ReadsOperands (request : PageRequest) : Prop :=
  ∀ filter ∈ request.filter, filter.ReadsOperands

namespace Wire

/-- Decoding loses nothing, and gives back what has been encoded. Of the values that are
encoded, those are given back that are canonical and whose operands are read back. -/
structure Faithful {α : Type} (decode : Decoder α) (encode : α → Json)
    (IsCanonical ReadsOperands : α → Prop) : Prop where
  /-- Whatever is decoded is canonical. -/
  canonical : ∀ {document value}, decode document = .ok value → IsCanonical value
  /-- Operands are read back, unless a member has the reserved name of an embedding. -/
  operands : ∀ {document value}, document.isPlain = true → decode document = .ok value →
    ReadsOperands value
  returns_iff : ∀ {value}, decode.onJson (encode value) = .ok value ↔
    IsCanonical value ∧ ReadsOperands value
  /-- Decoding and encoding bring a document into a form that they do not change again. -/
  normalizes : ∀ {document value}, decode document = .ok value → ReadsOperands value →
    encode <$> decode.onJson (encode value) = .ok (encode value)

end Wire

/-! ## Words of directions -/

theorem Direction.isCanonical_ofWord (word : String) : (ofWord word).IsCanonical := by
  intro other hother
  rw [ofWord] at hother
  split_ifs at hother with hasc hdesc
  cases hother
  exact ⟨hasc, hdesc⟩

/-- Canonical directions are given by their words. -/
theorem Direction.ofWord_word_iff {direction : Direction} :
    ofWord direction.word = direction ↔ direction.IsCanonical := by
  constructor
  · intro h
    rw [← h]
    exact isCanonical_ofWord _
  · intro canonical
    cases direction with
    | unknown word =>
      obtain ⟨hasc, hdesc⟩ := canonical word rfl
      rw [Direction.word, ofWord, if_neg hasc, if_neg hdesc]
    | _ => rfl

namespace Wire

theorem Faithful.of_returns_iff {α : Type} {decode : Decoder α} {encode : α → Json}
    {IsCanonical ReadsOperands : α → Prop}
    (canonical : ∀ {document value}, decode document = .ok value → IsCanonical value)
    (operands : ∀ {document value}, document.isPlain = true → decode document = .ok value →
      ReadsOperands value)
    (returns_iff : ∀ {value}, decode.onJson (encode value) = .ok value ↔
      IsCanonical value ∧ ReadsOperands value) :
    Faithful decode encode IsCanonical ReadsOperands where
  canonical := canonical
  operands := operands
  returns_iff := returns_iff
  normalizes := by
    intro document value h reads
    rw [returns_iff.mpr ⟨canonical h, reads⟩]
    rfl

/-! ## Decoded requests -/

variable {D : Document → Prop} {V : Json → Prop}

/-- What each member of a record preserves holds of the record that is decoded. -/
theorem Reads.record_induct (reads : Reads D V) {σ : Type} {names : List String}
    {member : σ → String → Document → Except WireError σ} {start result : σ} {P : σ → Prop}
    (step : ∀ state name document next, D document → member state name document = .ok next →
      P state → P next)
    {document : Document} (hD : D document)
    (h : Decoder.record names member start document = .ok result) (hstart : P start) :
    P result := by
  cases document with
  | object members =>
    refine foldlM_induct (fun state named next hnamed hnext hstate => ?_) h hstart
    obtain ⟨name, value⟩ := named
    cases name with
    | none => cases hnext
    | some name => exact step state name value next (reads.members hD _ hnamed) hnext hstate
  | array items =>
    obtain ⟨state, hstate, h⟩ := bind_eq_ok_iff.mp h
    split_ifs at h
    cases h
    refine foldlM_induct (fun state named next hnamed hnext hstate => ?_) hstate hstart
    exact step state named.1 named.2 next (reads.items hD _ (List.of_mem_zip hnamed).2) hnext hstate
  | _ => cases h

theorem isCanonical_of_decodeSort {document : Document} {entry : SortEntry}
    (h : decodeSort document = .ok entry) : entry.direction.IsCanonical := by
  obtain ⟨parts, hparts, h⟩ := bind_eq_ok_iff.mp h
  obtain ⟨field, _, h⟩ := bind_eq_ok_iff.mp h
  cases h
  have hdirection : ∀ direction ∈ parts.direction, direction.IsCanonical := by
    refine reads_any.record_induct (P := fun parts : SortParts =>
      ∀ direction ∈ parts.direction, direction.IsCanonical) ?_ trivial hparts nofun
    intro state name document next _ hnext hstate
    unfold SortParts.put at hnext
    split at hnext
    · obtain ⟨field, _, hnext⟩ := bind_eq_ok_iff.mp hnext
      cases hnext
      exact hstate
    · obtain ⟨direction, honce, hnext⟩ := bind_eq_ok_iff.mp hnext
      obtain ⟨_, read, hread, rfl⟩ := once_eq_ok_iff.mp honce
      cases hnext
      rintro _ ⟨⟩
      obtain ⟨word, _, rfl⟩ := map_eq_ok_iff.mp hread
      exact Direction.isCanonical_ofWord word
    · rw [(ignore_eq_ok_iff.mp hnext).2]
      exact hstate
  cases hgiven : parts.direction with
  | none => nofun
  | some direction => exact hdirection direction hgiven

theorem isCanonical_of_decodeSorts {document : Document} {entries : List SortEntry}
    (h : Decoder.list decodeSort document = .ok entries) :
    ∀ entry ∈ entries, entry.direction.IsCanonical := by
  cases document with
  | array items =>
    have hdecoded := mapM_eq_ok_iff.mp h
    clear h
    induction hdecoded with
    | nil => nofun
    | cons hfirst _ ih =>
      rw [List.forall_mem_cons]
      exact ⟨isCanonical_of_decodeSort hfirst, ih⟩
  | _ => cases h

/-- What has been read of a page request is canonical. -/
structure RequestParts.Sound (V : Json → Prop) (parts : RequestParts) : Prop where
  sort : ∀ entries ∈ parts.sort, ∀ entry ∈ entries, entry.direction.IsCanonical
  filter : ∀ filter ∈ parts.filter.join, filter.Sound V

theorem RequestParts.Sound.put (reads : Reads D V) {parts result : RequestParts}
    (sound : parts.Sound V) {name : String} {document : Document} (hD : D document)
    (h : parts.put name document = .ok result) : result.Sound V := by
  unfold RequestParts.put at h
  split at h
  · obtain ⟨page, _, h⟩ := bind_eq_ok_iff.mp h
    cases h
    exact ⟨sound.sort, sound.filter⟩
  · obtain ⟨size, _, h⟩ := bind_eq_ok_iff.mp h
    cases h
    exact ⟨sound.sort, sound.filter⟩
  · obtain ⟨sort, honce, h⟩ := bind_eq_ok_iff.mp h
    obtain ⟨_, read, hread, rfl⟩ := once_eq_ok_iff.mp honce
    cases h
    refine ⟨?_, sound.filter⟩
    rintro _ ⟨⟩
    exact isCanonical_of_decodeSorts hread
  · obtain ⟨sort, honce, h⟩ := bind_eq_ok_iff.mp h
    obtain ⟨_, read, hread, rfl⟩ := once_eq_ok_iff.mp honce
    cases h
    refine ⟨?_, sound.filter⟩
    rintro _ ⟨⟩
    exact isCanonical_of_decodeSorts hread
  · obtain ⟨filter, honce, h⟩ := bind_eq_ok_iff.mp h
    obtain ⟨_, read, hread, rfl⟩ := once_eq_ok_iff.mp honce
    cases h
    refine ⟨sound.sort, fun filter member => ?_⟩
    exact sound_of_decodeFilter reads document filter hD
      (Decoder.optional_eq_ok hread filter member)
  · rw [(ignore_eq_ok_iff.mp h).2]
    exact sound

/-- Every page request that is decoded is canonical, and its operands are values of the
document. -/
theorem sound_of_decodeRequest (reads : Reads D V) {document : Document} {request : PageRequest}
    (hD : D document) (h : decodeRequest document = .ok request) :
    request.IsCanonical ∧ ∀ filter ∈ request.filter, filter.Sound V := by
  obtain ⟨parts, hparts, h⟩ := bind_eq_ok_iff.mp h
  cases h
  have hsound : parts.Sound V := reads.record_induct
    (fun _ _ _ _ hdocument hnext sound => sound.put reads hdocument hnext) hD hparts ⟨nofun, nofun⟩
  refine ⟨⟨?_, fun filter member => (hsound.filter filter member).canonical⟩, hsound.filter⟩
  cases hgiven : parts.sort with
  | none => nofun
  | some entries => exact hsound.sort entries hgiven

/-! ## Encoded requests -/

theorem Decoder.word_ofUInt64 (word : UInt64) :
    Decoder.word (.number (.ofUInt64 word)) = .ok word := by
  show (if 0 ≤ (word.toNat : Int) then Except.ok (UInt64.ofNat (word.toNat : Int).toNat)
    else .error .shape) = _
  rw [if_pos (Int.natCast_nonneg _), Int.toNat_natCast, UInt64.ofNat_toNat]

/-- A sort entry with its direction given by the word. -/
def rewordSort (entry : SortEntry) : SortEntry :=
  ⟨entry.field, .ofWord entry.direction.word⟩

theorem decodeSorts_of_encoded {encode : SortEntry → Json}
    (h : ∀ entry, decodeSort (Document.ofJson (encode entry)) = .ok (rewordSort entry))
    (sort : List SortEntry) :
    Decoder.list decodeSort (Document.ofJson (.array (sort.map encode))) =
      .ok (sort.map rewordSort) := by
  show (Document.ofItems (sort.map encode)).mapM decodeSort = _
  induction sort with
  | nil => rfl
  | cons entry rest ih =>
    rw [List.map_cons, Document.ofItems, List.mapM_cons, h entry, ih]
    rfl

theorem decodeSort_encodeSort (entry : SortEntry) :
    decodeSort (Document.ofJson (encodeSort entry)) = .ok (rewordSort entry) := rfl

theorem sorted_encodeSort (entry : SortEntry) : (encodeSort entry).sorted =
    .object [("dir", .string entry.direction.word), ("field", .string entry.field)] := by
  have horder : compare "dir" "field" = .lt := by decide
  simp [encodeSort, Json.sorted, Json.sortedMembers, Json.sortMembers, Json.insertMember, horder]

theorem decodeSort_sorted (entry : SortEntry) :
    decodeSort (Document.ofJson (encodeSort entry).sorted) = .ok (rewordSort entry) := by
  rw [sorted_encodeSort]
  rfl

/-- The parts of a request, in the order in which they are written to a text. -/
theorem decodeRequest_object {page size : UInt64} {sort filter : Document}
    {entries : List SortEntry} (hsort : Decoder.list decodeSort sort = .ok entries) :
    decodeRequest (.object [(some "page", .number (.ofUInt64 page)),
        (some "size", .number (.ofUInt64 size)), (some "sort", sort), (some "filter", filter)]) =
      (return ⟨page, size, entries, ← Decoder.optional decodeFilter filter⟩) := by
  simp only [decodeRequest, Decoder.record, List.foldlM_cons, List.foldlM_nil, RequestParts.put,
    Decoder.word_ofUInt64, hsort]
  cases Decoder.optional decodeFilter filter <;> rfl

/-- The parts of a request, in the order in which they are written to a value. -/
theorem decodeRequest_sortedObject {page size : UInt64} {sort filter : Document}
    {entries : List SortEntry} (hsort : Decoder.list decodeSort sort = .ok entries) :
    decodeRequest (.object [(some "filter", filter), (some "page", .number (.ofUInt64 page)),
        (some "size", .number (.ofUInt64 size)), (some "sort", sort)]) =
      (return ⟨page, size, entries, ← Decoder.optional decodeFilter filter⟩) := by
  simp only [decodeRequest, Decoder.record, List.foldlM_cons, List.foldlM_nil, RequestParts.put,
    Decoder.word_ofUInt64, hsort]
  cases Decoder.optional decodeFilter filter <;> rfl

theorem sorted_encodeRequest (request : PageRequest) : (encodeRequest request).sorted =
    .object [("filter", ((request.filter.map encodeFilter).getD .null).sorted),
      ("page", .number (.ofUInt64 request.page)), ("size", .number (.ofUInt64 request.size)),
      ("sort", .array (request.sort.map fun entry => (encodeSort entry).sorted))] := by
  have hfilter : compare "filter" "page" = .lt := by decide
  have hsize : compare "size" "page" = .gt := by decide
  have hsort : compare "sort" "page" = .gt := by decide
  have hlast : compare "sort" "size" = .gt := by decide
  simp [encodeRequest, Json.sorted, Json.sortedItems_eq_map, Json.sortedMembers,
    Json.sortMembers, Json.insertMember, hfilter, hsize, hsort, hlast, Function.comp_def]

/-- A filter that may be missing is read back as the filter is. -/
theorem decodeOptional_encoded_iff {filter : Option Filter} :
    Decoder.optional decodeFilter (Document.ofJson ((filter.map encodeFilter).getD .null)) =
        .ok filter ↔
      ∀ given ∈ filter, given.IsCanonical ∧ given.ReadsOperands := by
  cases filter with
  | none => exact ⟨fun _ => by simp, fun _ => rfl⟩
  | some given =>
    have hread : Decoder.optional decodeFilter (Document.ofJson (encodeFilter given)) =
        some <$> decodeFilter (Document.ofJson (encodeFilter given)) := by
      cases given <;> rfl
    show Decoder.optional decodeFilter (Document.ofJson (encodeFilter given)) = _ ↔ _
    rw [hread, map_eq_ok_iff]
    simp only [Option.some.injEq, exists_eq_right, decodeFilter_encodeFilter_iff, Option.mem_def,
      forall_eq']

theorem rewordSorts_eq_iff {sort : List SortEntry} :
    sort.map rewordSort = sort ↔ ∀ entry ∈ sort, entry.direction.IsCanonical := by
  have heach : ∀ entry, rewordSort entry = entry ↔ entry.direction.IsCanonical := by
    rintro ⟨field, direction⟩
    rw [rewordSort, SortEntry.mk.injEq, Direction.ofWord_word_iff]
    exact and_iff_right rfl
  have hmap := List.map_inj_left (l := sort) (f := rewordSort) (g := id)
  rw [List.map_id] at hmap
  exact hmap.trans (forall₂_congr fun entry _ => heach entry)

/-- A request with its directions given by their words and its filter read back. -/
def rereadRequest (request : PageRequest) : Except WireError PageRequest := do
  let filter ← Decoder.optional decodeFilter
    (Document.ofJson ((request.filter.map encodeFilter).getD .null))
  return { request with sort := request.sort.map rewordSort, filter }

theorem rereadRequest_eq_ok_iff {request : PageRequest} :
    rereadRequest request = .ok request ↔ request.IsCanonical ∧ request.ReadsOperands := by
  obtain ⟨page, size, sort, filter⟩ := request
  constructor
  · intro h
    obtain ⟨read, hread, h⟩ := bind_eq_ok_iff.mp h
    injection h with h
    injection h with _ _ hsort hfilter
    subst hfilter
    have hgiven := decodeOptional_encoded_iff.mp hread
    exact ⟨⟨rewordSorts_eq_iff.mp hsort, fun given member => (hgiven given member).1⟩,
      fun given member => (hgiven given member).2⟩
  · rintro ⟨canonical, reads⟩
    refine bind_eq_ok_iff.mpr ⟨filter, decodeOptional_encoded_iff.mpr fun given member =>
      ⟨canonical.filter given member, reads given member⟩, ?_⟩
    rw [rewordSorts_eq_iff.mpr canonical.sort]
    rfl

/-- A page request is decoded from what it is encoded to exactly when it is canonical and
the operands of its filter are read back. -/
theorem decodeRequest_encodeRequest_iff {request : PageRequest} :
    decodeRequest (Document.ofJson (encodeRequest request)) = .ok request ↔
      request.IsCanonical ∧ request.ReadsOperands := by
  rw [← rereadRequest_eq_ok_iff, rereadRequest,
    ← decodeRequest_object (decodeSorts_of_encoded decodeSort_encodeSort request.sort)]
  rfl

/-! ## Members in order -/

/-- The order of the members does not matter when a page request is decoded. -/
theorem decodeRequest_sorted {request : PageRequest}
    (h : ∀ filter ∈ request.filter, ∀ predicate ∈ filter.predicates,
      predicate.value.sorted = predicate.value) :
    decodeRequest (Document.ofJson (encodeRequest request).sorted) =
      decodeRequest (Document.ofJson (encodeRequest request)) := by
  have hfilter : ((request.filter.map encodeFilter).getD .null).sorted =
      (request.filter.map encodeFilter).getD .null := by
    cases hgiven : request.filter with
    | none => rfl
    | some filter => exact sorted_encodeFilter (h filter hgiven)
  rw [sorted_encodeRequest, hfilter]
  exact (decodeRequest_sortedObject
    (decodeSorts_of_encoded decodeSort_sorted request.sort)).trans
    (decodeRequest_object (decodeSorts_of_encoded decodeSort_encodeSort request.sort)).symm

theorem decodeRequest_sorted_iff {request : PageRequest} :
    decodeRequest (Document.ofJson (encodeRequest request).sorted) = .ok request ↔
      request.IsCanonical ∧ request.ReadsOperands := by
  constructor
  · intro h
    have hsorted := (sound_of_decodeRequest reads_sorted trivial h).2
    rw [decodeRequest_sorted fun filter member => (hsorted filter member).operands] at h
    exact decodeRequest_encodeRequest_iff.mp h
  · intro h
    rw [decodeRequest_sorted fun filter member predicate hpredicate =>
      (h.2 filter member predicate hpredicate).sorted_eq]
    exact decodeRequest_encodeRequest_iff.mpr h

end Wire

open Wire in
/-- **Encoding and decoding lose nothing.** What is decoded is canonical, from whatever
document. A canonical request is given back by its wire form, in whichever order the members
of that are listed, and so is a canonical filter; what is built from words is canonical. The
one condition is on free-form operands, which have to be read back themselves: those in normal
form are, unless a member has the reserved name of an embedding. -/
theorem requests_survive_the_wire :
    Faithful decodeRequest encodeRequest PageRequest.IsCanonical PageRequest.ReadsOperands ∧
      Faithful decodeRequest (fun request => (encodeRequest request).sorted)
        PageRequest.IsCanonical PageRequest.ReadsOperands ∧
      Faithful decodeFilter encodeFilter Filter.IsCanonical Filter.ReadsOperands ∧
      Faithful decodeFilter (fun filter => (encodeFilter filter).sorted)
        Filter.IsCanonical Filter.ReadsOperands ∧
      (∀ word, (Direction.ofWord word).IsCanonical) ∧
      (∀ filter : Filter, filter.IsNamed → filter.IsCanonical) ∧
      ∀ value : Json, (Document.ofJson value).isPlain = true →
        (value.ReadsBack ↔ value.sorted = value) := by
  have hrequest {document request} (h : decodeRequest document = .ok request) :
      request.IsCanonical :=
    (sound_of_decodeRequest reads_any trivial h).1
  have hoperands {document request} (plain : document.isPlain = true)
      (h : decodeRequest document = .ok request) : request.ReadsOperands :=
    fun filter member => ((sound_of_decodeRequest reads_isPlain plain h).2 filter member).operands
  have hfilter {document filter} (plain : document.isPlain = true)
      (h : decodeFilter document = .ok filter) : filter.ReadsOperands :=
    (sound_of_decodeFilter reads_isPlain document filter plain h).operands
  exact ⟨.of_returns_iff hrequest hoperands decodeRequest_encodeRequest_iff,
    .of_returns_iff hrequest hoperands decodeRequest_sorted_iff,
    .of_returns_iff isCanonical_of_decodeFilter hfilter decodeFilter_encodeFilter_iff,
    .of_returns_iff isCanonical_of_decodeFilter hfilter decodeFilter_sorted_iff,
    Direction.isCanonical_ofWord, fun _ => Filter.IsNamed.isCanonical,
    fun _ => Json.readsBack_iff_sorted⟩

open Wire in
/-- A request in an unusual spelling, with a node that has both a group and a field, an array
for a sort entry, words that are not known, a `null` operator and a member that is not known. -/
theorem unusual_request_survives :
    let document := Document.object [
      (some "comment", .unreadable),
      (some "filter", .object [(some "field", .string "name"), (some "filter", .object [
        (some "logic", .string "xor"), (some "subFilters", .array [
          .object [(some "field", .string "age"), (some "operator", .null)],
          .array [.string "age", .string "LIKE",
            .object [(some "b", .null), (some "a", .bool true)]]])])]),
      (some "sortProps", .array [
        .array [.string "age"],
        .object [(some "dir", .string "DesC"), (some "field", .string "name")],
        .object [(some "dir", .string "down"), (some "field", .string "name")]])]
    let request : PageRequest := {
      sort := [⟨"age", .ascending⟩, ⟨"name", .descending⟩, ⟨"name", .unknown "down"⟩]
      filter := some (.group (.unknown "xor") [.test ⟨"age", none, .null⟩,
        .compare "age" (.unknown "LIKE") (.object [("a", .bool true), ("b", .null)])]) }
    decodeRequest document = .ok request ∧ request.IsCanonical ∧
      decodeRequest.onJson (encodeRequest request) = .ok request := by
  intro document request
  have hdecode : decodeRequest document = .ok request := rfl
  have hcanonical := requests_survive_the_wire.1.canonical hdecode
  have hplain : document.isPlain = true := rfl
  have hoperands := requests_survive_the_wire.1.operands hplain hdecode
  exact ⟨hdecode, hcanonical, requests_survive_the_wire.1.returns_iff.mpr ⟨hcanonical, hoperands⟩⟩

end FilterSql
