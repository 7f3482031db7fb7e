import FilterSql.Request.Basic
import FilterSql.Wire.Filter

/-!
# The wire form of page requests and pages

Requests are read leniently: every part may be left out, `sortProps` may stand for `sort`, and a
direction may be written in any case. They are written with all parts, a missing filter as `null`.

Models how `PageRequest`, `SortDescriptor` and `PageResponse` are read and written.
-/

namespace FilterSql.Wire

/-! ## Encoding -/

/-- The wire form of a sort entry. -/
def encodeSort (entry : SortEntry) : Json :=
  .object [("field", .string entry.field), ("dir", .string entry.direction.word)]

/-- The wire form of a page request. -/
def encodeRequest (request : PageRequest) : Json :=
  .object [("page", .number (.ofUInt64 request.page)), ("size", .number (.ofUInt64 request.size)),
    ("sort", .array (request.sort.map encodeSort)),
    ("filter", (request.filter.map encodeFilter).getD .null)]

/-- The wire form of a page of values. -/
def encodePage (page : Page Json) : Json :=
  .object [("total", .number (.ofUInt64 page.total)), ("rows", .array page.rows)]

/-! ## Decoding -/

/-- A sort direction by its word. -/
def decodeDirection : Decoder Direction := fun document =>
  Direction.ofWord <$> Decoder.string document

/-- The members of a sort entry that have been read. -/
structure SortParts where
  field : Option String := none
  direction : Option Direction := none

/-- Reads a member of a sort entry. -/
def SortParts.put (parts : SortParts) (name : String) (document : Document) :
    Except WireError SortParts :=
  match name with
  | "field" => do return { parts with field := ← once parts.field (Decoder.string document) }
  | "dir" => do
    return { parts with direction := ← once parts.direction (decodeDirection document) }
  | _ => ignore parts document

/-- A sort entry; its direction is ascending unless given. -/
def decodeSort : Decoder SortEntry := fun document => do
  let parts ← Decoder.record ["field", "dir"] SortParts.put {} document
  return ⟨← required parts.field, parts.direction.getD .ascending⟩

/-- The members of a page request that have been read. -/
structure RequestParts where
  page : Option UInt64 := none
  size : Option UInt64 := none
  sort : Option (List SortEntry) := none
  filter : Option (Option Filter) := none

/-- Reads a member of a page request. -/
def RequestParts.put (parts : RequestParts) (name : String) (document : Document) :
    Except WireError RequestParts :=
  match name with
  | "page" => do return { parts with page := ← once parts.page (Decoder.word document) }
  | "size" => do return { parts with size := ← once parts.size (Decoder.word document) }
  | "sort" | "sortProps" => do
    return { parts with sort := ← once parts.sort (Decoder.list decodeSort document) }
  | "filter" => do
    return { parts with filter := ← once parts.filter (Decoder.optional decodeFilter document) }
  | _ => ignore parts document

/-- A page request. -/
def decodeRequest : Decoder PageRequest := fun document => do
  let parts ← Decoder.record ["page", "size", "sort", "filter"] RequestParts.put {} document
  return ⟨parts.page.getD 0, parts.size.getD 0, parts.sort.getD [], parts.filter.join⟩

/-- The members of a page that have been read. -/
structure PageParts where
  total : Option UInt64 := none
  rows : Option (List Json) := none

/-- Reads a member of a page. -/
def PageParts.put (parts : PageParts) (name : String) (document : Document) :
    Except WireError PageParts :=
  match name with
  | "total" => do return { parts with total := ← once parts.total (Decoder.word document) }
  | "rows" => do
    return { parts with rows := ← once parts.rows (Decoder.list Decoder.json document) }
  | _ => ignore parts document

/-- A page of values; both parts have to be given. -/
def decodePage : Decoder (Page Json) := fun document => do
  let parts ← Decoder.record ["total", "rows"] PageParts.put {} document
  return ⟨← required parts.total, ← required parts.rows⟩

end FilterSql.Wire
