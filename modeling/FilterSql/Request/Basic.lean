import FilterSql.Filter.Basic

/-!
# Page requests and pages

A client asks for one page of rows, ordered by a list of fields and restricted by a filter, and is
answered with the rows of that page and the number of all rows.

Models `PageRequest`, `SortDescriptor`, `SortDirection` and `PageResponse`.
-/

namespace FilterSql

/-- The direction of one sort entry; a word that names neither is kept and judged later. -/
inductive Direction where
  | ascending
  | descending
  | unknown (word : String)
deriving DecidableEq, Repr

/-- One entry of a sort list. -/
structure SortEntry where
  field : String
  direction : Direction := .ascending
deriving DecidableEq, Repr

/-- A request for the page `page`, counted from zero, of `size` rows; a size of zero asks for all
rows. -/
structure PageRequest where
  page : UInt64 := 0
  size : UInt64 := 0
  sort : List SortEntry := []
  filter : Option Filter := none
deriving Repr

/-- One page of rows, and the number of rows on all pages. -/
structure Page (α : Type) where
  total : UInt64
  rows : List α
deriving Repr

namespace Direction

/-- The direction of a word, in any mix of ASCII cases. -/
def ofWord (word : String) : Direction :=
  let lower := word.toList.map Char.toLower
  if lower = "asc".toList then .ascending
  else if lower = "desc".toList then .descending
  else .unknown word

/-- The word of a direction. -/
def word : Direction → String
  | .ascending => "asc"
  | .descending => "desc"
  | .unknown word => word

end Direction

namespace PageRequest

/-- A request for a page without filter and order. -/
def ofPage (page size : UInt64) : PageRequest :=
  { page, size }

/-- The request with this filter in place of an earlier one. -/
def withFilter (request : PageRequest) (filter : Filter) : PageRequest :=
  { request with filter := some filter }

/-- The request ordered by one more field, after those it has. -/
def withSort (request : PageRequest) (field : String) (direction : Direction) : PageRequest :=
  { request with sort := request.sort ++ [⟨field, direction⟩] }

end PageRequest

namespace Page

/-- No rows at all. -/
def empty {α : Type} : Page α :=
  ⟨0, []⟩

/-- The page with every row converted. -/
def map {α β : Type} (convert : α → β) (page : Page α) : Page β :=
  { page with rows := page.rows.map convert }

end Page

end FilterSql
