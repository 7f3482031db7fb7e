import FilterSql.Json.Value

/-!
# Documents

A document is what a reader makes of JSON text before anything is known about the shape that is
expected. It differs from a value in three ways: an object may name a member several times, a part
of the text may be well formed and yet stand for no value (`unreadable`), and the text may stop
being JSON somewhere (`malformed`, always the last thing in the text). A decoder walks a document in
text order; what it does not ask for only has to be well formed.

JSON text can be embedded: an object whose first member has the name `embeddingName` stands for the
value of the text which that member, its only one, holds.
-/

namespace FilterSql

/-- JSON text as read. A member whose name cannot be read has no name. -/
inductive Document where
  | null
  | bool (value : Bool)
  | number (value : Number)
  | string (text : String)
  | array (items : List Document)
  | object (members : List (Option String × Document))
  | unreadable
  | malformed
deriving Repr, Inhabited

namespace Document

mutual

/-- Is the text of this part JSON to its end? -/
def wellFormed : Document → Bool
  | .malformed => false
  | .array items => itemsWellFormed items
  | .object members => membersWellFormed members
  | .null | .bool _ | .number _ | .string _ | .unreadable => true

/-- Are all items well formed? -/
def itemsWellFormed : List Document → Bool
  | [] => true
  | item :: rest => item.wellFormed && itemsWellFormed rest

/-- Are the values of all members well formed? -/
def membersWellFormed : List (Option String × Document) → Bool
  | [] => true
  | (_, value) :: rest => value.wellFormed && membersWellFormed rest

end

/-- The name of the member that embeds a text. -/
def embeddingName : String := "$serde_json::private::RawValue"

/-- Do these members, by the name of the first, embed a text? -/
def isEmbedding : List (Option String × Document) → Bool
  | (name, _) :: _ => name == some embeddingName
  | [] => false

/-- The embedded text, which has to be a string and must not have a member beside it. -/
def embeddedText? : List (Option String × Document) → Option String
  | [(_, .string text)] => some text
  | _ => none

mutual

/-- The value of a document in normal form, if every part of it has one. Embedded texts are read by
`embedded?`. -/
def toJson? (embedded? : String → Option Json) : Document → Option Json
  | .null => some .null
  | .bool value => some (.bool value)
  | .number value => some (.number value)
  | .string text => some (.string text)
  | .array items => (itemsToJson? embedded? items).map .array
  | .object members =>
    match isEmbedding members with
    | true => (embeddedText? members).bind embedded?
    | false =>
      (membersToJson? embedded? members).map fun values => .object (Json.sortMembers values)
  | .unreadable => none
  | .malformed => none

/-- The values of all items. -/
def itemsToJson? (embedded? : String → Option Json) : List Document → Option (List Json)
  | [] => some []
  | item :: rest => do return (← item.toJson? embedded?) :: (← itemsToJson? embedded? rest)

/-- The names and values of all members. -/
def membersToJson? (embedded? : String → Option Json) :
    List (Option String × Document) → Option (List (String × Json))
  | [] => some []
  | (name, value) :: rest => do
    return (← name, ← value.toJson? embedded?) :: (← membersToJson? embedded? rest)

end

mutual

/-- The document that a value is read from. -/
def ofJson : Json → Document
  | .null => .null
  | .bool value => .bool value
  | .number value => .number value
  | .string text => .string text
  | .array items => .array (ofItems items)
  | .object members => .object (ofMembers members)

/-- The documents of all items. -/
def ofItems : List Json → List Document
  | [] => []
  | item :: rest => ofJson item :: ofItems rest

/-- The documents of all members. -/
def ofMembers : List (String × Json) → List (Option String × Document)
  | [] => []
  | (name, value) :: rest => (some name, ofJson value) :: ofMembers rest

end

end Document

end FilterSql
