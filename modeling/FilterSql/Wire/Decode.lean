import FilterSql.Json.Reader

/-!
# Decoding documents

Decoders from documents to values of a type. A decoder looks at a document in text order and stops
at the first fault. Records are written as objects, or as arrays of their fields in order with
trailing fields left out. An object may hold members that the record does not know, which only have
to be well formed; a known member given twice is a fault.
-/

namespace FilterSql.Wire

/-- Why a document is not accepted. -/
inductive WireError where
  /-- The text is not JSON, or some part has not the shape that is asked for. -/
  | shape
  /-- A filter node is neither a group nor a predicate on a field. -/
  | bareNode
deriving DecidableEq, Repr

/-- The explanation given with an error; a wrong shape is not explained. -/
def WireError.message? : WireError → Option String
  | .shape => none
  | .bareNode => some "filter node needs either `filter` or `field`"

/-- A decoder for values of one type. -/
abbrev Decoder (α : Type) := Document → Except WireError α

/-! ## Values -/

namespace Decoder

/-- A string. -/
def string : Decoder String
  | .string text => .ok text
  | _ => .error .shape

/-- Either truth value. -/
def bool : Decoder Bool
  | .bool value => .ok value
  | _ => .error .shape

/-- An integer that fits into an unsigned word of 64 bits. -/
def word : Decoder UInt64
  | .number (.integer value _) =>
    if 0 ≤ value then .ok (UInt64.ofNat value.toNat) else .error .shape
  | _ => .error .shape

/-- Any value. -/
def json : Decoder Json := fun document =>
  match document.toJson? Json.parse? with
  | some value => .ok value
  | none => .error .shape

/-- An array of values of one type. -/
def list {α : Type} (item : Decoder α) : Decoder (List α)
  | .array items => items.mapM item
  | _ => .error .shape

/-- A value, or `null` for none. -/
def optional {α : Type} (value : Decoder α) : Decoder (Option α)
  | .null => .ok none
  | document => some <$> value document

end Decoder

/-! ## Records -/

/-- Passes over a member that the record does not know. -/
def ignore {α : Type} (record : α) (document : Document) : Except WireError α :=
  if document.wellFormed then .ok record else .error .shape

/-- Decodes a member that has not been given before. -/
def once {α : Type} (given : Option α) (value : Except WireError α) :
    Except WireError (Option α) :=
  if given.isSome then .error .shape else some <$> value

/-- The value of a field that has no default. -/
def required {α : Type} : Option α → Except WireError α
  | some value => .ok value
  | none => .error .shape

/-- Decodes a record member by member. An array stands for its fields in the order of `names`, and
must not have more items than there are names. -/
def Decoder.record {σ : Type} (names : List String)
    (member : σ → String → Document → Except WireError σ) (start : σ) : Decoder σ
  | .object members =>
    members.foldlM (fun state named =>
      match named.1 with
      | some name => member state name named.2
      | none => .error .shape) start
  | .array items => do
    let state ← (names.zip items).foldlM (fun state named => member state named.1 named.2) start
    if names.length < items.length then .error .shape else .ok state
  | _ => .error .shape

/-! ## Sources -/

/-- Decodes a text, which has to hold one document and nothing else. -/
def Decoder.onText {α : Type} (decoder : Decoder α) (text : String) : Except WireError α := do
  let ⟨document, trailing⟩ := Json.read text
  let value ← decoder document
  if trailing then .error .shape else .ok value

/-- Decodes a value. -/
def Decoder.onJson {α : Type} (decoder : Decoder α) (value : Json) : Except WireError α :=
  decoder (Document.ofJson value)

end FilterSql.Wire
