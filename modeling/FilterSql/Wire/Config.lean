import FilterSql.Condition.Compile
import FilterSql.Wire.Decode

/-!
# The wire form of configurations

Both parts may be left out. Reading does not check that the configuration can be used.

Models how a `QueryConfig` is read.
-/

namespace FilterSql.Wire

/-- The members of a configuration that have been read. -/
structure ConfigParts where
  stem : Option String := none
  escapeWildcards : Option Bool := none

/-- Reads a member of a configuration. -/
def ConfigParts.put (parts : ConfigParts) (name : String) (document : Document) :
    Except WireError ConfigParts :=
  match name with
  | "param_prefix" => do return { parts with stem := ← once parts.stem (Decoder.string document) }
  | "escape_like_wildcards" => do
    return { parts with
      escapeWildcards := ← once parts.escapeWildcards (Decoder.bool document) }
  | _ => ignore parts document

/-- A configuration. -/
def decodeConfig : Decoder Config := fun document => do
  let parts ← Decoder.record ["param_prefix", "escape_like_wildcards"] ConfigParts.put {} document
  let default : Config := {}
  return ⟨parts.stem.getD default.stem, parts.escapeWildcards.getD default.escapeWildcards⟩

end FilterSql.Wire
