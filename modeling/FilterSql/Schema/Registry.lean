import FilterSql.Schema.Basic

/-!
# The registry of schemas

A registry holds one schema per entity type and hands out the same object to every caller. The two
steps that touch it are atomic: looking up an entry, and publishing a schema unless the type has an
entry already. Between the two a caller builds the schema without holding the registry, so another
caller may publish first; then its object is the one that both receive.

Models `registry` and `schema_for`, whose read lock covers the first step and whose write lock the
second.
-/

namespace FilterSql

/-- A schema object: its schema, and the number under which it was created. Two callers share an
object when the numbers agree. -/
structure SharedSchema where
  identity : Nat
  schema : Schema
deriving DecidableEq

/-- The registered schemas of entity types `κ`, and the number of the next object. -/
structure Registry (κ : Type) where
  entries : List (κ × SharedSchema) := []
  next : Nat := 0

namespace Registry

variable {κ : Type} [DecidableEq κ]

/-- The atomic step that looks up the object of a type. -/
def find? (registry : Registry κ) (key : κ) : Option SharedSchema :=
  (registry.entries.find? fun entry => entry.1 = key).map (·.2)

/-- The atomic step that registers a schema unless the type has one, and returns the object that is
registered afterwards. -/
def publish (registry : Registry κ) (key : κ) (schema : Schema) : SharedSchema × Registry κ :=
  match registry.find? key with
  | some shared => (shared, registry)
  | none =>
    let shared : SharedSchema := ⟨registry.next, schema⟩
    (shared, ⟨registry.entries ++ [(key, shared)], registry.next + 1⟩)

/-- The object of a type, built and registered by its first user (`schema_for`). -/
def obtain (registry : Registry κ) (key : κ) (entity : EntityDescription) :
    SharedSchema × Registry κ :=
  match registry.find? key with
  | some shared => (shared, registry)
  | none => registry.publish key entity.schema

end Registry

end FilterSql
