import RecordQuery.Calendar.Instant
import RecordQuery.Schema.Entity

/-!
# Schemas and their history

A schema is a version with its entity types.  A catalog holds the current schema and every schema
that was applied to it: applying a schema gives it the next version, whatever version it carried,
and appends it to the history.  No step changes a schema of the history.
-/

namespace RecordQuery

open Text

/-- The entity types of one version. -/
structure Schema where
  version : UInt64
  createdAt : Instant
  /-- Entity types under their names. -/
  entities : NameMap Entity
deriving DecidableEq, Repr

namespace Schema

/-- A schema without entity types. -/
def empty (version : UInt64) (createdAt : Instant) : Schema := ⟨version, createdAt, []⟩

/-- Adds an entity type, replacing one of the same name. -/
def addEntity (s : Schema) (e : Entity) : Schema :=
  { s with entities := NameMap.insert s.entities e.name e }

/-- The schema of entity types added one after another. -/
def ofEntities (version : UInt64) (createdAt : Instant) (es : List Entity) : Schema :=
  es.foldl addEntity (empty version createdAt)

/-- The entity type with a name as it is written, else with its lower case. -/
def entity? (s : Schema) (name : String) : Option Entity :=
  NameMap.lookup? s.entities name

/-- The names of the entity types in ascending order. -/
def entityNames (s : Schema) : List String := NameMap.names s.entities

end Schema

/-- The current schema and all that were applied. -/
structure Catalog where
  version : UInt64
  current : Schema
  /-- Every applied schema, the oldest first. -/
  history : List Schema
deriving Repr

namespace Catalog

/-- A catalog to which nothing was applied. -/
def empty (createdAt : Instant) : Catalog := ⟨0, Schema.empty 0 createdAt, []⟩

/-- Makes a schema the current one, under the next version. -/
def apply (c : Catalog) (s : Schema) : Catalog :=
  let s := { s with version := c.version + 1 }
  ⟨c.version + 1, s, c.history ++ [s]⟩

/-- The catalog whose first schema is given. -/
def withSchema (createdAt : Instant) (s : Schema) : Catalog := (empty createdAt).apply s

/-- Applies the current schema with one entity type added or replaced. -/
def register (c : Catalog) (e : Entity) : Catalog := c.apply (c.current.addEntity e)

/-- The first schema that was applied under a version. -/
def schemaAt? (c : Catalog) (version : UInt64) : Option Schema :=
  c.history.find? (·.version = version)

/-- An entity type of the current schema. -/
def entity? (c : Catalog) (name : String) : Option Entity := c.current.entity? name

/-- The versions that were applied, the oldest first. -/
def versions (c : Catalog) : List UInt64 := c.history.map (·.version)

end Catalog

end RecordQuery
