import RecordQuery.Record
import RecordQuery.Schema.Entity
import Std.Data.HashMap

/-!
# The record store

Records are kept in tables, one for each entity type, in the order of their first insertion.  A
table also knows the position of each identifier, so that a record is found without a search.
Inserting a record whose identifier is present replaces the old record where it stands.
-/

namespace RecordQuery

open Text

/-- The records of one entity type. -/
structure Table where
  rows : Array Record
  /-- Where the record with an identifier stands. -/
  positions : Std.HashMap RecordId Nat

namespace Table

/-- A table without records. -/
def empty : Table := ⟨#[], {}⟩

/-- The position of an identifier among the rows. -/
def position? (t : Table) (id : RecordId) : Option Nat := t.positions[id]?

/-- The record with an identifier. -/
def find? (t : Table) (id : RecordId) : Option Record := (t.position? id).bind (t.rows[·]?)

/-- Puts a record in the place of the one with its identifier, which is given back, else behind
all others. -/
def insert (t : Table) (r : Record) : Option Record × Table :=
  match t.position? r.id with
  | some i => (t.rows[i]?, { t with rows := t.rows.setIfInBounds i r })
  | none => (none, ⟨t.rows.push r, t.positions.insert r.id t.rows.size⟩)

/-- Takes away the record with an identifier; those behind it move up by one place. -/
def erase (t : Table) (id : RecordId) : Option Record × Table :=
  match t.position? id with
  | some i =>
    (t.rows[i]?,
      ⟨t.rows.eraseIdxIfInBounds i,
        (t.positions.erase id).map fun _ j => if i < j then j - 1 else j⟩)
  | none => (none, t)

end Table

/-- Tables under the names of their entity types. -/
structure Store where
  tables : NameMap Table

namespace Store

/-- A store without records. -/
def empty : Store := ⟨[]⟩

/-- The table of an entity type, empty if none was filled. -/
def table (s : Store) (entity : String) : Table :=
  (NameMap.get? s.tables (lowercase entity)).getD .empty

/-- The record with an identifier. -/
def find? (s : Store) (entity : String) (id : RecordId) : Option Record :=
  (s.table entity).find? id

/-- Inserts a record and gives back the one of the same type and identifier that it replaces. -/
def insert (s : Store) (r : Record) : Option Record × Store :=
  let (old, t) := (s.table r.entity).insert r
  (old, ⟨NameMap.insert s.tables (lowercase r.entity) t⟩)

/-- Inserts records one after another. -/
def insertAll (s : Store) (rs : List Record) : Store := rs.foldl (fun s r => (s.insert r).2) s

/-- Takes away a record and gives it back. -/
def erase (s : Store) (entity : String) (id : RecordId) : Option Record × Store :=
  match NameMap.get? s.tables (lowercase entity) with
  | some t =>
    let (old, t) := t.erase id
    (old, ⟨NameMap.insert s.tables (lowercase entity) t⟩)
  | none => (none, s)

/-- Takes away all records. -/
def clear (_ : Store) : Store := .empty

/-- The records of an entity type, in the order of their first insertion. -/
def records (s : Store) (entity : String) : List Record := (s.table entity).rows.toList

/-- The number of records of an entity type. -/
def count (s : Store) (entity : String) : Nat := (s.table entity).rows.size

/-- A record whose primary identifier reads as its own identifier when it has none. -/
def withPrimaryId (e : Entity) (r : Record) : Record :=
  { r with attributes := NameMap.insertNew r.attributes e.primaryId (.recordId r.id) }

/-- The records of an entity type, each with its primary identifier. -/
def snapshot (s : Store) (e : Entity) : List Record :=
  (s.records e.name).map (withPrimaryId e)

end Store

end RecordQuery
