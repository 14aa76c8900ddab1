import RecordQuery.NameMap
import RecordQuery.Text.Lowercase
import RecordQuery.Value

/-!
# Building and reading records

Names of entity types and attributes are case-insensitive.  They are stored in lower case by the
functions of this module, and a lookup first tries the name as it is written and then its lower
case, so it also finds names that were stored as they are.
-/

namespace RecordQuery

open Text

/-! ## References -/

namespace Reference

/-- A reference by entity type and identifier. -/
def new (entity : String) (id : RecordId) : Reference :=
  ⟨lowercase entity, id, none, []⟩

/-- Sets the display name. -/
def withName (r : Reference) (name : String) : Reference :=
  { r with name := some name }

/-- Adds an alternate key. -/
def withKey (r : Reference) (name : String) (v : Value) : Reference :=
  { r with keys := NameMap.insert r.keys (lowercase name) v }

end Reference

/-! ## Records -/

/-- The entry under a name as it is written, else under its lower case. -/
def NameMap.lookup? (m : NameMap α) (name : String) : Option α :=
  (NameMap.get? m name).orElse fun _ => NameMap.get? m (lowercase name)

namespace Record

/-- A record without attributes. -/
def new (entity : String) (id : RecordId) : Record :=
  ⟨lowercase entity, id, [], []⟩

/-- Sets an attribute. -/
def set (r : Record) (name : String) (v : Value) : Record :=
  { r with attributes := NameMap.insert r.attributes (lowercase name) v }

/-- The value of an attribute. -/
def get? (r : Record) (name : String) : Option Value :=
  NameMap.lookup? r.attributes name

/-- An attribute is present, be it null. -/
def contains (r : Record) (name : String) : Bool := (r.get? name).isSome

/-- The value that `erase` takes away: the one under the lower case of the name. -/
def erased? (r : Record) (name : String) : Option Value :=
  NameMap.get? r.attributes (lowercase name)

/-- Removes the attribute under the lower case of the name. -/
def erase (r : Record) (name : String) : Record :=
  { r with attributes := NameMap.erase r.attributes (lowercase name) }

/-- Sets the display text of an attribute. -/
def setFormatted (r : Record) (name text : String) : Record :=
  { r with formatted := NameMap.insert r.formatted (lowercase name) text }

/-- The display text of an attribute. -/
def formatted? (r : Record) (name : String) : Option String :=
  NameMap.lookup? r.formatted name

/-- A reference to the record. -/
def toReference (r : Record) : Reference := Reference.new r.entity r.id

end Record

end RecordQuery
