import RecordQuery.Query.Plan

/-!
# Projecting rows

A result row holds the requested attributes that are not null, all columns that joins merged, and
always the primary identifier.  Each is shown with the display text that the row has for it, else
with the labels of its option codes.

References are shown with the current name of the record they point at, as far as it is stored and
its entity type has a primary name; otherwise with the name they were stored with.
-/

namespace RecordQuery

open Text

/-- What a projection needs to know of the query. -/
structure Projector where
  db : Database
  entity : Entity
  /-- The entity types of links under their aliases. -/
  aliases : NameMap Entity
  columns : ColumnSet

/-! ## Current names of references -/

namespace Database

/-- The current name of the record that a reference points at. -/
def currentName? (db : Database) (r : Reference) : Option String := do
  let e ← db.schema.entity? r.entity
  let name ← e.primaryName
  let record ← db.store.find? r.entity r.id
  (← record.get? name).text?

/-- A reference with its current name, else the one it has. -/
def refreshReference (db : Database) (r : Reference) : Reference :=
  ⟨lowercase r.entity, r.id, (db.currentName? r).orElse fun _ => r.name, r.keys⟩

mutual

/-- A value with the current names of the references in it, those in alternate keys apart. -/
def refresh (db : Database) : Value → Value
  | .reference r => .reference (db.refreshReference r)
  | .records rs => .records (refreshRecords db rs)
  | .aliased ⟨entity, name, v⟩ => .aliased ⟨entity, name, refresh db v⟩
  | v => v

/-- Records with the current names of the references in them. -/
def refreshRecords (db : Database) : List Record → List Record
  | [] => []
  | ⟨entity, id, attributes, formatted⟩ :: rs =>
    ⟨lowercase entity, id, refreshAttributes db attributes, formatted⟩ :: refreshRecords db rs

/-- Attributes with the current names of the references in them. -/
def refreshAttributes (db : Database) : List (String × Value) → List (String × Value)
  | [] => []
  | (name, v) :: as => (name, refresh db v) :: refreshAttributes db as

end

end Database

namespace Projector

/-- A projection onto columns, which must be declared in strict mode. -/
def new (db : Database) (e : Entity) (aliases : NameMap Entity) (columns : ColumnSet)
    (strict : Bool) : Except QueryError Projector := do
  if strict then e.requireAll columns.explicit
  return ⟨db, e, aliases, columns⟩

/-! ## Labels -/

/-- The attribute that a column of a row holds. -/
def attribute? (p : Projector) (name : String) : Option Attribute :=
  match splitName? name with
  | none => p.entity.attribute? name
  | some (aliasName, rest) => (NameMap.get? p.aliases aliasName).bind (·.attribute? rest)

/-- The codes by which a value is shown: its option codes in ascending order, or 0 and 1. -/
def labelCodes : Value → List Int32
  | .option c => [c]
  | .bool b => [if b then 1 else 0]
  | .options cs => distinctCodes cs
  | _ => []

/-- The labels of a value; codes without a label are passed over. -/
def labels? (p : Projector) (name : String) (v : Value) : Option String := do
  let a ← p.attribute? name
  let labels := (labelCodes v.unaliased).filterMap a.label?
  if a.type.hasLabels && !labels.isEmpty then some ("; ".intercalate labels) else none

/-! ## Rows -/

/-- The column is part of the result. -/
def selects (p : Projector) (name : String) : Bool :=
  (splitName? name).any (fun parts => NameMap.contains p.aliases parts.1) ||
    name = p.entity.primaryId || p.columns.contains name

/-- The selected attributes that are not null, with current names. -/
def keptAttributes (p : Projector) (row : Record) : List (String × Value) :=
  row.attributes.filterMap fun (name, v) =>
    let v := p.db.refresh v
    if p.selects name && !v.isNull then some (name, v) else none

/-- The display text of an attribute: that of the row, else its labels. -/
def displayText? (p : Projector) (row : Record) (name : String) (v : Value) : Option String :=
  (NameMap.get? row.formatted name).orElse fun _ => p.labels? name v

/-- The result row of a row. -/
def project (p : Projector) (row : Record) : Record :=
  let kept := p.keptAttributes row
  { entity := lowercase row.entity
    id := row.id
    attributes := NameMap.insertNew kept p.entity.primaryId (.recordId row.id)
    formatted := kept.filterMap fun (name, v) => (p.displayText? row name v).map (name, ·) }

end Projector

end RecordQuery
