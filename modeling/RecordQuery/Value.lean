import RecordQuery.Calendar.Instant
import RecordQuery.Number.Double
import RecordQuery.RecordId

/-!
# Values and records

An attribute of a record holds one value of a closed set of kinds.  A value may hold whole records
(a list of parties) and a record holds values, so both are defined together.

A column that a join merged into a row is wrapped with the entity type and the attribute it came
from.  Wrappers may nest; every question about a value but its own kind looks through them.
-/

namespace RecordQuery

mutual

/-- A typed attribute value. -/
inductive Value where
  | null
  | bool (b : Bool)
  | int (n : Int32)
  | bigint (n : Int64)
  | double (d : Double)
  | decimal (d : Decimal)
  | text (s : String)
  | instant (i : Instant)
  | recordId (id : RecordId)
  | bytes (bs : List UInt8)
  | reference (r : Reference)
  /-- One code of an option set. -/
  | option (code : Int32)
  | money (amount : Decimal)
  /-- Codes of a multi-select option set, as they were selected. -/
  | options (codes : List Int32)
  | records (rows : List Record)
  | aliased (column : MergedColumn)

/-- A reference to a record. -/
structure Reference where
  /-- Entity type of the record. -/
  entity : String
  id : RecordId
  /-- Display name of the record as it was when the reference was stored. -/
  name : Option String
  /-- Alternate keys that identify the record. -/
  keys : List (String × Value)

/-- A record of an entity type. -/
structure Record where
  entity : String
  id : RecordId
  attributes : List (String × Value)
  /-- Display texts of attributes. -/
  formatted : List (String × String)

/-- A value that a join merged into a row. -/
structure MergedColumn where
  /-- Entity type of the joined record. -/
  entity : String
  /-- Name of the attribute there. -/
  name : String
  value : Value

end

instance : Inhabited Value := ⟨.null⟩
instance : Inhabited Record := ⟨⟨"", .nil, [], []⟩⟩

/-! ## Kinds -/

/-- The kinds of values. -/
inductive ValueKind where
  | null | boolean | integer | bigint | double | decimal | string | datetime | guid | binary
  | reference | optionSet | money | multiSelect | collection | aliased
deriving DecidableEq, Repr

/-- The name of a kind in error messages. -/
def ValueKind.name : ValueKind → String
  | .null => "null"
  | .boolean => "boolean"
  | .integer => "integer"
  | .bigint => "bigint"
  | .double => "double"
  | .decimal => "decimal"
  | .string => "string"
  | .datetime => "datetime"
  | .guid => "guid"
  | .binary => "binary"
  | .reference => "entity reference"
  | .optionSet => "option set"
  | .money => "money"
  | .multiSelect => "multi-select option set"
  | .collection => "entity collection"
  | .aliased => "aliased value"

/-! ## Sets of option codes -/

/-- Puts a code into an ascending list that holds every code once. -/
def insertCode (code : Int32) : List Int32 → List Int32
  | [] => [code]
  | c :: cs =>
    if code < c then code :: c :: cs
    else if code = c then c :: cs
    else c :: insertCode code cs

/-- The distinct codes of a list, in ascending order. -/
def distinctCodes (codes : List Int32) : List Int32 :=
  codes.foldr insertCode []

example : distinctCodes [3, 1, 2, 1] = [1, 2, 3] := by decide

/-! ## Questions about a value -/

namespace Value

/-- The kind of a value, a wrapper being a kind of its own. -/
def kind : Value → ValueKind
  | .null => .null
  | .bool _ => .boolean
  | .int _ => .integer
  | .bigint _ => .bigint
  | .double _ => .double
  | .decimal _ => .decimal
  | .text _ => .string
  | .instant _ => .datetime
  | .recordId _ => .guid
  | .bytes _ => .binary
  | .reference _ => .reference
  | .option _ => .optionSet
  | .money _ => .money
  | .options _ => .multiSelect
  | .records _ => .collection
  | .aliased _ => .aliased

/-- The value inside all wrappers. -/
def unaliased : Value → Value
  | .aliased ⟨_, _, v⟩ => v.unaliased
  | v => v

/-- Null, also inside wrappers. -/
def isNull (v : Value) : Bool :=
  match v.unaliased with
  | .null => true
  | _ => false

/-- The truth value, if it is one. -/
def bool? (v : Value) : Option Bool :=
  match v.unaliased with
  | .bool b => some b
  | _ => none

/-- The whole number of an integer of either width or of an option code. -/
def int? (v : Value) : Option Int :=
  match v.unaliased with
  | .int n => some n.toInt
  | .bigint n => some n.toInt
  | .option c => some c.toInt
  | _ => none

/-- The text, if it is one. -/
def text? (v : Value) : Option String :=
  match v.unaliased with
  | .text s => some s
  | _ => none

/-- The instant, if it is one. -/
def instant? (v : Value) : Option Instant :=
  match v.unaliased with
  | .instant i => some i
  | _ => none

/-- The identifier, also of a reference. -/
def id? (v : Value) : Option RecordId :=
  match v.unaliased with
  | .recordId id => some id
  | .reference r => some r.id
  | _ => none

/-- The reference, if it is one. -/
def reference? (v : Value) : Option Reference :=
  match v.unaliased with
  | .reference r => some r
  | _ => none

/-- The bytes, if they are some. -/
def bytes? (v : Value) : Option (List UInt8) :=
  match v.unaliased with
  | .bytes bs => some bs
  | _ => none

/-- Codes between brackets, sorted and each once. -/
def codesText (codes : List Int32) : String :=
  "[" ++ ",".intercalate ((distinctCodes codes).map fun c => toString c.toInt) ++ "]"

/-- The text that shows a value. -/
def display : Value → String
  | .null => "null"
  | .bool b => if b then "true" else "false"
  | .int n => toString n.toInt
  | .bigint n => toString n.toInt
  | .double d => d.text
  | .decimal d => d.text
  | .text s => s
  | .instant i => i.text
  | .recordId id => id.text
  | .bytes bs => s!"<{bs.length} bytes>"
  | .reference r => r.entity ++ "(" ++ r.id.text ++ ")"
  | .option c => toString c.toInt
  | .money d => d.text
  | .options cs => codesText cs
  | .records rs => s!"<{rs.length} records>"
  | .aliased ⟨_, _, v⟩ => v.display

end Value

end RecordQuery
