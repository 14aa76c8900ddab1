import RecordQuery.Json.Basic
import RecordQuery.NameMap
import RecordQuery.Value

/-!
# JSON form of values and records

A value is written as an object with one member, named for its kind and holding its content; null
is the string `"Null"`.  Decimals, identifiers and instants are written as text.

Reading accepts a member named twice in a map, of which the last counts, and refuses it in a value
of fixed shape; unknown members of a fixed shape are skipped, and a missing one is refused unless
it may be null.  A value of fixed shape may also be the array of all its members in order.  The
functions that read nested values take the number of levels they may open.
-/

namespace RecordQuery

/-- The number of nested arrays and objects that a text may open. -/
def Json.maxDepth : Nat := 127

/-! ## Parts without structure -/

namespace Decimal

/-- A decimal as its text. -/
def toJson (d : Decimal) : Json := .string d.text

/-- A decimal from its text or from a number, which counts with its exact value; either of them
also as the one member of an object that stands for a number. -/
def ofJson? : (depth : Nat) → Json → Option Decimal
  | _, .string s => ofText? s
  | _, .integer n => some (ofInt n)
  | _, .double d => some d.exactDecimal
  | depth + 1, .object [(name, j)] => if name = Json.numberName then ofJson? depth j else none
  | _, _ => none

end Decimal

namespace RecordId

/-- An identifier as its text. -/
def toJson (id : RecordId) : Json := .string id.text

/-- An identifier from its text. -/
def ofJson? (j : Json) : Option RecordId := j.string?.bind ofText?

end RecordId

namespace Instant

/-- An instant as its stored text. -/
def toJson (i : Instant) : Json := .string i.storedText

/-- An instant from its stored text. -/
def ofJson? (j : Json) : Option Instant := j.string?.bind ofStored?

end Instant

/-! ## Lists and maps -/

namespace Json

/-- A list as an array. -/
def ofList (write : α → Json) (as : List α) : Json := .array (as.map write)

/-- The items of an array, one level down. -/
def list? (read : (depth : Nat) → Json → Option α) : (depth : Nat) → Json → Option (List α)
  | depth + 1, .array js => js.mapM (read depth)
  | _, _ => none

/-- A map as an object. -/
def ofMap (write : α → Json) (m : NameMap α) : Json :=
  .object (m.map fun e => (e.1, write e.2))

/-- The members of an object, one level down, each name with its last value. -/
def map? (read : (depth : Nat) → Json → Option α) : (depth : Nat) → Json → Option (NameMap α)
  | depth + 1, j => do
    let ms ← j.members?
    let as ← ms.mapM fun m => (read depth m.2).map (m.1, ·)
    some (NameMap.ofList as)
  | 0, _ => none

/-- The members of a value of fixed shape, read one level down. -/
def fields? (names : List String) (read : (depth : Nat) → List (String × Json) → Option α) :
    (depth : Nat) → Json → Option α
  | depth + 1, j => (j.shape? names).bind (read depth)
  | 0, _ => none

end Json

/-! ## Writing -/

mutual

/-- The JSON form of a value. -/
def Value.toJson : Value → Json
  | .null => .string "Null"
  | .bool b => .object [("Bool", .bool b)]
  | .int n => .object [("Int", .integer n.toInt)]
  | .bigint n => .object [("BigInt", .integer n.toInt)]
  | .double d => .object [("Double", .double d)]
  | .decimal d => .object [("Decimal", d.toJson)]
  | .text s => .object [("String", .string s)]
  | .instant i => .object [("DateTime", i.toJson)]
  | .recordId id => .object [("Guid", id.toJson)]
  | .bytes bs => .object [("Bytes", .ofList (fun b => .integer b.toNat) bs)]
  | .reference r => .object [("Reference", r.toJson)]
  | .option c => .object [("OptionSet", .integer c.toInt)]
  | .money d => .object [("Money", d.toJson)]
  | .options cs => .object [("MultiOptionSet", .ofList (fun c => .integer c.toInt) cs)]
  | .records rs => .object [("EntityCollection", .array (recordsToJson rs))]
  | .aliased c => .object [("Aliased", c.toJson)]

/-- The JSON form of a reference. -/
def Reference.toJson : Reference → Json
  | ⟨entity, id, name, keys⟩ => .object
    [("logical_name", .string entity), ("id", id.toJson), ("name", .ofOption .string name),
     ("key_attributes", .object (attributesToJson keys))]

/-- The JSON form of a record. -/
def Record.toJson : Record → Json
  | ⟨entity, id, attributes, formatted⟩ => .object
    [("logical_name", .string entity), ("id", id.toJson),
     ("attributes", .object (attributesToJson attributes)),
     ("formatted_values", .ofMap .string formatted)]

/-- The JSON form of a merged column. -/
def MergedColumn.toJson : MergedColumn → Json
  | ⟨entity, name, value⟩ => .object
    [("entity_logical_name", .string entity), ("attribute_logical_name", .string name),
     ("value", value.toJson)]

/-- The JSON forms of records. -/
def recordsToJson : List Record → List Json
  | [] => []
  | r :: rs => r.toJson :: recordsToJson rs

/-- The members of the JSON form of attributes. -/
def attributesToJson : List (String × Value) → List (String × Json)
  | [] => []
  | (n, v) :: as => (n, v.toJson) :: attributesToJson as

end

/-! ## Reading -/

mutual

/-- The value of a JSON form. -/
def Value.ofJson? : (depth : Nat) → Json → Option Value
  | _, .string s => if s = "Null" then some .null else none
  | depth + 1, .object [(tag, j)] =>
    match tag with
    | "Null" => match j with
      | .null => some .null
      | _ => none
    | "Bool" => j.bool?.map .bool
    | "Int" => j.int32?.map .int
    | "BigInt" => j.int64?.map .bigint
    | "Double" => j.double?.map .double
    | "Decimal" => (Decimal.ofJson? depth j).map .decimal
    | "String" => j.string?.map .text
    | "DateTime" => (Instant.ofJson? j).map .instant
    | "Guid" => (RecordId.ofJson? j).map .recordId
    | "Bytes" =>
      (Json.list? (fun _ b => (b.unsigned? 8).map UInt8.ofNat) depth j).map .bytes
    | "Reference" => (Reference.ofJson? depth j).map .reference
    | "OptionSet" => j.int32?.map .option
    | "Money" => (Decimal.ofJson? depth j).map .money
    | "MultiOptionSet" => (Json.list? (fun _ => Json.int32?) depth j).map .options
    | "EntityCollection" => match depth, j with
      | depth + 1, .array js => (js.mapM (Record.ofJson? depth)).map .records
      | _, _ => none
    | "Aliased" => (MergedColumn.ofJson? depth j).map .aliased
    | _ => none
  | _, _ => none

/-- The reference of a JSON form, which holds a map one level down. -/
def Reference.ofJson? : (depth : Nat) → Json → Option Reference
  | depth + 2, j => do
    let ms ← j.shape? ["logical_name", "id", "name", "key_attributes"]
    let entity ← (← Json.field? ms "logical_name").string?
    let id ← RecordId.ofJson? (← Json.field? ms "id")
    let name ← (← Json.fieldOrNull? ms "name").optional? Json.string?
    let keys ← (← (← Json.field? ms "key_attributes").members?).mapM
      fun k => (Value.ofJson? depth k.2).map (k.1, ·)
    some ⟨entity, id, name, NameMap.ofList keys⟩
  | _, _ => none

/-- The record of a JSON form, which holds maps one level down. -/
def Record.ofJson? : (depth : Nat) → Json → Option Record
  | depth + 2, j => do
    let ms ← j.shape? ["logical_name", "id", "attributes", "formatted_values"]
    let entity ← (← Json.field? ms "logical_name").string?
    let id ← RecordId.ofJson? (← Json.field? ms "id")
    let attributes ← (← (← Json.field? ms "attributes").members?).mapM
      fun a => (Value.ofJson? depth a.2).map (a.1, ·)
    let formatted ←
      Json.map? (fun _ => Json.string?) (depth + 1) (← Json.field? ms "formatted_values")
    some ⟨entity, id, NameMap.ofList attributes, formatted⟩
  | _, _ => none

/-- The merged column of a JSON form. -/
def MergedColumn.ofJson? : (depth : Nat) → Json → Option MergedColumn
  | depth + 1, j => do
    let ms ← j.shape? ["entity_logical_name", "attribute_logical_name", "value"]
    let entity ← (← Json.field? ms "entity_logical_name").string?
    let name ← (← Json.field? ms "attribute_logical_name").string?
    let value ← Value.ofJson? depth (← Json.field? ms "value")
    some ⟨entity, name, value⟩
  | 0, _ => none

end

end RecordQuery
