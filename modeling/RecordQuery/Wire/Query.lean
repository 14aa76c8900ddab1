import RecordQuery.Query.Query
import RecordQuery.Wire.Schema

/-!
# JSON form of queries and results

A query is written with all its parts, absent ones as null.  When it is read, a member that may be
null may also be missing.  Names are taken as they are written, whatever their letter case.
-/

namespace RecordQuery

/-! ## Conditions and filters -/

namespace Condition

/-- The JSON form of a condition. -/
def toJson (c : Condition) : Json :=
  .object
    [("entity_name", .ofOption .string c.aliasName), ("attribute_name", .string c.name),
     ("operator", .string c.operator.name), ("values", .ofList Value.toJson c.values)]

/-- The condition of a JSON form. -/
def ofJson? : (depth : Nat) → Json → Option Condition :=
  Json.fields? ["entity_name", "attribute_name", "operator", "values"] fun depth ms => do
    let aliasName ← (← Json.fieldOrNull? ms "entity_name").optional? Json.string?
    let name ← (← Json.field? ms "attribute_name").string?
    let operator ← Json.choice? Operator.ofName? depth (← Json.field? ms "operator")
    let values ← Json.list? Value.ofJson? depth (← Json.field? ms "values")
    some ⟨aliasName, name, operator, values⟩

end Condition

/-- The written name of a connective. -/
def Connective.name : Connective → String
  | and => "And"
  | or => "Or"

/-- The connective with a written name. -/
def Connective.ofName? (s : String) : Option Connective :=
  [and, or].find? (·.name = s)

namespace Filter

mutual

/-- The JSON form of a filter. -/
def toJson : Filter Condition → Json
  | .node c cs fs => .object
    [("filter_operator", .string c.name), ("conditions", .ofList Condition.toJson cs),
     ("filters", .array (allToJson fs))]

/-- The JSON forms of filters. -/
def allToJson : List (Filter Condition) → List Json
  | [] => []
  | f :: fs => f.toJson :: allToJson fs

end

/-- The filter of a JSON form, which holds lists one level down. -/
def ofJson? : (depth : Nat) → Json → Option (Filter Condition)
  | depth + 2, j => do
    let ms ← j.shape? ["filter_operator", "conditions", "filters"]
    let connective ←
      Json.choice? Connective.ofName? (depth + 1) (← Json.field? ms "filter_operator")
    let conditions ← Json.list? Condition.ofJson? (depth + 1) (← Json.field? ms "conditions")
    let filters ← (← (← Json.field? ms "filters").items?).mapM (ofJson? depth)
    some (.node connective conditions filters)
  | _, _ => none

end Filter

/-! ## Columns and links -/

namespace ColumnSet

/-- The JSON form of requested columns. -/
def toJson : ColumnSet → Json
  | .all => .string "AllColumns"
  | .listed names => .object [("Columns", .ofList .string names)]

/-- The requested columns of a JSON form. -/
def ofJson? : (depth : Nat) → Json → Option ColumnSet
  | _, .string s => if s = "AllColumns" then some .all else none
  | depth + 1, .object [(s, j)] =>
    if s = "Columns" then (Json.strings? depth j).map .listed
    else match j with
      | .null => if s = "AllColumns" then some .all else none
      | _ => none
  | _, _ => none

end ColumnSet

/-- The written name of a kind of join. -/
def JoinKind.name : JoinKind → String
  | inner => "Inner"
  | leftOuter => "LeftOuter"

/-- The kind of join with a written name. -/
def JoinKind.ofName? (s : String) : Option JoinKind :=
  [inner, leftOuter].find? (·.name = s)

namespace Link

mutual

/-- The JSON form of a link. -/
def toJson : Link → Json
  | .node l branches => .object
    [("link_from_entity_name", .string l.source),
     ("link_from_attribute_name", .string l.fromAttribute),
     ("link_to_entity_name", .string l.target),
     ("link_to_attribute_name", .string l.toAttribute),
     ("join_operator", .string l.kind.name), ("entity_alias", .ofOption .string l.aliasName),
     ("columns", l.columns.toJson), ("link_criteria", l.criteria.toJson),
     ("link_entities", .array (allToJson branches))]

/-- The JSON forms of links. -/
def allToJson : List Link → List Json
  | [] => []
  | l :: ls => toJson l :: allToJson ls

end

/-- The link of a JSON form, which holds lists one level down. -/
def ofJson? : (depth : Nat) → Json → Option Link
  | depth + 2, j => do
    let ms ← j.shape?
      ["link_from_entity_name", "link_from_attribute_name", "link_to_entity_name",
       "link_to_attribute_name", "join_operator", "entity_alias", "columns", "link_criteria",
       "link_entities"]
    let source ← (← Json.field? ms "link_from_entity_name").string?
    let fromAttribute ← (← Json.field? ms "link_from_attribute_name").string?
    let target ← (← Json.field? ms "link_to_entity_name").string?
    let toAttribute ← (← Json.field? ms "link_to_attribute_name").string?
    let kind ← Json.choice? JoinKind.ofName? (depth + 1) (← Json.field? ms "join_operator")
    let aliasName ← (← Json.fieldOrNull? ms "entity_alias").optional? Json.string?
    let columns ← ColumnSet.ofJson? (depth + 1) (← Json.field? ms "columns")
    let criteria ← Filter.ofJson? (depth + 1) (← Json.field? ms "link_criteria")
    let branches ← (← (← Json.field? ms "link_entities").items?).mapM (ofJson? depth)
    some (.node ⟨source, fromAttribute, target, toAttribute, kind, aliasName, columns, criteria⟩
      branches)
  | _, _ => none

end Link

/-! ## Orders and pages -/

/-- The written name of a direction. -/
def Direction.name : Direction → String
  | ascending => "Ascending"
  | descending => "Descending"

/-- The direction with a written name. -/
def Direction.ofName? (s : String) : Option Direction :=
  [ascending, descending].find? (·.name = s)

namespace Order

/-- The JSON form of an order. -/
def toJson (o : Order) : Json :=
  .object
    [("attribute_name", .string o.name), ("order_type", .string o.direction.name),
     ("entity_alias", .ofOption .string o.aliasName)]

/-- The order of a JSON form. -/
def ofJson? : (depth : Nat) → Json → Option Order :=
  Json.fields? ["attribute_name", "order_type", "entity_alias"] fun depth ms => do
    let name ← (← Json.field? ms "attribute_name").string?
    let direction ← Json.choice? Direction.ofName? depth (← Json.field? ms "order_type")
    let aliasName ← (← Json.fieldOrNull? ms "entity_alias").optional? Json.string?
    some ⟨name, direction, aliasName⟩

end Order

namespace PageRequest

/-- The JSON form of a page request. -/
def toJson (r : PageRequest) : Json :=
  .object
    [("page_number", .integer r.number.toNat), ("count", .integer r.count.toNat),
     ("paging_cookie", .ofOption .string r.cookie)]

/-- The page request of a JSON form. -/
def ofJson? : (depth : Nat) → Json → Option PageRequest :=
  Json.fields? ["page_number", "count", "paging_cookie"] fun _ ms => do
    let number ← (← Json.field? ms "page_number").uint32?
    let count ← (← Json.field? ms "count").uint32?
    let cookie ← (← Json.fieldOrNull? ms "paging_cookie").optional? Json.string?
    some ⟨number, count, cookie⟩

end PageRequest

/-! ## Queries -/

namespace Query

/-- The JSON form of a query. -/
def toJson (q : Query) : Json :=
  .object
    [("entity_name", .string q.entity), ("column_set", q.columns.toJson),
     ("criteria", q.criteria.toJson), ("link_entities", .array (Link.allToJson q.links)),
     ("orders", .ofList Order.toJson q.orders), ("page_info", .ofOption PageRequest.toJson q.page),
     ("top_count", .ofOption (fun n => .integer n.toNat) q.top), ("distinct", .bool q.distinct),
     ("return_total_record_count", .bool q.countTotal)]

/-- The query of a JSON form. -/
def ofJson? : (depth : Nat) → Json → Option Query :=
  Json.fields?
    ["entity_name", "column_set", "criteria", "link_entities", "orders", "page_info", "top_count",
     "distinct", "return_total_record_count"]
    fun depth ms => do
      let entity ← (← Json.field? ms "entity_name").string?
      let columns ← ColumnSet.ofJson? depth (← Json.field? ms "column_set")
      let criteria ← Filter.ofJson? depth (← Json.field? ms "criteria")
      let links ← Json.list? Link.ofJson? depth (← Json.field? ms "link_entities")
      let orders ← Json.list? Order.ofJson? depth (← Json.field? ms "orders")
      let page ← (← Json.fieldOrNull? ms "page_info").optional? (PageRequest.ofJson? depth)
      let top ← (← Json.fieldOrNull? ms "top_count").optional? Json.uint32?
      let distinct ← (← Json.field? ms "distinct").bool?
      let countTotal ← (← Json.field? ms "return_total_record_count").bool?
      some ⟨entity, columns, criteria, links, orders, page, top, distinct, countTotal⟩

end Query

namespace ExampleQuery

/-- The JSON form of a query by example. -/
def toJson (q : ExampleQuery) : Json :=
  .object
    [("entity_name", .string q.entity), ("attributes", .ofList .string q.attributes),
     ("values", .ofList Value.toJson q.values), ("column_set", q.columns.toJson),
     ("orders", .ofList Order.toJson q.orders), ("page_info", .ofOption PageRequest.toJson q.page),
     ("top_count", .ofOption (fun n => .integer n.toNat) q.top)]

/-- The query by example of a JSON form. -/
def ofJson? : (depth : Nat) → Json → Option ExampleQuery :=
  Json.fields?
    ["entity_name", "attributes", "values", "column_set", "orders", "page_info", "top_count"]
    fun depth ms => do
      let entity ← (← Json.field? ms "entity_name").string?
      let attributes ← Json.strings? depth (← Json.field? ms "attributes")
      let values ← Json.list? Value.ofJson? depth (← Json.field? ms "values")
      let columns ← ColumnSet.ofJson? depth (← Json.field? ms "column_set")
      let orders ← Json.list? Order.ofJson? depth (← Json.field? ms "orders")
      let page ← (← Json.fieldOrNull? ms "page_info").optional? (PageRequest.ofJson? depth)
      let top ← (← Json.fieldOrNull? ms "top_count").optional? Json.uint32?
      some ⟨entity, attributes, values, columns, orders, page, top⟩

end ExampleQuery

/-! ## Results -/

namespace ResultSet

/-- The JSON form of a result. -/
def toJson (r : ResultSet) : Json :=
  .object
    [("entity_name", .string r.entity), ("entities", .array (recordsToJson r.rows)),
     ("more_records", .bool r.more), ("paging_cookie", .ofOption .string r.cookie),
     ("total_record_count", .ofOption (fun (n : Nat) => .integer n) r.total)]

/-- The result of a JSON form. -/
def ofJson? : (depth : Nat) → Json → Option ResultSet :=
  Json.fields?
    ["entity_name", "entities", "more_records", "paging_cookie", "total_record_count"]
    fun depth ms => do
      let entity ← (← Json.field? ms "entity_name").string?
      let rows ← Json.list? Record.ofJson? depth (← Json.field? ms "entities")
      let more ← (← Json.field? ms "more_records").bool?
      let cookie ← (← Json.fieldOrNull? ms "paging_cookie").optional? Json.string?
      let total ← (← Json.fieldOrNull? ms "total_record_count").optional? Json.uint64?
      some ⟨entity, rows, more, cookie, total.map (·.toNat)⟩

end ResultSet

end RecordQuery
