import RecordQuery.Error
import RecordQuery.Query.Link
import RecordQuery.Query.Order
import RecordQuery.Query.Paging

/-!
# Queries and their results

A query reads records of one entity type: those that satisfy its criteria, joined to others by its
links.  A query by example is a shorter form that asks for records with given attribute values.
-/

namespace RecordQuery

open Text

/-! ## Queries -/

/-- A query for records of an entity type. -/
structure Query where
  entity : String
  columns : ColumnSet
  criteria : Filter Condition
  links : List Link
  orders : List Order
  page : Option PageRequest
  /-- The number of rows after which the result ends. -/
  top : Option UInt32
  /-- Rows that equal an earlier one are dropped. -/
  distinct : Bool
  /-- The number of all rows is returned too. -/
  countTotal : Bool

namespace Query

/-- A query for all records of an entity type. -/
def new (entity : String) : Query :=
  ⟨lowercase entity, .empty, .empty, [], [], none, none, false, false⟩

/-- Adds a link from the query's entity type. -/
def withLink (q : Query) (target fromAttribute toAttribute : String) (kind : JoinKind) : Query :=
  { q with links := q.links ++ [Link.new q.entity target fromAttribute toAttribute kind] }

end Query

/-! ## Queries by example -/

/-- A query for records with given attribute values. -/
structure ExampleQuery where
  entity : String
  attributes : List String
  /-- A value for each attribute. -/
  values : List Value
  columns : ColumnSet
  orders : List Order
  page : Option PageRequest
  top : Option UInt32

namespace ExampleQuery

/-- A query by example without attributes. -/
def new (entity : String) : ExampleQuery :=
  ⟨lowercase entity, [], [], .empty, [], none, none⟩

/-- Asks for a value of an attribute. -/
def withAttribute (q : ExampleQuery) (name : String) (v : Value) : ExampleQuery :=
  { q with
    attributes := q.attributes ++ [lowercase name]
    values := q.values ++ [v] }

/-- The query whose criteria are that each attribute equals its value. -/
def toQuery (q : ExampleQuery) : Except BadExample Query :=
  if q.attributes.isEmpty then .error .noAttributes
  else if q.attributes.length ≠ q.values.length then
    .error (.unpaired q.attributes.length q.values.length)
  else .ok
    { entity := q.entity
      columns := q.columns
      criteria := .node .and (List.zipWith Condition.eq q.attributes q.values) []
      links := []
      orders := q.orders
      page := q.page
      top := q.top
      distinct := false
      countTotal := false }

end ExampleQuery

/-! ## Results -/

/-- The rows that a query returns. -/
structure ResultSet where
  /-- The entity type of the query. -/
  entity : String
  rows : List Record
  /-- There are rows behind the returned page. -/
  more : Bool
  /-- The token of the returned page. -/
  cookie : Option String
  /-- The number of all rows. -/
  total : Option Nat

/-- The request for the page behind the one a result holds. -/
def PageRequest.next? (r : PageRequest) (result : ResultSet) : Option PageRequest :=
  if result.more then some ⟨r.number + 1, r.count, result.cookie⟩ else none

end RecordQuery
