import RecordQuery.Query.Projection
import RecordQuery.Query.Query

/-!
# Executing queries

A query is first checked and compiled as a whole: its joins, its criteria, its orders and its
columns, in this sequence.  Then the records are filtered and joined, and the rows sorted,
projected, freed of repeated ones, counted and cut.  Every failure ends the query.

Criteria that name no alias are tested on the record before it is joined.  Criteria that do are
tested on every joined row.
-/

namespace RecordQuery

/-! ## Repeated rows -/

/-- The elements whose key is not among those seen before, each key once. -/
def firstByKey [BEq κ] (key : α → κ) (seen : List κ) : List α → List α
  | [] => []
  | a :: as =>
    if seen.contains (key a) then firstByKey key seen as
    else a :: firstByKey key (key a :: seen) as

/-- The rows without those whose JSON text an earlier one has. -/
def distinctRows (rows : List Record) : List Record :=
  firstByKey (·.toJson.text) [] rows

/-! ## Compiled queries -/

/-- A query that is ready for records. -/
structure CompiledQuery where
  entity : Entity
  joins : List (Tree Join)
  criteria : Filter CompiledCondition
  /-- The criteria are tested on joined rows. -/
  filtersJoined : Bool
  orders : List CompiledOrder
  projector : Projector

namespace CompiledQuery

/-- The rows that a record becomes. -/
def rowsOf (q : CompiledQuery) (ctx : Context) (r : Record) : Except QueryError (List Record) := do
  if q.filtersJoined then
    let rows ← resolve q.joins r r
    let kept ← rows.mapM fun row => (q.criteria.evaluate ctx row).map (row, ·)
    return (kept.filter (·.2)).map (·.1)
  else if ← q.criteria.evaluate ctx r then resolve q.joins r r
  else return []

/-- The rows that records become, in order and projected. -/
def run (q : CompiledQuery) (ctx : Context) (records : List Record) :
    Except QueryError (List Record) := do
  let rows ← records.mapM (q.rowsOf ctx)
  let sorted ← CompiledOrder.sortRows q.orders ctx rows.flatten
  return sorted.map q.projector.project

end CompiledQuery

/-! ## Execution -/

namespace Query

/-- The checks of a query that need no records. -/
def validate (q : Query) (ctx : Context) : Except QueryError Unit := do
  if q.top.isSome && q.page.isSome then throw (.malformed .topWithPaging)
  ctx.fiscal.validate

/-- Cuts what the query asks for out of all its rows. -/
def window (q : Query) (entity : String) (rows : List Record) : Except QueryError ResultSet := do
  let total := if q.countTotal then some rows.length else none
  match q.top, q.page with
  | some n, _ => return ⟨entity, rows.take n.toNat, false, none, total⟩
  | none, some request => do
    let page ← request.cut rows
    return ⟨entity, page.rows, page.more, some page.cookie, total⟩
  | none, none => return ⟨entity, rows, false, none, total⟩

end Query

namespace Database

/-- Compiles a query on an entity type that has a number of records. -/
def compile (db : Database) (ctx : Context) (q : Query) (e : Entity) (records : Nat) :
    Except QueryError CompiledQuery := do
  let (joins, aliases) ← db.plan ctx records e q.links
  let scope := Scope.root e aliases
  let criteria ← q.criteria.compile scope ctx
  let orders ← q.orders.mapM (·.compile scope ctx)
  let projector ← Projector.new db e aliases q.columns ctx.strict
  return ⟨e, joins, criteria, q.criteria.referencesAliases, orders, projector⟩

/-- All rows of a query on an entity type. -/
def allRows (db : Database) (ctx : Context) (q : Query) (e : Entity) :
    Except QueryError (List Record) := do
  let records := db.store.snapshot e
  let compiled ← db.compile ctx q e records.length
  let rows ← compiled.run ctx records
  return if q.distinct then distinctRows rows else rows

/-- Executes a query. -/
def execute (db : Database) (ctx : Context) (q : Query) : Except QueryError ResultSet := do
  q.validate ctx
  let e ← db.schema.find q.entity
  q.window e.name (← db.allRows ctx q e)

/-- Executes a query by example. -/
def executeExample (db : Database) (ctx : Context) (q : ExampleQuery) :
    Except QueryError ResultSet := do
  db.execute ctx (← q.toQuery.mapError .badExample)

end Database

end RecordQuery
