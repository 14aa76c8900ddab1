import RecordQuery.Query.Link
import RecordQuery.Query.Scope
import RecordQuery.Schema.Catalog
import RecordQuery.Store
import Std.Data.HashMap

/-!
# Joins

A join is a link made ready: the records it may add are known, and with them the way to find those
that match a row.  Where a row has no match an inner join drops it and an outer join keeps it as
it is; where it has several, the row is repeated for each.

*Matching.*  Two attributes match when their keys are equal: identifiers and references by the
identifier, numbers by value, texts exactly, whatever the letter case means elsewhere.  Null and
sets of option codes never match.

*Finding.*  For many rows or many records the matches are looked up in an index that is built
once.  Otherwise the records are searched for every row.

*Links below links.*  They are matched against the record that was joined, not against the row.  A
match all of whose inner joins fail below counts as none, so an outer join still keeps the row.
-/

namespace RecordQuery

open Text

/-! ## Join keys -/

/-- What joins compare: numbers without trailing zeros, and no key for sets of codes. -/
def Key.forJoin? : Key → Option Key
  | .number d => some (.number d.normalize)
  | .codes _ => none
  | k => some k

/-- The join key of an attribute of a record. -/
def joinKey? (name : String) (r : Record) : Except QueryError (Option Key) :=
  match r.get? name with
  | some v => (Key.ofValue name v).map (·.bind Key.forJoin?)
  | none => .ok none

/-- A key has a hash that depends on its kind and parts. -/
instance : Hashable Key where
  hash
    | .bool b => hash (0, b)
    | .number d => hash (1, d.coefficient, d.scale)
    | .text s => hash (2, s)
    | .instant i => hash (3, i.date.day, i.second, i.nano)
    | .recordId id => hash (4, id)
    | .bytes bs => hash (5, bs)
    | .codes cs => hash (6, cs.map (·.toInt))

/-! ## Finding matches -/

/-- How the matches of a row are found. -/
inductive JoinStrategy where
  | nestedLoop | hashJoin
deriving DecidableEq, Repr

/-- An index pays off for more than 100 rows or more than 1000 records to be joined. -/
def JoinStrategy.select (rows records : Nat) : JoinStrategy :=
  if 100 < rows ∨ 1000 < records then .hashJoin else .nestedLoop

/-- Records under their join keys, those of one key in their order. -/
abbrev JoinIndex := Std.HashMap Key (List Record)

/-- The index of records whose keys are known. -/
def JoinIndex.ofKeyed (rs : List (Option Key × Record)) : JoinIndex :=
  rs.foldr
    (fun r index => match r.1 with
      | some k => index.insert k (r.2 :: index.getD k [])
      | none => index)
    {}

/-- The records that a join may add. -/
inductive Candidates where
  | searched (rs : List Record)
  | indexed (index : JoinIndex)

namespace Candidates

/-- Makes the records ready for a strategy.  Only an index reads all their keys at once. -/
def prepare (strategy : JoinStrategy) (name : String) (rs : List Record) :
    Except QueryError Candidates :=
  match strategy with
  | .nestedLoop => .ok (.searched rs)
  | .hashJoin => do
    let keyed ← rs.mapM fun r => (joinKey? name r).map (·, r)
    return .indexed (JoinIndex.ofKeyed keyed)

/-- The records with a key, in their order. -/
def withKey (name : String) (k : Key) : Candidates → Except QueryError (List Record)
  | .searched rs => do
    let keyed ← rs.mapM fun r => (joinKey? name r).map (·, r)
    return (keyed.filter (·.1 = some k)).map (·.2)
  | .indexed index => .ok (index.getD k [])

end Candidates

/-! ## Joins -/

/-- A link made ready. -/
structure Join where
  aliasName : String
  entity : Entity
  /-- The attribute of the record that the join starts from. -/
  fromAttribute : String
  /-- The attribute of the records that the join adds. -/
  toAttribute : String
  kind : JoinKind
  columns : ColumnSet
  candidates : Candidates

namespace Join

/-- The records that match a record, in their order. -/
def matchesOf (j : Join) (source : Record) : Except QueryError (List Record) := do
  match ← joinKey? j.fromAttribute source with
  | some k => j.candidates.withKey j.toAttribute k
  | none => return []

/-- The value of a joined record as a row holds it. -/
def merged (j : Join) (name : String) (v : Value) : Value :=
  .aliased ⟨j.entity.name, name, v.unaliased⟩

/-- The part of a name of a joined record that stands behind the alias of the join in the row.  A
name with a point belongs to the join only if its own alias stands before the point. -/
def ownName? (j : Join) (name : String) : Option String :=
  match splitName? name with
  | none => some name
  | some (aliasName, rest) => if aliasName = j.aliasName then some rest else none

/-- Puts entries of a joined record into a map of a row, under the alias of the join. -/
def mergeEntries (j : Join) (write : String → α → β) (entries : NameMap α) (into : NameMap β) :
    NameMap β :=
  entries.foldl
    (fun m e => match j.ownName? e.1 with
      | some name => NameMap.insert m (mergedName j.aliasName name) (write name e.2)
      | none => m)
    into

/-- Puts a requested attribute of a joined record into a row. -/
def mergeColumn (j : Join) (joined : Record) (row : Record) (name : String) : Record :=
  let key := mergedName j.aliasName name
  { row with
    attributes := match joined.get? name with
      | some v => NameMap.insert row.attributes key (j.merged name v)
      | none => row.attributes
    formatted := match joined.formatted? name with
      | some s => NameMap.insert row.formatted key s
      | none => row.formatted }

/-- Puts the requested columns of a joined record into a row. -/
def merge (j : Join) (row joined : Record) : Record :=
  match j.columns with
  | .all =>
    { row with
      attributes := j.mergeEntries j.merged joined.attributes row.attributes
      formatted := j.mergeEntries (fun _ s => s) joined.formatted row.formatted }
  | .listed names => names.foldl (j.mergeColumn joined) row

end Join

/-! ## Expanding rows -/

mutual

/-- The rows that a row becomes by a join and those below it.  `source` is the record that holds
the attribute the join starts from. -/
def expand (row source : Record) : Tree Join → Except QueryError (List Record)
  | .node j branches => do
    let found ← j.matchesOf source
    let expanded ← found.mapM fun joined => resolveFrom joined branches [j.merge row joined]
    let rows := expanded.flatten
    return if rows.isEmpty && j.kind = .leftOuter then [row] else rows

/-- The rows that some rows become by joins side by side, all of which start from one record.
Every match of the first join goes through the second, and so on. -/
def resolveFrom (source : Record) : List (Tree Join) → List Record → Except QueryError (List Record)
  | [], rows => return rows
  | t :: ts, rows => do
    let expanded ← rows.mapM fun row => expand row source t
    resolveFrom source ts expanded.flatten

end

/-- The rows that a record becomes by joins. -/
def resolve (joins : List (Tree Join)) (row source : Record) : Except QueryError (List Record) :=
  resolveFrom source joins [row]

end RecordQuery
