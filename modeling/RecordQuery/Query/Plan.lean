import RecordQuery.Query.Join

/-!
# Planning joins

A plan makes the links of a query ready, depth first.  Each link gets an alias: its own, else the
name of the entity type it joins and its position, the first link being 1.  No alias may occur
twice, and a link must start from the entity type above it.

In strict mode all attributes that a link names must be declared.
-/

namespace RecordQuery

open Text

/-- Records and the entity types they belong to. -/
structure Database where
  store : Store
  schema : Schema

/-- What a plan has gathered from the links before. -/
structure PlanState where
  /-- The entity types of the links under their aliases. -/
  aliases : NameMap Entity
  /-- The number of links. -/
  position : Nat

/-- Nothing was planned yet. -/
def PlanState.start : PlanState := ⟨[], 0⟩

/-- An attribute must be declared. -/
def Entity.require (e : Entity) (name : String) : Except QueryError Unit :=
  if e.declares name then .ok () else .error (.unknownAttribute e.name name)

/-- Attributes must be declared. -/
def Entity.requireAll (e : Entity) (names : List String) : Except QueryError Unit :=
  names.forM e.require

/-- The entity type with a name. -/
def Schema.find (s : Schema) (name : String) : Except QueryError Entity :=
  match s.entity? name with
  | some e => .ok e
  | none => .error (.unknownEntity name)

/-- The alias of a link at a position. -/
def LinkSpec.aliasAt (l : LinkSpec) (position : Nat) : String :=
  l.aliasName.getD (l.target ++ toString position)

/-- The attributes that a link names must be declared. -/
def LinkSpec.requireDeclared (l : LinkSpec) (parent e : Entity) : Except QueryError Unit := do
  parent.require l.fromAttribute
  e.requireAll (l.toAttribute :: l.columns.explicit)

namespace Database

/-- The records of an entity type that satisfy criteria. -/
def select (db : Database) (ctx : Context) (e : Entity) (criteria : Filter CompiledCondition) :
    Except QueryError (List Record) := do
  let kept ← (db.store.snapshot e).mapM fun r => (criteria.evaluate ctx r).map (r, ·)
  return (kept.filter (·.2)).map (·.1)

/-- Makes one link ready that starts from an entity type. -/
def planLink (db : Database) (ctx : Context) (rows : Nat) (parent : Entity) (state : PlanState)
    (l : LinkSpec) : Except QueryError (Join × PlanState) := do
  let position := state.position + 1
  let aliasName := l.aliasAt position
  if NameMap.contains state.aliases aliasName then
    throw (.malformed (.duplicateAlias aliasName))
  if !equalIgnoringAsciiCase l.source parent.name then
    throw (.malformed (.detachedLink aliasName l.source parent.name))
  let e ← db.schema.find l.target
  if ctx.strict then l.requireDeclared parent e
  let criteria ← l.criteria.compile (.link e aliasName) ctx
  let records ← db.select ctx e criteria
  let toAttribute := lowercase l.toAttribute
  let candidates ← Candidates.prepare (.select rows records.length) toAttribute records
  return (⟨aliasName, e, lowercase l.fromAttribute, toAttribute, l.kind, l.columns, candidates⟩,
    ⟨NameMap.insert state.aliases aliasName e, position⟩)

mutual

/-- Makes a link ready and those below it. -/
def planTree (db : Database) (ctx : Context) (rows : Nat) (parent : Entity) (state : PlanState) :
    Link → Except QueryError (Tree Join × PlanState)
  | .node l branches => do
    let (join, state) ← db.planLink ctx rows parent state l
    let (below, state) ← planForest db ctx rows join.entity state branches
    return (.node join below, state)

/-- Makes links ready that start from one entity type. -/
def planForest (db : Database) (ctx : Context) (rows : Nat) (parent : Entity)
    (state : PlanState) : List Link → Except QueryError (List (Tree Join) × PlanState)
  | [] => return ([], state)
  | l :: ls => do
    let (tree, state) ← planTree db ctx rows parent state l
    let (forest, state) ← planForest db ctx rows parent state ls
    return (tree :: forest, state)

end

/-- The joins of links that start from an entity type, for an expected number of rows, and the
entity types under all aliases. -/
def plan (db : Database) (ctx : Context) (rows : Nat) (parent : Entity) (links : List Link) :
    Except QueryError (List (Tree Join) × NameMap Entity) :=
  (db.planForest ctx rows parent .start links).map fun p => (p.1, p.2.aliases)

end Database

end RecordQuery
