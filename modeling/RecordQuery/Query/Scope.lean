import RecordQuery.Query.Column
import RecordQuery.Query.Compiled
import RecordQuery.Query.Filter

/-!
# What conditions may name

A condition without an alias tests an attribute of the scope's entity type.  A condition with an
alias tests an attribute of the link with that alias.  The criteria of a link are evaluated on the
records of that link alone, so there its own alias means the entity type itself and no other alias
is known.
-/

namespace RecordQuery

open Text

/-- The entity types whose attributes may be named. -/
structure Scope where
  /-- The entity type of names without an alias. -/
  entity : Entity
  /-- An alias that means the entity type itself. -/
  ownAlias : Option String
  /-- The entity types of links under their aliases. -/
  aliases : NameMap Entity

namespace Scope

/-- The scope of a whole query. -/
def root (e : Entity) (aliases : NameMap Entity) : Scope := ⟨e, none, aliases⟩

/-- The scope of the criteria of a link. -/
def link (e : Entity) (aliasName : String) : Scope := ⟨e, some aliasName, []⟩

/-- The scope of one entity type. -/
def entityOnly (e : Entity) : Scope := ⟨e, none, []⟩

/-- The column of rows that an attribute name in lower case means, and the entity type that
declares it. -/
def locate? (s : Scope) (aliasName : Option String) (name : String) : Option (String × Entity) :=
  match aliasName with
  | none => some (name, s.entity)
  | some a =>
    if s.ownAlias = some a then some (name, s.entity)
    else (NameMap.get? s.aliases a).map (mergedName a name, ·)

end Scope

namespace Condition

/-- Compiles a condition in a scope. -/
def compileIn (c : Condition) (s : Scope) (ctx : Context) : Except QueryError CompiledCondition :=
  match s.locate? c.aliasName (lowercase c.name) with
  | some (column, e) => c.compileFor column e ctx
  | none => .error (.malformed (.unknownConditionAlias (lowercase c.name) (c.aliasName.getD "")))

end Condition

namespace Filter

/-- Compiles every condition of a filter in a scope. -/
def compile (f : Filter Condition) (s : Scope) (ctx : Context) :
    Except QueryError (Filter CompiledCondition) :=
  f.mapM (·.compileIn s ctx)

/-- The compiled filter holds of a row. -/
def evaluate (f : Filter CompiledCondition) (ctx : Context) (row : Record) :
    Except QueryError Bool :=
  f.holds (·.evaluate ctx row)

/-- Some condition names an alias. -/
def referencesAliases (f : Filter Condition) : Bool :=
  f.allConditions.any (·.aliasName.isSome)

/-- The aliases that conditions name, in ascending order and each once. -/
def aliases (f : Filter Condition) : List String :=
  NameMap.names (NameMap.ofList ((f.allConditions.filterMap (·.aliasName)).map (·, ())))

end Filter

end RecordQuery
