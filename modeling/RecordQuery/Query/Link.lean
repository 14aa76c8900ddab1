import RecordQuery.Query.Column
import RecordQuery.Query.Condition
import RecordQuery.Query.Filter

/-!
# Links

A link joins the records of one entity type to those of another by an attribute of each.  A query
has a forest of links: those at the top start from the query's own entity type, and those below a
link start from the entity type that it joins.
-/

namespace RecordQuery

open Text

/-! ## Trees -/

/-- A labelled tree with ordered branches. -/
inductive Tree (α : Type) where
  | node (label : α) (branches : List (Tree α))

namespace Tree

/-- The label at the top. -/
def label : Tree α → α
  | .node a _ => a

/-- The trees below the top. -/
def branches : Tree α → List (Tree α)
  | .node _ ts => ts

/-- Adds a tree behind the branches. -/
def withBranch : Tree α → Tree α → Tree α
  | .node a ts, t => .node a (ts ++ [t])

mutual

/-- The labels in depth-first order, that of a node before those below it. -/
def labels : Tree α → List α
  | .node a ts => a :: forestLabels ts

/-- The labels of a forest in depth-first order. -/
def forestLabels : List (Tree α) → List α
  | [] => []
  | t :: ts => t.labels ++ forestLabels ts

end

end Tree

/-! ## Links -/

/-- What becomes of a row without a match. -/
inductive JoinKind where
  /-- It is dropped. -/
  | inner
  /-- It is kept as it is. -/
  | leftOuter
deriving DecidableEq, Repr, Inhabited

/-- One link. -/
structure LinkSpec where
  /-- The entity type that the link starts from. -/
  source : String
  /-- The attribute there. -/
  fromAttribute : String
  /-- The entity type that the link joins. -/
  target : String
  /-- The attribute there. -/
  toAttribute : String
  kind : JoinKind
  aliasName : Option String
  columns : ColumnSet
  /-- What a record must satisfy to be joined. -/
  criteria : Filter Condition

/-- A link with the links below it. -/
abbrev Link := Tree LinkSpec

namespace Link

/-- A link without columns, criteria and links below it. -/
def new (source target fromAttribute toAttribute : String) (kind : JoinKind) : Link :=
  .node ⟨lowercase source, lowercase fromAttribute, lowercase target, lowercase toAttribute, kind,
    none, .empty, .empty⟩ []

/-- Adds a link from the entity type that this one joins. -/
def withLink (l : Link) (target fromAttribute toAttribute : String) (kind : JoinKind) : Link :=
  l.withBranch (new l.label.target target fromAttribute toAttribute kind)

end Link

end RecordQuery
