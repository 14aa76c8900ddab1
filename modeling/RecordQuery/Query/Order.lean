import RecordQuery.Query.Scope

/-!
# Ordering rows

Rows are ordered by one attribute after another, each ascending or descending.  Rows that are
equal in all of them keep their order, also where the order descends.

The sort puts row after row into the sorted ones, from behind: a row moves up past those it comes
strictly before.  Keys of different kinds count as equal, so attributes that are not declared may
compare in a way that is not transitive; the sort then still gives this one result.
-/

namespace RecordQuery

open Text

/-! ## Stable sorting -/

/-- Puts an element into a sorted list that is given backwards. -/
def insertBehind (before : α → α → Bool) (a : α) : List α → List α
  | [] => [a]
  | b :: bs => if before a b then b :: insertBehind before a bs else a :: b :: bs

/-- Sorts by a strict order and leaves elements in place that come before neither of each other. -/
def stableSort (before : α → α → Bool) (as : List α) : List α :=
  (as.foldl (fun sorted a => insertBehind before a sorted) []).reverse

example : stableSort (fun a b => decide (a % 10 < b % 10)) [13, 2, 23, 1, 3] = [1, 2, 13, 23, 3] := by
  decide

/-! ## Orders -/

/-- The direction of an order. -/
inductive Direction where
  | ascending | descending
deriving DecidableEq, Repr, Inhabited

/-- One attribute to order by. -/
structure Order where
  name : String
  direction : Direction
  /-- The alias of the link that the attribute belongs to. -/
  aliasName : Option String
deriving DecidableEq, Repr

/-- An order that is ready for rows. -/
structure CompiledOrder where
  /-- The name under which rows hold the attribute. -/
  column : String
  /-- The declared type; none if the attribute is not declared. -/
  declared : Option AttributeType
  direction : Direction
deriving DecidableEq, Repr

namespace Order

/-- An order by an attribute. -/
def new (name : String) (direction : Direction) : Order := ⟨lowercase name, direction, none⟩

/-- The order by the attribute of a link. -/
def withAlias (o : Order) (aliasName : String) : Order := { o with aliasName := some aliasName }

/-- Compiles an order in a scope.  In strict mode its attribute must be declared. -/
def compile (o : Order) (s : Scope) (ctx : Context) : Except QueryError CompiledOrder :=
  let name := lowercase o.name
  match s.locate? o.aliasName name with
  | none => .error (.malformed (.unknownOrderAlias name (o.aliasName.getD "")))
  | some (column, e) =>
    let declared := e.typeOf? name
    if declared.isNone && ctx.strict then .error (.unknownAttribute e.name name)
    else .ok ⟨column, declared, o.direction⟩

end Order

/-! ## Sorting rows -/

namespace CompiledOrder

/-- How keys compare in a direction. -/
def compareKeys (o : CompiledOrder) (caseSensitive : Bool) (a b : Option Key) : Ordering :=
  let order := Key.compareForSort caseSensitive a b
  match o.direction with
  | .ascending => order
  | .descending => order.swap

/-- How lists of keys compare, the first difference deciding. -/
def compareAll (caseSensitive : Bool) :
    List CompiledOrder → List (Option Key) → List (Option Key) → Ordering
  | o :: os, a :: as, b :: bs =>
    (o.compareKeys caseSensitive a b).then (compareAll caseSensitive os as bs)
  | _, _, _ => .eq

/-- The keys of a row for orders. -/
def keysOf (os : List CompiledOrder) (row : Record) : Except QueryError (List (Option Key)) :=
  os.mapM fun o => Key.ofColumn row o.column o.declared

/-- Sorts rows.  Their keys are read before any are compared. -/
def sortRows (os : List CompiledOrder) (ctx : Context) (rows : List Record) :
    Except QueryError (List Record) := do
  let keyed ← rows.mapM fun row => (keysOf os row).map (·, row)
  return (stableSort (fun a b => compareAll ctx.caseSensitive os a.1 b.1 = .lt) keyed).map (·.2)

end CompiledOrder

end RecordQuery
