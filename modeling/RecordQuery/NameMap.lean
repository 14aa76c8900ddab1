/-!
# Maps from names

A map from names is a list of entries in ascending order of their names, each name once.  Names
are ordered by code point.  Every operation keeps the order, so a map has one list.
-/

namespace RecordQuery

/-- Entries under names, in ascending order of the names. -/
abbrev NameMap (α : Type u) := List (String × α)

namespace NameMap

/-- Every name stands once and the names ascend. -/
def Sorted (m : NameMap α) : Prop := m.Pairwise fun a b => a.1 < b.1

/-- The entry under a name. -/
def get? : NameMap α → String → Option α
  | [], _ => none
  | (k, a) :: m, n => if k = n then some a else get? m n

/-- A name has an entry. -/
def contains (m : NameMap α) (n : String) : Bool := (get? m n).isSome

/-- Puts an entry under a name, replacing the one that stood there. -/
def insert : NameMap α → String → α → NameMap α
  | [], n, a => [(n, a)]
  | (k, b) :: m, n, a =>
    if n = k then (n, a) :: m
    else if n < k then (n, a) :: (k, b) :: m
    else (k, b) :: insert m n a

/-- Puts an entry under a name that has none; an entry that stands there stays. -/
def insertNew (m : NameMap α) (n : String) (a : α) : NameMap α :=
  if contains m n then m else insert m n a

/-- Removes the entry under a name. -/
def erase : NameMap α → String → NameMap α
  | [], _ => []
  | (k, a) :: m, n => if k = n then m else (k, a) :: erase m n

/-- The names in ascending order. -/
def names (m : NameMap α) : List String := m.map (·.1)

/-- The map of entries put one after another; the last under a name stays. -/
def ofList (entries : List (String × α)) : NameMap α :=
  entries.foldl (fun m e => insert m e.1 e.2) []

example : ofList [("b", 1), ("a", 2), ("b", 3)] = [("a", 2), ("b", 3)] := by decide +kernel

end NameMap

end RecordQuery
