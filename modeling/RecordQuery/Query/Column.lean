import RecordQuery.Text.Digits
import RecordQuery.Text.Lowercase

/-!
# Columns of rows

A row holds the attributes of its own entity type under their names, and those that a join merged
into it under the alias of the link, a point and their name.  Everything before the first point of
a name is read as an alias.

The columns that a query or a link asks for are either all of them or a list of names.
-/

namespace RecordQuery

open Text

/-! ## Merged names -/

/-- The name under which rows hold an attribute that the link with an alias merged. -/
def mergedName (aliasName name : String) : String := aliasName ++ "." ++ name

/-- The parts of a name before and behind its first point. -/
def splitName? (name : String) : Option (String × String) :=
  match cutAt (· = '.') name.toList with
  | (before, some rest) => some (String.ofList before, String.ofList rest)
  | (_, none) => none

example : splitName? (mergedName "c" "a.b") = some ("c", "a.b") := by decide +kernel

/-! ## Requested columns -/

/-- The columns that are asked for. -/
inductive ColumnSet where
  | all
  | listed (names : List String)
deriving DecidableEq, Repr

namespace ColumnSet

/-- No columns. -/
def empty : ColumnSet := .listed []

/-- The columns with the given names. -/
def ofNames (names : List String) : ColumnSet := .listed (names.map lowercase)

/-- All columns are asked for. -/
def isAll : ColumnSet → Bool
  | .all => true
  | .listed _ => false

/-- A column is asked for, the letters `A` to `Z` in either case. -/
def contains (s : ColumnSet) (name : String) : Bool :=
  match s with
  | .all => true
  | .listed names => names.any (equalIgnoringAsciiCase · name)

/-- The names that are asked for one by one. -/
def explicit : ColumnSet → List String
  | .all => []
  | .listed names => names

end ColumnSet

end RecordQuery
