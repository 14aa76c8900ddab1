import RecordQuery.Query.Operator
import RecordQuery.Record

/-!
# Conditions

A condition tests one attribute with an operator and literal values.  It may name the alias of a
link, in whose records the attribute is then looked up.
-/

namespace RecordQuery

open Text

/-- A test of one attribute. -/
structure Condition where
  /-- The alias of the link that the attribute belongs to. -/
  aliasName : Option String
  /-- The name of the attribute. -/
  name : String
  operator : Operator
  values : List Value

namespace Condition

/-- A condition with literal values. -/
def new (name : String) (operator : Operator) (values : List Value) : Condition :=
  ⟨none, lowercase name, operator, values⟩

/-- A condition that the attribute equals a value. -/
def eq (name : String) (v : Value) : Condition := new name (.equal true) [v]

/-- The condition on the attribute of a link. -/
def withAlias (c : Condition) (aliasName : String) : Condition := { c with aliasName := some aliasName }

end Condition

end RecordQuery
