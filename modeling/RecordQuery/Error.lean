import RecordQuery.Query.Operator
import RecordQuery.Schema.AttributeType
import RecordQuery.Text.Hex
import RecordQuery.Value

/-!
# Why a query fails

Every failure is a cause with what it was found at; `message` words it.  A failure ends the whole
query, so no part of a result comes with it.
-/

namespace RecordQuery

open Text

/-- What an attribute could not take. -/
inductive Offender where
  /-- A value of this kind. -/
  | value (kind : ValueKind)
  /-- An operator that its declared type does not support. -/
  | type (declared : AttributeType)
  | notText
  | notDate
  /-- A fiscal year outside the calendar. -/
  | farYear
deriving DecidableEq, Repr

/-- The name of an offender. -/
def Offender.name : Offender → String
  | .value k => k.name
  | .type t => t.name
  | .notText => "non-text value"
  | .notDate => "non-date value"
  | .farYear => "out-of-range year"

/-- What makes a query malformed. -/
inductive Malformed where
  | topWithPaging
  | fiscalMonth (month : Nat)
  | fiscalDay (day : Nat)
  | fiscalYear (year : Int)
  | arity (operator : Operator) (name : String) (count : Nat)
  | negativeCount (operator : Operator) (name : String) (count : Int)
  | duplicateAlias (aliasName : String)
  | detachedLink (aliasName source parent : String)
  | unknownConditionAlias (name aliasName : String)
  | unknownOrderAlias (name aliasName : String)
  | emptyPage (number count : Nat)
deriving DecidableEq, Repr

/-- What is wrong with the query, in words. -/
def Malformed.message : Malformed → String
  | topWithPaging => "top count cannot be combined with paging"
  | fiscalMonth m => s!"fiscal start month {m} is out of range"
  | fiscalDay d => s!"fiscal start day {d} is out of range"
  | fiscalYear y => s!"fiscal year {y} is outside the supported date range"
  | arity o n c => s!"operator {o.name} on '{n}' does not take {c} value(s)"
  | negativeCount o n c => s!"operator {o.name} on '{n}' needs a non-negative count, got {c}"
  | duplicateAlias a => s!"duplicate link alias '{a}'"
  | detachedLink a s p => s!"link '{a}' starts from '{s}' but is attached to '{p}'"
  | unknownConditionAlias n a => s!"condition on '{n}' names unknown link alias '{a}'"
  | unknownOrderAlias n a => s!"order on '{n}' names unknown link alias '{a}'"
  | emptyPage n c => s!"page number and count must be positive, got page {n} of {c}"

/-- What is wrong with a query by example. -/
inductive BadExample where
  | noAttributes
  | unpaired (attributes values : Nat)
deriving DecidableEq, Repr

/-- What is wrong with the query by example, in words. -/
def BadExample.message : BadExample → String
  | noAttributes => "query by attribute needs at least one attribute"
  | unpaired a v => s!"query by attribute has {a} attributes but {v} values"

/-- What is wrong with a paging cookie. -/
inductive BadCookie where
  | hex (fault : HexFault)
  | content
deriving DecidableEq, Repr

/-- What is wrong with the cookie, in words. -/
def BadCookie.message : BadCookie → String
  | hex f => f.message
  | content => "no page position"

/-- Why a query fails. -/
inductive QueryError where
  | unknownEntity (name : String)
  | unknownAttribute (entity name : String)
  | fiscalPeriod (period : Int) (periods : Nat)
  | unsupported (name : String) (offender : Offender)
  | malformed (cause : Malformed)
  | badExample (cause : BadExample)
  | badCookie (cause : BadCookie)
  /-- A text that does not hold what it should. -/
  | undecodable
  /-- A step of the calendar that nothing guards left its range. -/
  | calendarOverflow
deriving DecidableEq, Repr

/-- The failure as it is reported. -/
def QueryError.message : QueryError → String
  | unknownEntity n => s!"unknown entity type: {n}"
  | unknownAttribute e n => s!"unknown attribute '{n}' on entity '{e}'"
  | fiscalPeriod p n => s!"invalid fiscal period {p}: template has {n} periods"
  | unsupported n o => s!"unsupported value of kind '{o.name}' for attribute '{n}'"
  | malformed c => "invalid query: " ++ c.message
  | badExample c => "protocol error: invalid query: " ++ c.message
  | badCookie c => "invalid paging cookie: " ++ c.message
  | undecodable => "protocol error: deserialization error"
  | calendarOverflow => "the calendar does not reach that far"

end RecordQuery
