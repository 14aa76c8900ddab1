import RecordQuery.Calendar.Fiscal
import RecordQuery.Calendar.Instant
import RecordQuery.RecordId

/-!
# What a query takes from its caller

Conditions may refer to the moment, the calling user, the user's business unit and the fiscal
calendar.  A context also says how texts compare, where weeks start, and whether a query may name
attributes that are not declared.
-/

namespace RecordQuery

/-- The days of the week. -/
inductive Weekday where
  | sunday | monday | tuesday | wednesday | thursday | friday | saturday
deriving DecidableEq, Repr

/-- Days since Sunday. -/
def Weekday.fromSunday : Weekday → Nat
  | sunday => 0
  | monday => 1
  | tuesday => 2
  | wednesday => 3
  | thursday => 4
  | friday => 5
  | saturday => 6

/-- What a query takes from its caller. -/
structure Context where
  now : Instant
  /-- The calling user. -/
  caller : RecordId
  /-- The business unit of the calling user. -/
  businessUnit : RecordId
  fiscal : FiscalSettings
  /-- Attributes that are not declared are an error instead of null. -/
  strict : Bool
  /-- Texts compare with their letter case. -/
  caseSensitive : Bool
  weekStart : Weekday

namespace Context

/-- The default settings at a moment. -/
def standard (now : Instant) : Context :=
  ⟨now, .nil, .nil, .calendarYears, false, false, .sunday⟩

/-- The date of the moment. -/
def today (ctx : Context) : Date := ctx.now.date

end Context

end RecordQuery
