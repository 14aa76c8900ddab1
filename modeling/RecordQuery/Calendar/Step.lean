import RecordQuery.Calendar.Instant
import RecordQuery.Error

/-!
# Steps that must stay in the calendar

Some computations step from a date or an instant without asking whether the supported calendar
reaches that far.  Such a step fails with an overflow where it does not.
-/

namespace RecordQuery

/-- The date a number of days later. -/
def Date.step (d : Date) (n : Int) : Except QueryError Date :=
  match d.addDays? n with
  | some d => .ok d
  | none => .error .calendarOverflow

/-- The instant a number of days later. -/
def Instant.step (i : Instant) (n : Int) : Except QueryError Instant :=
  match i.addDays? n with
  | some i => .ok i
  | none => .error .calendarOverflow

end RecordQuery
