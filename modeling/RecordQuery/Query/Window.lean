import RecordQuery.Context
import RecordQuery.Query.Operator

/-!
# Windows of time around now

The operators of the calendar hold in a window that moves with the clock: a day, week, month or
year around the current one, a span that ends or starts now, or all that is older than a span.
Days, weeks, months and years are those of universal time.

A span that reaches out of the supported calendar holds nothing.  The windows of days and weeks
and the two spans of seven days are not guarded in that way; they fail with an overflow instead.
-/

namespace RecordQuery

/-- A window of time relative to now. -/
inductive Window where
  | day (turn : Turn)
  | lastSevenDays
  | nextSevenDays
  | lastSpan (unit : SpanUnit) (count : Nat)
  | nextSpan (unit : SpanUnit) (count : Nat)
  | olderThan (unit : AgeUnit) (count : Nat)
  | calendar (unit : CalendarUnit) (turn : Turn)
deriving DecidableEq, Repr

namespace Window

/-! ## Bounds -/

/-- The instant is not before the first date and before the last one. -/
def spans (first last : Date) (t : Instant) : Bool :=
  Instant.midnight first ≤ t && t < Instant.midnight last

/-- How many units after the current one a turn lies. -/
def distance : Turn → Int
  | .last => -1
  | .this => 0
  | .next => 1

/-- The first day of the week of a date. -/
def weekStart (ctx : Context) (d : Date) : Except QueryError Date :=
  d.step (-((d.daysFromSunday + 7 - ctx.weekStart.fromSunday) % 7 : Nat))

/-- The first day of the month of a date. -/
def monthStart (d : Date) : Date := (Date.ofCivil? d.year d.month 1).getD d

/-- The first day of the month a turn away from that of a date, and of the month after it. -/
def monthBounds? (d : Date) (turn : Turn) : Option (Date × Date) := do
  let first ← (monthStart d).addMonths? (distance turn)
  let last ← first.addMonths? 1
  some (first, last)

/-- The first day of the year a turn away from that of a date, and of the year after it. -/
def yearBounds? (d : Date) (turn : Turn) : Option (Date × Date) := do
  let year := d.year + distance turn
  let first ← Date.ofCivil? year 1 1
  let last ← Date.ofCivil? (year + 1) 1 1
  some (first, last)

/-! ## Spans -/

/-- The first instant of a span that ends now. -/
def spanStart? (ctx : Context) (count : Nat) : SpanUnit → Option Instant
  | .hours => ctx.now.addHours? (-count)
  | .days => (ctx.today.addDays? (-count)).map .midnight
  | .weeks => (ctx.today.addDays? (-(7 * count))).map .midnight
  | .months => (ctx.today.addMonths? (-count)).map .midnight
  | .years => (ctx.today.addMonths? (-(12 * count))).map .midnight

/-- The instant is not behind a span that starts now: the span of hours includes its last instant,
the others include the whole of their last day. -/
def beforeSpanEnd (ctx : Context) (count : Nat) (t : Instant) : SpanUnit → Bool
  | .hours => (ctx.now.addHours? count).any (t ≤ ·)
  | .days => (ctx.today.addDays? (count + 1)).any (t < .midnight ·)
  | .weeks => (ctx.today.addDays? (7 * count + 1)).any (t < .midnight ·)
  | .months => ((ctx.today.addMonths? count).bind (·.addDays? 1)).any (t < .midnight ·)
  | .years => ((ctx.today.addMonths? (12 * count)).bind (·.addDays? 1)).any (t < .midnight ·)

/-- The instant at which an age is reached. -/
def ageStart? (ctx : Context) (count : Nat) : AgeUnit → Option Instant
  | .days => ctx.now.addDays? (-count)
  | .months => ctx.now.addMonths? (-count)
  | .years => ctx.now.addMonths? (-(12 * count))

/-! ## Membership -/

/-- The instant lies in the window. -/
def holds (ctx : Context) (w : Window) (t : Instant) : Except QueryError Bool :=
  match w with
  | .day turn => do
    let first ← ctx.today.step (distance turn)
    let last ← ctx.today.step (distance turn + 1)
    return spans first last t
  | .lastSevenDays => do
    let first ← ctx.now.step (-7)
    return first ≤ t && t ≤ ctx.now
  | .nextSevenDays =>
    if ctx.now ≤ t then do
      let last ← ctx.now.step 7
      return t ≤ last
    else return false
  | .lastSpan unit count =>
    return (spanStart? ctx count unit).any fun first => first ≤ t && t ≤ ctx.now
  | .nextSpan unit count => return ctx.now ≤ t && beforeSpanEnd ctx count t unit
  | .olderThan unit count =>
    return (ageStart? ctx count unit).any fun cutoff => t < cutoff
  | .calendar .week turn => do
    let this ← weekStart ctx ctx.today
    let first ← this.step (7 * distance turn)
    let last ← first.step 7
    return spans first last t
  | .calendar .month turn =>
    return (monthBounds? ctx.today turn).any fun b => spans b.1 b.2 t
  | .calendar .year turn =>
    return (yearBounds? ctx.today turn).any fun b => spans b.1 b.2 t

end Window

end RecordQuery
