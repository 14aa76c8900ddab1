import RecordQuery.Calendar.Step

/-!
# The fiscal calendar

A fiscal year starts on a configured day and ends where the next one starts.  It is divided into
periods of equal length in days; the last period also takes the days that are left over, so every
day of the year belongs to one period.  A year bears the number of the calendar year in which it
starts or in which it ends; a year that starts on 1 January ends in the year it starts in.

The start day is moved back to the last day of its month where the month is too short.
-/

namespace RecordQuery

/-! ## Settings -/

/-- How a fiscal year is divided. -/
inductive FiscalTemplate where
  | annual | semiAnnual | quarterly | monthly | fourWeek
deriving DecidableEq, Repr, Inhabited

/-- The number of periods in a year. -/
def FiscalTemplate.periods : FiscalTemplate → Nat
  | annual => 1
  | semiAnnual => 2
  | quarterly => 4
  | monthly => 12
  | fourWeek => 13

/-- Which calendar year gives a fiscal year its number. -/
inductive FiscalNaming where
  | startYear | endYear
deriving DecidableEq, Repr, Inhabited

/-- The fiscal settings of an organization. -/
structure FiscalSettings where
  startMonth : Nat
  startDay : Nat
  template : FiscalTemplate
  naming : FiscalNaming
deriving DecidableEq, Repr

/-- A period of a fiscal year, the first being 1. -/
structure FiscalPeriod where
  year : Int
  period : Nat
deriving DecidableEq, Repr

namespace FiscalSettings

/-- Fiscal years that are calendar years, undivided. -/
def calendarYears : FiscalSettings := ⟨1, 1, .annual, .startYear⟩

instance : Inhabited FiscalSettings := ⟨calendarYears⟩

/-- The start names a month and a day that some month has. -/
def validate (s : FiscalSettings) : Except QueryError Unit :=
  if s.startMonth < 1 ∨ 12 < s.startMonth then
    .error (.malformed (.fiscalMonth s.startMonth))
  else if s.startDay < 1 ∨ 31 < s.startDay then
    .error (.malformed (.fiscalDay s.startDay))
  else .ok ()

/-- The number of periods in a year. -/
def periods (s : FiscalSettings) : Nat := s.template.periods

/-- A period number that the template has. -/
def validatePeriod (s : FiscalSettings) (period : Int) : Except QueryError Nat :=
  if period < 1 ∨ (s.periods : Int) < period then .error (.fiscalPeriod period s.periods)
  else .ok period.toNat

/-- The year leaves room for its neighbours in the supported calendar. -/
def checkedYear? (year : Int) : Option Int :=
  if firstYear + 1 ≤ year ∧ year ≤ lastYear - 1 then some year else none

/-! ## Years -/

/-- A year number that nothing can be computed for. -/
def farYear (year : Int) : QueryError := .malformed (.fiscalYear year)

/-- A neighbouring year number, as far as 32 bits count. -/
def stepYear (year delta : Int) : Except QueryError Int :=
  if fitsSigned 32 (year + delta) then .ok (year + delta)
  else .error (farYear year)

/-- The fiscal year starts with the calendar year. -/
def startsOnNewYear (s : FiscalSettings) : Bool := s.startMonth = 1 && s.startDay = 1

/-- The calendar year in which a fiscal year starts. -/
def startYearOf (s : FiscalSettings) (year : Int) : Int :=
  match s.naming with
  | .endYear => if s.startsOnNewYear then year else year - 1
  | .startYear => year

/-- The configured start in a calendar year, moved into the month where that is too short. -/
def startIn? (s : FiscalSettings) (year : Int) : Option Date :=
  let month := min (max s.startMonth 1) 12
  let day := min (min (max s.startDay 1) 31) (monthLength year month)
  Date.ofCivil? year month day

/-- The first day of a fiscal year. -/
def yearStart (s : FiscalSettings) (year : Int) : Except QueryError Date :=
  match s.startIn? (s.startYearOf year) with
  | some d => .ok d
  | none => .error (farYear year)

/-- The first and the last day of a fiscal year. -/
def yearRange (s : FiscalSettings) (year : Int) : Except QueryError (Date × Date) := do
  let first ← s.yearStart year
  match (s.yearStart (year + 1)).toOption.bind (·.addDays? (-1)) with
  | some last => return (first, last)
  | none => throw (farYear year)

/-- The fiscal year that holds a date.  The calendar year of the date is a guess that is at most
one year off; the start of the year taken and of the year after it are both looked up. -/
def currentYear (s : FiscalSettings) (today : Date) : Except QueryError Int := do
  let guess := today.year
  let start ← s.yearStart guess
  let year ← if today < start then do
      let _ ← s.yearStart (guess - 1)
      pure (guess - 1)
    else pure guess
  let next ← s.yearStart (year + 1)
  if next ≤ today then do
    let _ ← s.yearStart (year + 2)
    return year + 1
  else return year

/-! ## Periods -/

/-- The length in days of every period but the last. -/
def periodDays (s : FiscalSettings) (year : Int) : Except QueryError Int := do
  let (first, last) ← s.yearRange year
  return max ((last.day - first.day + 1) / s.periods) 1

/-- The first and the last day of a period. -/
def periodRange (s : FiscalSettings) (year : Int) (period : Nat) :
    Except QueryError (Date × Date) := do
  let period ← s.validatePeriod period
  let (yearFirst, yearLast) ← s.yearRange year
  let length ← s.periodDays year
  let first ← yearFirst.step (length * (period - 1))
  let last ← if period = s.periods then pure yearLast
    else yearFirst.step (length * period - 1)
  return (first, last)

/-- The period that holds a date. -/
def currentPeriod (s : FiscalSettings) (today : Date) : Except QueryError FiscalPeriod := do
  let year ← s.currentYear today
  let start ← s.yearStart year
  let length ← s.periodDays year
  let index := min ((today.day - start.day) / length) (s.periods - 1)
  return ⟨year, index.toNat + 1⟩

/-- The period before another. -/
def previousPeriod (s : FiscalSettings) (p : FiscalPeriod) : Except QueryError FiscalPeriod :=
  if p.period ≤ 1 then (stepYear p.year (-1)).map (⟨·, s.periods⟩)
  else .ok ⟨p.year, p.period - 1⟩

/-- The period after another. -/
def nextPeriod (s : FiscalSettings) (p : FiscalPeriod) : Except QueryError FiscalPeriod :=
  if s.periods ≤ p.period then (stepYear p.year 1).map (⟨·, 1⟩)
  else .ok ⟨p.year, p.period + 1⟩

end FiscalSettings

end RecordQuery
