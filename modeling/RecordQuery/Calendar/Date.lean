import RecordQuery.Text.Digits

/-!
# Calendar dates

Dates of the Gregorian calendar, extended to the years before its introduction and to a year zero.
A date is stored as its distance in days from 1 January of year 1; year, month and day of the
month are computed from that.  The calendar is supported from 1 January of the year −262143 to
31 December of the year 262142, and the range is part of the type: a step that leaves it gives no
date.
-/

namespace RecordQuery

open Text

/-! ## Years and months -/

/-- Years with a 29 February. -/
def isLeapYear (y : Int) : Bool :=
  y % 4 == 0 && (y % 100 != 0 || y % 400 == 0)

/-- Days from 1 January of year 1 to 1 January of year `y`. -/
def yearStart (y : Int) : Int :=
  365 * (y - 1) + (y - 1) / 4 - (y - 1) / 100 + (y - 1) / 400

/-- The year that holds the day at a distance from 1 January of year 1.  The average length of a
year gives a guess that is at most one year off. -/
def yearOfDay (day : Int) : Int :=
  let guess := 400 * day / 146097 + 1
  if day < yearStart guess then guess - 1
  else if yearStart (guess + 1) ≤ day then guess + 1
  else guess

/-- Days of the year before the first of a month. -/
def daysBeforeMonth (leap : Bool) (month : Nat) : Nat :=
  let extra := if leap then 1 else 0
  match month with
  | 0 | 1 => 0
  | 2 => 31
  | 3 => 59 + extra
  | 4 => 90 + extra
  | 5 => 120 + extra
  | 6 => 151 + extra
  | 7 => 181 + extra
  | 8 => 212 + extra
  | 9 => 243 + extra
  | 10 => 273 + extra
  | 11 => 304 + extra
  | 12 => 334 + extra
  | _ => 365 + extra

/-- The month that holds a day of the year, the first day being `0`. -/
def monthOfDay (leap : Bool) (day : Nat) : Nat :=
  let extra := if leap then 1 else 0
  if day < 31 then 1
  else if day < 59 + extra then 2
  else if day < 90 + extra then 3
  else if day < 120 + extra then 4
  else if day < 151 + extra then 5
  else if day < 181 + extra then 6
  else if day < 212 + extra then 7
  else if day < 243 + extra then 8
  else if day < 273 + extra then 9
  else if day < 304 + extra then 10
  else if day < 334 + extra then 11
  else 12

/-- The number of days in a month. -/
def monthLength (year : Int) (month : Nat) : Nat :=
  daysBeforeMonth (isLeapYear year) (month + 1) - daysBeforeMonth (isLeapYear year) month

example : monthLength 2024 2 = 29 := by decide
example : monthLength 1900 2 = 28 := by decide

/-! ## Dates -/

/-- The year of the first supported date. -/
def firstYear : Int := -262143

/-- The year of the last supported date. -/
def lastYear : Int := 262142

/-- The first supported date. -/
def firstDay : Int := yearStart firstYear

/-- The last supported date. -/
def lastDay : Int := yearStart (lastYear + 1) - 1

/-- A supported date. -/
structure Date where
  /-- Days since 1 January of year 1. -/
  day : Int
  first_le : firstDay ≤ day
  le_last : day ≤ lastDay
deriving DecidableEq, Repr

namespace Date

instance : LE Date := ⟨fun a b => a.day ≤ b.day⟩
instance : LT Date := ⟨fun a b => a.day < b.day⟩
instance (a b : Date) : Decidable (a ≤ b) := inferInstanceAs (Decidable (a.day ≤ b.day))
instance (a b : Date) : Decidable (a < b) := inferInstanceAs (Decidable (a.day < b.day))

/-- The date at a distance from 1 January of year 1, if it is supported. -/
def ofDay? (day : Int) : Option Date :=
  if h : firstDay ≤ day ∧ day ≤ lastDay then some ⟨day, h.1, h.2⟩ else none

/-- The date of a year, month and day of the month, if there is one and it is supported. -/
def ofCivil? (year : Int) (month dayOfMonth : Nat) : Option Date :=
  if 1 ≤ month ∧ month ≤ 12 ∧ 1 ≤ dayOfMonth ∧ dayOfMonth ≤ monthLength year month then
    ofDay? (yearStart year + daysBeforeMonth (isLeapYear year) month + dayOfMonth - 1)
  else none

instance : Inhabited Date := ⟨⟨0, by decide, by decide⟩⟩

/-- The year of a date. -/
def year (d : Date) : Int := yearOfDay d.day

/-- How many days of its year precede a date. -/
def dayOfYear (d : Date) : Nat := (d.day - yearStart d.year).toNat

/-- The month of a date, from 1 to 12. -/
def month (d : Date) : Nat := monthOfDay (isLeapYear d.year) d.dayOfYear

/-- The day of the month of a date, from 1. -/
def dayOfMonth (d : Date) : Nat :=
  d.dayOfYear - daysBeforeMonth (isLeapYear d.year) d.month + 1

/-- The date a number of days later. -/
def addDays? (d : Date) (n : Int) : Option Date := ofDay? (d.day + n)

/-- The date a number of months later, on the last day of the month if that is too short. -/
def addMonths? (d : Date) (n : Int) : Option Date :=
  let total := 12 * d.year + (d.month - 1 : Int) + n
  let year := total / 12
  let month := (total % 12).toNat + 1
  ofCivil? year month (min d.dayOfMonth (monthLength year month))

/-- Days since the last Sunday. -/
def daysFromSunday (d : Date) : Nat := ((d.day + 1) % 7).toNat

/-! ## Writing -/

/-- A year in four digits; years outside 0 to 9999 carry their sign. -/
def yearChars (y : Int) : List Char :=
  if 0 ≤ y ∧ y ≤ 9999 then paddedDigits 4 y.toNat
  else (if y < 0 then '-' else '+') :: paddedDigits 4 y.natAbs

/-- Year, month and day of the month between hyphens. -/
def chars (d : Date) : List Char :=
  yearChars d.year ++ '-' :: paddedDigits 2 d.month ++ '-' :: paddedDigits 2 d.dayOfMonth

/-- The text of a date. -/
def text (d : Date) : String := String.ofList d.chars

example : (ofCivil? 2024 2 29).map text = some "2024-02-29" := by decide +kernel
example : (ofCivil? (-1) 4 1).map text = some "-0001-04-01" := by decide +kernel
example : (ofCivil? 262142 12 31).map text = some "+262142-12-31" := by decide +kernel
example : ofCivil? 262143 1 1 = none := by decide +kernel
example : ((ofCivil? 2024 1 31).bind (addMonths? · 1)).map text = some "2024-02-29" := by
  decide +kernel
example : (ofCivil? 2024 3 15).map daysFromSunday = some 5 := by decide +kernel

end Date

end RecordQuery
