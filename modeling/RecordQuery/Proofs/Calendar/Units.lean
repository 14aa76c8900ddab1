import RecordQuery.Context
import RecordQuery.Proofs.Calendar.Months
import RecordQuery.Proofs.Calendar.Reach
import RecordQuery.Query.Operator

/-!
# Units of the calendar by number

Days, weeks, months and years are counted in the order of time.  Each unit begins where the one
before it ends (`TurnUnit.firstDay_lt_succ`), so a date lies in one unit of each kind, and that is
the one whose number is computed for it (`TurnUnit.number_eq_iff`): a division counts weeks, months
and years are those of the date.

*Reach.*  Two calendar years inside the calendar the units around a date begin at dates
(`TurnUnit.exists_firstDay`).
-/

namespace RecordQuery

/-! ## Months of dates -/

namespace Date

/-- The days of the years from the first to the last are dates. -/
theorem exists_inYear {y day : Int} (hfirst : firstYear ≤ y) (hlast : y ≤ lastYear)
    (hlow : yearStart y ≤ day) (hhigh : day < yearStart (y + 1)) : ∃ d : Date, d.day = day := by
  have hearly : firstDay ≤ yearStart y := yearStart_le hfirst
  have hlate : yearStart (y + 1) ≤ yearStart (lastYear + 1) := yearStart_le (by omega)
  have hlast' : day ≤ lastDay := Int.le_sub_one_of_lt (Int.lt_of_lt_of_le hhigh hlate)
  exact ⟨⟨day, Int.le_trans hearly hlow, hlast'⟩, rfl⟩

theorem monthIndex_spec (d : Date) :
    d.monthIndex / 12 = d.year ∧ monthOfYear d.monthIndex = d.month := by
  obtain ⟨hlow, hhigh, -⟩ := d.month_spec
  unfold monthOfYear monthIndex
  omega

/-- A date is as far behind the first day of its month as its day of the month says. -/
theorem day_eq_monthFirst (d : Date) :
    d.day = monthFirst d.monthIndex + d.dayOfMonth - 1 ∧ d.dayOfMonth ≤ monthDays d.monthIndex := by
  obtain ⟨hyear, hmonth⟩ := d.monthIndex_spec
  have hlength : d.dayOfMonth ≤ monthDays d.monthIndex := by
    rw [monthDays, hyear, hmonth]
    exact d.dayOfMonth_le
  have hday := d.monthDay_zero
  rw [monthDay, Int.add_zero, Nat.min_eq_left hlength] at hday
  exact ⟨hday.symm, hlength⟩

theorem monthIndex_eq_iff {d : Date} {k : Int} :
    d.monthIndex = k ↔ monthFirst k ≤ d.day ∧ d.day < monthFirst (k + 1) := by
  obtain ⟨hday, hlength⟩ := d.day_eq_monthFirst
  have hpos : 1 ≤ d.dayOfMonth := Nat.le_add_left ..
  constructor
  · rintro rfl
    rw [monthFirst_succ]
    omega
  · rintro ⟨hlow, hhigh⟩
    rw [monthFirst_succ] at hhigh
    rcases Int.lt_trichotomy d.monthIndex k with hlt | heq | hgt
    · have hover := monthFirst_lt hlt
      omega
    · exact heq
    · have hover := monthFirst_lt hgt
      omega

end Date

/-- The first day of a month lies in the year of the month. -/
theorem monthFirst_bounds (k : Int) :
    yearStart (k / 12) ≤ monthFirst k ∧ monthFirst k < yearStart (k / 12 + 1) := by
  obtain ⟨hlow, hhigh⟩ := monthOfYear_bounds k
  obtain ⟨hlength, hend⟩ := daysBeforeMonth_lt_succ (isLeapYear (k / 12)) _
    (Nat.lt_succ_of_le hhigh) hlow
  rw [yearStart_succ]
  unfold monthFirst yearLength
  split at hend
  next hleap =>
    rw [if_pos hleap]
    omega
  next hleap =>
    rw [if_neg hleap]
    omega

namespace Date

/-- The first day of the month of a date is a date. -/
theorem exists_monthFirst (d : Date) : ∃ e : Date,
    ofCivil? d.year d.month 1 = some e ∧ e.day = monthFirst d.monthIndex := by
  obtain ⟨hlow, hhigh, -⟩ := d.month_spec
  obtain ⟨hyear, hmonth⟩ := d.monthIndex_spec
  obtain ⟨hbegin, hend⟩ := monthFirst_bounds d.monthIndex
  obtain ⟨hlength, -⟩ := monthDays_spec d.monthIndex
  rw [hyear] at hbegin hend
  rw [monthDays, hyear, hmonth] at hlength
  obtain ⟨e, he⟩ := exists_inYear d.firstYear_le_year d.year_le_lastYear hbegin hend
  refine ⟨e, ?_, he⟩
  rw [ofCivil?, if_pos ⟨hlow, hhigh, by decide, by omega⟩, ofDay?_eq_some_iff, he, monthFirst,
    hyear, hmonth]
  omega

/-- From the first day of a month, steps of months lead to first days of months. -/
theorem addMonths?_monthFirst {d : Date} {k : Int} (hd : d.day = monthFirst k) (n : Int) :
    d.addMonths? n = ofDay? (monthFirst (k + n)) := by
  obtain ⟨hlength, -⟩ := monthDays_spec k
  have hindex : d.monthIndex = k := by
    rw [monthIndex_eq_iff, monthFirst_succ]
    omega
  obtain ⟨hday, -⟩ := d.day_eq_monthFirst
  obtain ⟨hlater, -⟩ := monthDays_spec (k + n)
  have hpos : 1 ≤ d.dayOfMonth := Nat.le_add_left ..
  rw [hindex] at hday
  rw [addMonths?_eq, monthDay, hindex]
  congr 1
  omega

end Date

/-! ## Units -/

/-- The units that operators on dates turn: days, and the units that are longer than a day. -/
inductive TurnUnit where
  | day
  | longer (unit : CalendarUnit)
deriving DecidableEq, Repr

namespace TurnUnit

/-- The number of the unit in which a date lies, with weeks that start on a day of the week. -/
def number (start : Weekday) (d : Date) : TurnUnit → Int
  | day => d.day
  | longer .week => (d.day + 1 - start.fromSunday) / 7
  | longer .month => d.monthIndex
  | longer .year => d.year

/-- The first day of the unit with a number. -/
def firstDay (start : Weekday) (k : Int) : TurnUnit → Int
  | day => k
  | longer .week => 7 * k + start.fromSunday - 1
  | longer .month => monthFirst k
  | longer .year => yearStart k

variable (unit : TurnUnit) (start : Weekday)

/-- Every unit has a day, and the next one begins behind it. -/
theorem firstDay_lt_succ (k : Int) : unit.firstDay start k < unit.firstDay start (k + 1) := by
  cases unit with
  | day => exact Int.lt_succ k
  | longer unit =>
      cases unit with
      | week =>
          simp only [firstDay]
          omega
      | month =>
          obtain ⟨hlength, -⟩ := monthDays_spec k
          simp only [firstDay]
          rw [monthFirst_succ]
          omega
      | year =>
          have hlength := yearLength_bounds k
          simp only [firstDay]
          rw [yearStart_succ]
          omega

/-- A date lies in the unit with its number, and in no other. -/
theorem number_eq_iff {d : Date} {k : Int} :
    unit.number start d = k ↔
      unit.firstDay start k ≤ d.day ∧ d.day < unit.firstDay start (k + 1) := by
  cases unit with
  | day =>
      simp only [number, firstDay]
      omega
  | longer unit =>
      cases unit with
      | week =>
          simp only [number, firstDay]
          omega
      | month => exact Date.monthIndex_eq_iff
      | year => exact yearOfDay_eq_iff

/-- Around a date that is two years inside the calendar, units begin at dates. -/
theorem exists_firstDay {d : Date} (hfirst : firstYear + 2 ≤ d.year) (hlast : d.year ≤ lastYear - 2)
    {n : Int} (hlow : -1 ≤ n) (hhigh : n ≤ 2) :
    ∃ e : Date, e.day = unit.firstDay start (unit.number start d + n) := by
  have hinside : firstYear + 1 ≤ d.year := by omega
  cases unit with
  | day => exact Date.exists_step hinside (by omega) (by omega) (by omega)
  | longer unit =>
      cases unit with
      | week =>
          have hstart : start.fromSunday < 7 := by cases start <;> decide
          obtain ⟨e, he⟩ := Date.exists_step hinside (by omega)
            (n := (longer .week).firstDay start ((longer .week).number start d + n) - d.day)
            (by simp only [firstDay, number]; omega) (by simp only [firstDay, number]; omega)
          exact ⟨e, by omega⟩
      | month =>
          obtain ⟨hbegin, hend⟩ := monthFirst_bounds (d.monthIndex + n)
          obtain ⟨hpos, hmax, -⟩ := d.month_spec
          have hyear : firstYear ≤ (d.monthIndex + n) / 12 ∧
              (d.monthIndex + n) / 12 ≤ lastYear := by
            unfold Date.monthIndex
            omega
          exact Date.exists_inYear hyear.1 hyear.2 hbegin hend
      | year =>
          have hnext : yearStart (d.year + n) < yearStart (d.year + n + 1) :=
            (longer .year).firstDay_lt_succ start (d.year + n)
          have hfrom : firstYear ≤ d.year + n := by omega
          have hto : d.year + n ≤ lastYear := by omega
          exact Date.exists_inYear hfrom hto (Int.le_refl _) hnext

end TurnUnit

end RecordQuery
