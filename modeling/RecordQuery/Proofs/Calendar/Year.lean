import RecordQuery.Calendar.Date

/-!
# Years of the calendar

Years follow one another without a gap: each begins 365 or 366 days after the one before
(`yearStart_succ`).  So every day lies in exactly one year, and that is the year that is computed
for it from a guess (`yearOfDay_eq_iff`).

*Dates.*  A date is its day, so a step leads to a date when that date has the day
(`Date.addDays?_eq_some_iff`).
-/

namespace RecordQuery

/-! ## Lengths of years -/

/-- The number of days in a year. -/
def yearLength (y : Int) : Int := if isLeapYear y then 366 else 365

theorem isLeapYear_iff {y : Int} :
    isLeapYear y = true ↔ y % 4 = 0 ∧ (y % 100 ≠ 0 ∨ y % 400 = 0) := by
  simp [isLeapYear]

theorem yearStart_succ (y : Int) : yearStart (y + 1) = yearStart y + yearLength y := by
  unfold yearStart yearLength
  by_cases hleap : isLeapYear y = true
  · rw [if_pos hleap]
    have := isLeapYear_iff.mp hleap
    omega
  · rw [if_neg hleap]
    rw [isLeapYear_iff] at hleap
    omega

theorem yearLength_bounds (y : Int) : 365 ≤ yearLength y ∧ yearLength y ≤ 366 := by
  unfold yearLength
  split <;> omega

theorem yearStart_le {y z : Int} (h : y ≤ z) : yearStart y ≤ yearStart z := by
  unfold yearStart
  omega

/-! ## The year of a day -/

/-- The average length of a year leads to a year next to that of the day. -/
theorem yearStart_guess (day : Int) :
    yearStart (400 * day / 146097) ≤ day ∧ day < yearStart (400 * day / 146097 + 3) := by
  unfold yearStart
  omega

theorem yearOfDay_spec (day : Int) :
    yearStart (yearOfDay day) ≤ day ∧ day < yearStart (yearOfDay day + 1) := by
  obtain ⟨hlow, hhigh⟩ := yearStart_guess day
  unfold yearOfDay
  simp only
  split
  next hbefore =>
    rw [show 400 * day / 146097 + 1 - 1 = 400 * day / 146097 by omega]
    exact ⟨hlow, hbefore⟩
  next hbefore =>
    split
    next hbehind =>
      rw [show 400 * day / 146097 + 3 = 400 * day / 146097 + 1 + 1 + 1 by omega] at hhigh
      exact ⟨hbehind, hhigh⟩
    next hbehind => exact ⟨Int.not_lt.mp hbefore, Int.not_le.mp hbehind⟩

/-- A day has the year in which it lies. -/
theorem yearOfDay_eq_iff {day y : Int} :
    yearOfDay day = y ↔ yearStart y ≤ day ∧ day < yearStart (y + 1) := by
  obtain ⟨hlow, hhigh⟩ := yearOfDay_spec day
  constructor
  · rintro rfl
    exact ⟨hlow, hhigh⟩
  · rintro ⟨hlow', hhigh'⟩
    rcases Int.lt_trichotomy (yearOfDay day) y with hlt | heq | hgt
    · have : yearStart (yearOfDay day + 1) ≤ yearStart y := yearStart_le hlt
      omega
    · exact heq
    · have : yearStart (y + 1) ≤ yearStart (yearOfDay day) := yearStart_le hgt
      omega

namespace Date

theorem firstYear_le_year (d : Date) : firstYear ≤ d.year := by
  obtain ⟨-, hhigh⟩ := yearOfDay_spec d.day
  refine Int.not_lt.mp fun hlt => ?_
  have : yearStart (d.year + 1) ≤ firstDay := yearStart_le hlt
  have hfirst := d.first_le
  change d.day < yearStart (d.year + 1) at hhigh
  omega

theorem year_le_lastYear (d : Date) : d.year ≤ lastYear := by
  obtain ⟨hlow, -⟩ := yearOfDay_spec d.day
  refine Int.not_lt.mp fun hlt => ?_
  have : yearStart (lastYear + 1) ≤ yearStart d.year := yearStart_le hlt
  have hlast : d.day ≤ yearStart (lastYear + 1) - 1 := d.le_last
  change yearStart d.year ≤ d.day at hlow
  omega

/-! ## Days and dates -/

theorem ofDay?_eq_some_iff {day : Int} {d : Date} : ofDay? day = some d ↔ d.day = day := by
  unfold ofDay?
  constructor
  · intro h
    split at h
    next hday =>
      cases h
      rfl
    next hday => cases h
  · rintro rfl
    rw [dif_pos ⟨d.first_le, d.le_last⟩]

theorem addDays?_eq_some_iff {d e : Date} {n : Int} : d.addDays? n = some e ↔ e.day = d.day + n :=
  ofDay?_eq_some_iff

theorem day_injective {d e : Date} (h : d.day = e.day) : d = e := by
  cases d
  cases e
  cases h
  rfl

end Date

/-! ## Months -/

theorem daysBeforeMonth_lt_succ : ∀ leap, ∀ month < 13, 0 < month →
    daysBeforeMonth leap month + 28 ≤ daysBeforeMonth leap (month + 1) ∧
      daysBeforeMonth leap (month + 1) ≤ if leap then 366 else 365 := by
  decide

/-- Months begin at most one day later in a leap year. -/
theorem daysBeforeMonth_leap : ∀ leap leap', ∀ month < 14,
    daysBeforeMonth leap month ≤ daysBeforeMonth leap' month + 1 := by
  decide

end RecordQuery
