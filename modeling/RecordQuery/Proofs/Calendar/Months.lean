import RecordQuery.Proofs.Calendar.Text

/-!
# Steps of months

Months are counted from the first month of year 0.  Month by month the calendar goes on without a
gap, over the ends of years too (`monthFirst_succ`).

*Dates.*  A number of months later stands a day of the month so many months on: the day of the month
of the date, or the last day of a month that is too short (`Date.monthDay`).  That is a date exactly
if the calendar holds the day (`Date.addMonths?_eq`).  More months lead to a later day
(`Date.monthDay_mono`), and none to the date itself (`Date.monthDay_zero`).
-/

namespace RecordQuery

/-! ## Months by number -/

/-- The number of a month in its year, from 1, of a month that is counted from year 0. -/
def monthOfYear (k : Int) : Nat := (k % 12).toNat + 1

/-- The first day of a month that is counted from year 0. -/
def monthFirst (k : Int) : Int :=
  yearStart (k / 12) + daysBeforeMonth (isLeapYear (k / 12)) (monthOfYear k)

/-- The length of a month that is counted from year 0. -/
def monthDays (k : Int) : Nat := monthLength (k / 12) (monthOfYear k)

theorem monthOfYear_bounds (k : Int) : 1 ≤ monthOfYear k ∧ monthOfYear k ≤ 12 := by
  unfold monthOfYear
  omega

/-- A month ends where the next one of its year begins, after four weeks at least. -/
theorem monthDays_spec (k : Int) : 28 ≤ monthDays k ∧
    daysBeforeMonth (isLeapYear (k / 12)) (monthOfYear k) + monthDays k =
      daysBeforeMonth (isLeapYear (k / 12)) (monthOfYear k + 1) := by
  obtain ⟨hlow, hhigh⟩ := monthOfYear_bounds k
  have hlength := daysBeforeMonth_lt_succ (isLeapYear (k / 12)) _ (Nat.lt_succ_of_le hhigh) hlow
  unfold monthDays monthLength
  omega

/-- The next month begins behind the last day of a month. -/
theorem monthFirst_succ (k : Int) : monthFirst (k + 1) = monthFirst k + monthDays k := by
  obtain ⟨-, hend⟩ := monthDays_spec k
  obtain ⟨hlow, hhigh⟩ := monthOfYear_bounds k
  by_cases hlast : monthOfYear k = 12
  · -- the year ends with the month
    have hyear : (k + 1) / 12 = k / 12 + 1 := by
      unfold monthOfYear at hlast
      omega
    have hmonth : monthOfYear (k + 1) = 1 := by
      unfold monthOfYear at hlast ⊢
      omega
    have hlength : (daysBeforeMonth (isLeapYear (k / 12)) 13 : Int) = yearLength (k / 12) := by
      unfold yearLength
      cases isLeapYear (k / 12) <;> rfl
    rw [hlast] at hend
    unfold monthFirst
    rw [hyear, hmonth, yearStart_succ, ← hlength, ← hend, hlast]
    simp only [daysBeforeMonth]
    omega
  · have hyear : (k + 1) / 12 = k / 12 := by
      unfold monthOfYear at hlast
      omega
    have hmonth : monthOfYear (k + 1) = monthOfYear k + 1 := by
      unfold monthOfYear at hlast ⊢
      omega
    unfold monthFirst
    rw [hyear, hmonth, ← hend]
    omega

/-- A month is over before a later one begins. -/
theorem monthFirst_lt {k l : Int} (h : k < l) : monthFirst k + monthDays k ≤ monthFirst l := by
  obtain ⟨i, rfl⟩ := Int.le.dest h
  induction i with
  | zero => exact Int.le_of_eq (by rw [Int.natCast_zero, Int.add_zero, monthFirst_succ])
  | succ i ih =>
      have hnext := monthFirst_succ (k + 1 + i)
      have hearlier := ih (by omega)
      rw [Int.natCast_succ, ← Int.add_assoc]
      omega

namespace Date

/-! ## Dates -/

/-- The month of a date, counted from the first month of year 0. -/
def monthIndex (d : Date) : Int := 12 * d.year + (d.month - 1)

/-- The day a number of months later than a date. -/
def monthDay (d : Date) (n : Int) : Int :=
  monthFirst (d.monthIndex + n) + min d.dayOfMonth (monthDays (d.monthIndex + n)) - 1

/-- A date has a date some months later where the calendar holds the day. -/
theorem addMonths?_eq (d : Date) (n : Int) : d.addMonths? n = ofDay? (d.monthDay n) := by
  obtain ⟨hlow, hhigh⟩ := monthOfYear_bounds (d.monthIndex + n)
  obtain ⟨hlength, -⟩ := monthDays_spec (d.monthIndex + n)
  have hday : 1 ≤ d.dayOfMonth := Nat.le_add_left ..
  refine if_pos ⟨hlow, hhigh, ?_, Nat.min_le_right ..⟩
  exact Nat.le_min.mpr ⟨hday, Nat.le_trans (by decide) hlength⟩

/-- More months lead to a later day. -/
theorem monthDay_mono (d : Date) {m n : Int} (h : m ≤ n) : d.monthDay m ≤ d.monthDay n := by
  rcases Int.lt_or_eq_of_le h with hlt | rfl
  · have hfirst := monthFirst_lt (k := d.monthIndex + m) (l := d.monthIndex + n) (by omega)
    obtain ⟨hlength, -⟩ := monthDays_spec (d.monthIndex + n)
    have hday : 1 ≤ d.dayOfMonth := Nat.le_add_left ..
    unfold monthDay
    omega
  · exact Int.le_refl _

theorem monthDay_zero (d : Date) : d.monthDay 0 = d.day := by
  obtain ⟨hlow, hhigh, -⟩ := d.month_spec
  have hsame : d.addMonths? 0 = some d := by
    have hyear : (12 * d.year + ((d.month : Int) - 1) + 0) / 12 = d.year := by omega
    have hmonth : ((12 * d.year + ((d.month : Int) - 1) + 0) % 12).toNat + 1 = d.month := by omega
    unfold addMonths?
    simp only [hyear, hmonth]
    rw [Nat.min_eq_left d.dayOfMonth_le, ofCivil?_year_month]
  rw [addMonths?_eq, ofDay?_eq_some_iff] at hsame
  exact hsame.symm

end Date

end RecordQuery
