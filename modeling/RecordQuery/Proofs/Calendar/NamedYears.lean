import RecordQuery.Proofs.Calendar.Reach

/-!
# Numbers of fiscal years

A fiscal year bears the number of the calendar year in which it starts or of that in which it ends,
and for every number that is accepted its days and its periods can be computed
(`FiscalSettings.named_of_checkedYear`).

*Lengths.*  From one start to the next it is as long as the calendar year of the one or of the
other, depending on which 29 February lies between them (`startDayIn_succ_eq`).  This holds also of
starts that are moved into February.

*Numbers.*  The start in a calendar year lies in that year (`year_of_startDayIn`).  The day before
lies there too, unless the start is 1 January (`startDayIn_gt`), and that start is the case in
which a year ends in the calendar year it starts in.
-/

namespace RecordQuery

/-- A 29 February lies behind a month, in it or before it, and then delays it. -/
theorem daysBeforeMonth_true : ∀ month < 13, 0 < month →
    (daysBeforeMonth true month = daysBeforeMonth false month ∧
      daysBeforeMonth true (month + 1) = daysBeforeMonth false (month + 1)) ∨
    (daysBeforeMonth true month = daysBeforeMonth false month ∧
      daysBeforeMonth true (month + 1) = daysBeforeMonth false (month + 1) + 1) ∨
    (daysBeforeMonth true month = daysBeforeMonth false month + 1 ∧
      daysBeforeMonth true (month + 1) = daysBeforeMonth false (month + 1) + 1) := by
  decide

namespace FiscalSettings

variable {s : FiscalSettings}

/-! ## Valid settings -/

theorem validate_eq_ok_iff : s.validate = .ok () ↔
    (1 ≤ s.startMonth ∧ s.startMonth ≤ 12) ∧ 1 ≤ s.startDay ∧ s.startDay ≤ 31 := by
  unfold validate
  split
  next hmonth =>
    simp only [reduceCtorEq, false_iff]
    omega
  next hmonth =>
    split
    next hday =>
      simp only [reduceCtorEq, false_iff]
      omega
    next hday =>
      simp only [true_iff]
      omega

theorem checkedYear?_eq_some_iff {n year : Int} :
    checkedYear? n = some year ↔ year = n ∧ firstYear < n ∧ n < lastYear := by
  unfold checkedYear?
  split
  next hinside =>
    simp only [Option.some.injEq]
    omega
  next houtside =>
    simp only [reduceCtorEq, false_iff]
    omega

/-! ## Lengths -/

/-- A year from start to start has the length of one of the two calendar years. -/
theorem startDayIn_succ_eq (s : FiscalSettings) (y : Int) :
    s.startDayIn (y + 1) = s.startDayIn y + yearLength y ∨
      s.startDayIn (y + 1) = s.startDayIn y + yearLength (y + 1) := by
  simp only [startDayIn, monthLength, yearStart_succ, yearLength]
  generalize hmonth : min (max s.startMonth 1) 12 = month
  generalize min (max s.startDay 1) 31 = day
  have hleap := daysBeforeMonth_true month (by omega) (by omega)
  have hascends := (daysBeforeMonth_lt_succ false month (by omega) (by omega)).1
  cases isLeapYear y with
  | true =>
      cases isLeapYear (y + 1) with
      | true => omega
      | false =>
          simp only [if_true, Bool.false_eq_true, if_false]
          omega
  | false =>
      cases isLeapYear (y + 1) with
      | true =>
          simp only [if_true, Bool.false_eq_true, if_false]
          omega
      | false =>
          simp only [Bool.false_eq_true, if_false]
          omega

/-- A fiscal year has 365 or 366 days. -/
theorem firstDay_succ_eq (s : FiscalSettings) (year : Int) :
    s.firstDay (year + 1) = s.firstDay year + 365 ∨
      s.firstDay (year + 1) = s.firstDay year + 366 := by
  have hlength : ∀ y, yearLength y = 365 ∨ yearLength y = 366 := by
    intro y
    have := yearLength_bounds y
    omega
  rw [firstDay, firstDay, startYearOf_add]
  rcases s.startDayIn_succ_eq (s.startYearOf year) with h | h
  · rw [h]
    have := hlength (s.startYearOf year)
    omega
  · rw [h]
    have := hlength (s.startYearOf year + 1)
    omega

/-! ## Numbers -/

/-- The start in a calendar year lies in that year. -/
theorem year_of_startDayIn {d : Date} {y : Int} (h : d.day = s.startDayIn y) : d.year = y := by
  rw [Date.year, h, yearOfDay_eq_iff]
  exact s.startDayIn_bounds y

/-- Only a start on 1 January is the first day of its calendar year. -/
theorem startDayIn_gt (hvalid : s.validate = .ok ()) (hlate : s.startsOnNewYear = false) (y : Int) :
    RecordQuery.yearStart y < s.startDayIn y := by
  obtain ⟨⟨hmonth, hmonth'⟩, hday, hday'⟩ := validate_eq_ok_iff.mp hvalid
  have hlater : ¬(s.startMonth = 1 ∧ s.startDay = 1) := by
    simpa [startsOnNewYear] using hlate
  have hspan := daysBeforeMonth_lt_succ (isLeapYear y) s.startMonth (by omega) hmonth
  have hbegin : s.startMonth = 1 ∨ 28 ≤ daysBeforeMonth (isLeapYear y) s.startMonth := by
    have hall : ∀ leap, ∀ month < 13, 1 < month → 28 ≤ daysBeforeMonth leap month := by decide
    rcases Nat.lt_or_ge 1 s.startMonth with hlt | hge
    · exact .inr (hall _ _ (by omega) hlt)
    · exact .inl (by omega)
  simp only [startDayIn, monthLength, Nat.max_eq_left hmonth, Nat.min_eq_left hmonth']
  omega

theorem startDayIn_eq (h : s.startsOnNewYear = true) (y : Int) :
    s.startDayIn y = RecordQuery.yearStart y := by
  obtain ⟨hmonth, hday⟩ : s.startMonth = 1 ∧ s.startDay = 1 := by
    simpa [startsOnNewYear] using h
  obtain ⟨hspan, -⟩ := daysBeforeMonth_lt_succ (isLeapYear y) 1 (by decide) (by decide)
  have hbegin : daysBeforeMonth (isLeapYear y) 1 = 0 := rfl
  have hfirst : min (min 1 31) (daysBeforeMonth (isLeapYear y) (1 + 1) - 0) = 1 := by omega
  simp only [startDayIn, monthLength, hmonth, hday, Nat.max_self]
  rw [show min 1 12 = 1 from rfl, hbegin, hfirst]
  omega

/-- Named by its start, a year starts in the calendar year of its number. -/
theorem year_of_first (hnaming : s.naming = .startYear) {year : Int} {first : Date}
    (h : first.day = s.firstDay year) : first.year = year := by
  rw [firstDay, startYearOf, hnaming] at h
  exact year_of_startDayIn h

/-- Named by its end, a year ends in the calendar year of its number. -/
theorem year_of_last (hvalid : s.validate = .ok ()) (hnaming : s.naming = .endYear) {year : Int}
    {last : Date} (h : last.day + 1 = s.firstDay (year + 1)) : last.year = year := by
  rw [firstDay, startYearOf, hnaming] at h
  rw [Date.year, yearOfDay_eq_iff]
  have hlength := yearStart_succ year
  have hbounds := yearLength_bounds year
  cases hnew : s.startsOnNewYear with
  | true =>
      -- the year is the calendar year
      simp only [hnew, if_true, startDayIn_eq hnew] at h
      omega
  | false =>
      simp only [hnew, Bool.false_eq_true, if_false, Int.add_sub_cancel] at h
      have hlate := startDayIn_gt hvalid hnew year
      obtain ⟨-, hend⟩ := s.startDayIn_bounds year
      omega

/-! ## Periods -/

/-- A period lies in its year and is not empty. -/
theorem periodRange_inside {year : Int} {period : Nat} {first last a b : Date}
    (h : s.yearRange year = .ok (first, last)) (hperiod : s.periodRange year period = .ok (a, b)) :
    first ≤ a ∧ a ≤ b ∧ b ≤ last := by
  obtain ⟨hpos, hmax, ha, hb⟩ := (periodRange_eq_ok_iff h).mp hperiod
  obtain ⟨hlength, -⟩ := lengthBetween_bounds h
  have hend := length_mul_le h period hmax
  have hbefore : 0 ≤ s.lengthBetween first last * (period - 1 : Int) :=
    Int.mul_nonneg (by omega) (by omega)
  rw [Int.mul_sub, Int.mul_one] at ha hbefore
  change first.day ≤ a.day ∧ a.day ≤ b.day ∧ b.day ≤ last.day
  split at hb <;> omega

/-- The day behind a period that is not the last of its year lies in the year. -/
theorem exists_behind {year : Int} {period : Nat} {first last a b : Date}
    (h : s.yearRange year = .ok (first, last)) (hperiod : s.periodRange year period = .ok (a, b))
    (hearlier : period < s.periods) : ∃ next, b.addDays? 1 = some next ∧ next ≤ last := by
  obtain ⟨-, -, -, hb⟩ := (periodRange_eq_ok_iff h).mp hperiod
  obtain ⟨next, later, hnext⟩ : ∃ a b, s.periodRange year (period + 1) = .ok (a, b) :=
    exists_periodRange h (by omega) hearlier
  obtain ⟨-, -, hstart, -⟩ := (periodRange_eq_ok_iff h).mp hnext
  obtain ⟨-, hle, hlast⟩ := periodRange_inside h hnext
  rw [if_neg (Nat.ne_of_lt hearlier)] at hb
  rw [Int.natCast_add, Int.natCast_one, Int.add_sub_cancel] at hstart
  refine ⟨next, Date.addDays?_eq_some_iff.mpr (by omega), ?_⟩
  exact Int.le_trans hle hlast

/-! ## Named years -/

/-- A fiscal year stands where its number says, and its periods can be computed in it. -/
structure Named (s : FiscalSettings) (year : Int) (first last : Date) : Prop where
  range : s.yearRange year = .ok (first, last)
  length : last.day - first.day + 1 = 365 ∨ last.day - first.day + 1 = 366
  startYear : s.naming = .startYear → first.year = year
  endYear : s.naming = .endYear → last.year = year
  /-- Every period lies in the year, with the day behind it if another period follows. -/
  periods : ∀ period, 1 ≤ period → period ≤ s.periods →
    ∃ a b, s.periodRange year period = .ok (a, b) ∧ first ≤ a ∧ a ≤ b ∧ b ≤ last ∧
      (period < s.periods → ∃ next, b.addDays? 1 = some next ∧ next ≤ last)

/-- **Fiscal years are named as declared and can be computed.**  Every number that is accepted has a
fiscal year of 365 or 366 days, which starts or ends in the calendar year of that number as the
settings say, and whose periods all lie in the year, and with it in the supported calendar. -/
theorem named_of_checkedYear (hvalid : s.validate = .ok ()) {n year : Int}
    (h : checkedYear? n = some year) : year = n ∧ ∃ first last, s.Named n first last := by
  obtain ⟨rfl, hfirst, hlast⟩ := checkedYear?_eq_some_iff.mp h
  obtain ⟨first, last, hrange⟩ := s.exists_yearRange_of_lt hfirst hlast
  obtain ⟨hstart, hend⟩ := days_of_yearRange hrange
  refine ⟨rfl, first, last, ?_⟩
  constructor
  case range => exact hrange
  case length =>
    have hlength := s.firstDay_succ_eq year
    omega
  case startYear =>
    intro hnaming
    exact year_of_first hnaming hstart
  case endYear =>
    intro hnaming
    exact year_of_last hvalid hnaming hend
  case periods =>
    intro period hpos hmax
    obtain ⟨a, b, hperiod⟩ := exists_periodRange hrange hpos hmax
    obtain ⟨hlow, hle, hhigh⟩ := periodRange_inside hrange hperiod
    exact ⟨a, b, hperiod, hlow, hle, hhigh, exists_behind hrange hperiod⟩

/-- The last year that is accepted, with a start that is moved within February. -/
theorem named_of_last_checkedYear :
    fromLeapDay.validate = .ok () ∧ checkedYear? 262141 = some 262141 ∧
      ∃ first last, fromLeapDay.Named 262141 first last ∧ last.year = 262141 := by
  have hvalid : fromLeapDay.validate = .ok () := rfl
  have hchecked : checkedYear? 262141 = some 262141 := rfl
  obtain ⟨-, first, last, hnamed⟩ := named_of_checkedYear hvalid hchecked
  exact ⟨hvalid, hchecked, first, last, hnamed, hnamed.endYear rfl⟩

end FiscalSettings

end RecordQuery
