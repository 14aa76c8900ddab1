import RecordQuery.Proofs.Calendar.FiscalPeriod

/-!
# Neighbouring fiscal periods

The steps to the next and to the previous fiscal period undo one another
(`previousPeriod_of_nextPeriod`, `nextPeriod_of_previousPeriod`), and they are steps in time: the
next period starts on the day after a period ends (`day_of_nextPeriod`), also where it is the first
period of another year.

The steps count with years of 32 bits, which is no limit for a year that has a range
(`bounds_of_yearRange`).
-/

namespace RecordQuery.FiscalSettings

variable {s : FiscalSettings} {p q : FiscalPeriod}

/-! ## Steps -/

/-- The template has the period. -/
def HasPeriod (s : FiscalSettings) (p : FiscalPeriod) : Prop := 1 ≤ p.period ∧ p.period ≤ s.periods

theorem stepYear_eq_ok_iff {year delta year' : Int} :
    stepYear year delta = .ok year' ↔ fitsSigned 32 (year + delta) = true ∧ year' = year + delta := by
  unfold stepYear
  split
  next hfits => simp [hfits, eq_comm]
  next hlarge => simp [hlarge]

theorem nextPeriod_eq_ok_iff : s.nextPeriod p = .ok q ↔
    (p.period < s.periods ∧ q = ⟨p.year, p.period + 1⟩) ∨
      (s.periods ≤ p.period ∧ stepYear p.year 1 = .ok (p.year + 1) ∧ q = ⟨p.year + 1, 1⟩) := by
  unfold nextPeriod
  split
  next hfinal =>
    rw [map_eq_ok_iff]
    constructor
    · rintro ⟨year, hstep, rfl⟩
      obtain ⟨-, rfl⟩ := stepYear_eq_ok_iff.mp hstep
      exact .inr ⟨hfinal, hstep, rfl⟩
    · rintro (⟨hearlier, -⟩ | ⟨-, hstep, rfl⟩)
      · omega
      · exact ⟨_, hstep, rfl⟩
  next hearlier => simp [Nat.not_le.mp hearlier, hearlier, eq_comm]

theorem previousPeriod_eq_ok_iff : s.previousPeriod p = .ok q ↔
    (1 < p.period ∧ q = ⟨p.year, p.period - 1⟩) ∨
      (p.period ≤ 1 ∧ stepYear p.year (-1) = .ok (p.year - 1) ∧ q = ⟨p.year - 1, s.periods⟩) := by
  unfold previousPeriod
  split
  next hfirst =>
    rw [map_eq_ok_iff]
    constructor
    · rintro ⟨year, hstep, rfl⟩
      obtain ⟨-, rfl⟩ := stepYear_eq_ok_iff.mp hstep
      exact .inr ⟨hfirst, hstep, rfl⟩
    · rintro (⟨hlater, -⟩ | ⟨-, hstep, rfl⟩)
      · omega
      · exact ⟨_, hstep, rfl⟩
  next hlater => simp [Nat.not_le.mp hlater, hlater, eq_comm]

theorem hasPeriod_of_nextPeriod (hp : s.HasPeriod p) (h : s.nextPeriod p = .ok q) :
    s.HasPeriod q := by
  obtain ⟨hperiods, -⟩ := s.periods_bounds
  obtain ⟨hpos, hmax⟩ := hp
  rcases nextPeriod_eq_ok_iff.mp h with ⟨hearlier, rfl⟩ | ⟨-, -, rfl⟩
  · exact ⟨Nat.le_add_left 1 p.period, hearlier⟩
  · exact ⟨Nat.le_refl 1, hperiods⟩

theorem hasPeriod_of_previousPeriod (hp : s.HasPeriod p) (h : s.previousPeriod p = .ok q) :
    s.HasPeriod q := by
  obtain ⟨hperiods, -⟩ := s.periods_bounds
  obtain ⟨hpos, hmax⟩ := hp
  rcases previousPeriod_eq_ok_iff.mp h with ⟨hlater, rfl⟩ | ⟨-, -, rfl⟩
  · exact ⟨Nat.le_sub_one_of_lt hlater, Nat.le_trans (Nat.sub_le ..) hmax⟩
  · exact ⟨hperiods, Nat.le_refl _⟩

/-- The step back undoes the step on. -/
theorem previousPeriod_of_nextPeriod (hp : s.HasPeriod p) (hyear : fitsSigned 32 p.year = true)
    (h : s.nextPeriod p = .ok q) : s.previousPeriod q = .ok p := by
  obtain ⟨hpos, hmax⟩ := hp
  rw [previousPeriod_eq_ok_iff]
  rcases nextPeriod_eq_ok_iff.mp h with ⟨hearlier, rfl⟩ | ⟨hfinal, -, rfl⟩
  · exact .inl ⟨Nat.lt_add_of_pos_left hpos, rfl⟩
  · have hback : p.year + 1 - 1 = p.year := Int.add_sub_cancel ..
    refine .inr ⟨Nat.le_refl 1, ?_, ?_⟩
    · rw [stepYear_eq_ok_iff, ← Int.sub_eq_add_neg, hback]
      exact ⟨hyear, rfl⟩
    · rw [hback, Nat.le_antisymm hfinal hmax]

/-- The step on undoes the step back. -/
theorem nextPeriod_of_previousPeriod (hp : s.HasPeriod p) (hyear : fitsSigned 32 p.year = true)
    (h : s.previousPeriod p = .ok q) : s.nextPeriod q = .ok p := by
  obtain ⟨hpos, hmax⟩ := hp
  rw [nextPeriod_eq_ok_iff]
  rcases previousPeriod_eq_ok_iff.mp h with ⟨hlater, rfl⟩ | ⟨hfirst, -, rfl⟩
  · have hon : p.period - 1 + 1 = p.period := Nat.sub_add_cancel hpos
    refine .inl ⟨?_, ?_⟩
    · exact Nat.lt_of_lt_of_le (Nat.sub_lt hpos Nat.one_pos) hmax
    · rw [hon]
  · have hon : p.year - 1 + 1 = p.year := Int.sub_add_cancel ..
    refine .inr ⟨Nat.le_refl _, ?_, ?_⟩
    · rw [stepYear_eq_ok_iff, hon]
      exact ⟨hyear, rfl⟩
    · rw [hon, ← Nat.le_antisymm hfirst hpos]

/-! ## Steps in time -/

theorem exists_yearRange_of_periodRange {year : Int} {period : Nat} {range : Date × Date}
    (h : s.periodRange year period = .ok range) : ∃ first last, s.yearRange year = .ok (first, last) := by
  obtain ⟨n, -, hrest⟩ := bind_eq_ok_iff.mp h
  obtain ⟨⟨first, last⟩, hyear, -⟩ := bind_eq_ok_iff.mp hrest
  exact ⟨first, last, hyear⟩

/-- The next period starts on the day after a period ends. -/
theorem day_of_nextPeriod {range range' : Date × Date}
    (hp : s.periodRange p.year p.period = .ok range)
    (hq : s.periodRange q.year q.period = .ok range') (h : s.nextPeriod p = .ok q) :
    range'.1.day = range.2.day + 1 := by
  obtain ⟨first, last, hyear⟩ := exists_yearRange_of_periodRange hp
  obtain ⟨-, hmax, -, hend⟩ := (periodRange_eq_ok_iff hyear).mp hp
  rcases nextPeriod_eq_ok_iff.mp h with ⟨hearlier, rfl⟩ | ⟨hfinal, -, rfl⟩
  · obtain ⟨-, -, hstart, -⟩ := (periodRange_eq_ok_iff hyear).mp hq
    rw [if_neg (Nat.ne_of_lt hearlier)] at hend
    rw [hstart, hend, Int.natCast_add, Int.natCast_one, Int.add_sub_cancel]
    omega
  · -- the last period ends with its year, and the next year starts the day after
    obtain ⟨first', last', hyear'⟩ := exists_yearRange_of_periodRange hq
    obtain ⟨-, -, hstart, -⟩ := (periodRange_eq_ok_iff hyear').mp hq
    obtain ⟨-, hnext⟩ := days_of_yearRange hyear
    obtain ⟨hfirst, -⟩ := days_of_yearRange hyear'
    rw [if_pos (Nat.le_antisymm hmax hfinal)] at hend
    rw [hstart, hend, hfirst, ← hnext]
    simp

/-- Only years of the calendar have a range. -/
theorem bounds_of_yearRange {year : Int} {range : Date × Date} (h : s.yearRange year = .ok range) :
    firstYear ≤ year ∧ year ≤ lastYear := by
  obtain ⟨first, last⟩ := range
  obtain ⟨hstart, next, hnext, -⟩ := yearRange_eq_ok_iff.mp h
  rw [yearStart_eq_ok_iff] at hstart hnext
  obtain ⟨-, hlow⟩ := s.firstDay_bounds year
  obtain ⟨hhigh, -⟩ := s.firstDay_bounds (year + 1)
  rw [Int.add_sub_cancel] at hhigh
  constructor
  · refine Int.not_lt.mp fun hearly => ?_
    have hfirst : RecordQuery.yearStart (year + 1) ≤ RecordQuery.firstDay := yearStart_le hearly
    have := first.first_le
    omega
  · refine Int.not_lt.mp fun hlate => ?_
    have hlast : RecordQuery.lastDay + 1 ≤ RecordQuery.yearStart year := by
      rw [RecordQuery.lastDay, Int.sub_add_cancel]
      exact yearStart_le hlate
    have := next.le_last
    omega

theorem fits_of_yearRange {year : Int} {range : Date × Date} (h : s.yearRange year = .ok range) :
    fitsSigned 32 year = true := by
  obtain ⟨hlow, hhigh⟩ := bounds_of_yearRange h
  have hstay : stepYear year 0 = .ok (year + 0) := stepYear_of_near (by omega) (by omega)
  obtain ⟨hfits, -⟩ := stepYear_eq_ok_iff.mp hstay
  rwa [Int.add_zero] at hfits

theorem exists_periodRange_of_hasPeriod {range : Date × Date} (hp : s.HasPeriod p)
    (hyear : s.yearRange p.year = .ok range) :
    ∃ rangeOf, s.periodRange p.year p.period = .ok rangeOf := by
  obtain ⟨first, last, h⟩ := exists_periodRange hyear hp.1 hp.2
  exact ⟨(first, last), h⟩

/-- A period has a next one, with a range, if its year and the next have ranges. -/
theorem exists_range_of_nextPeriod {range later : Date × Date} (hp : s.HasPeriod p)
    (hyear : s.yearRange p.year = .ok range) (hlater : s.yearRange (p.year + 1) = .ok later) :
    ∃ after rangeAfter, s.nextPeriod p = .ok after ∧
      s.periodRange after.year after.period = .ok rangeAfter := by
  have hnext : ∃ after range', s.nextPeriod p = .ok after ∧
      s.yearRange after.year = .ok range' := by
    rcases Nat.lt_or_ge p.period s.periods with hearlier | hfinal
    · exact ⟨⟨p.year, p.period + 1⟩, range, nextPeriod_eq_ok_iff.mpr (.inl ⟨hearlier, rfl⟩), hyear⟩
    · have hstep := stepYear_eq_ok_iff.mpr ⟨fits_of_yearRange hlater, rfl⟩
      exact ⟨⟨p.year + 1, 1⟩, later, nextPeriod_eq_ok_iff.mpr (.inr ⟨hfinal, hstep, rfl⟩), hlater⟩
  obtain ⟨after, range', hafter, hyear'⟩ := hnext
  obtain ⟨rangeAfter, hrange⟩ :=
    exists_periodRange_of_hasPeriod (hasPeriod_of_nextPeriod hp hafter) hyear'
  exact ⟨after, rangeAfter, hafter, hrange⟩

/-- A period has a previous one, with a range, if its year and the one before have ranges. -/
theorem exists_range_of_previousPeriod {range earlier : Date × Date} (hp : s.HasPeriod p)
    (hyear : s.yearRange p.year = .ok range) (hearlier : s.yearRange (p.year - 1) = .ok earlier) :
    ∃ before rangeBefore, s.previousPeriod p = .ok before ∧
      s.periodRange before.year before.period = .ok rangeBefore := by
  have hprevious : ∃ before range', s.previousPeriod p = .ok before ∧
      s.yearRange before.year = .ok range' := by
    rcases Nat.lt_or_ge 1 p.period with hlater | hfirst
    · exact ⟨⟨p.year, p.period - 1⟩, range, previousPeriod_eq_ok_iff.mpr (.inl ⟨hlater, rfl⟩), hyear⟩
    · have hstep := stepYear_eq_ok_iff.mpr ⟨fits_of_yearRange hearlier, rfl⟩
      exact ⟨⟨p.year - 1, s.periods⟩, earlier,
        previousPeriod_eq_ok_iff.mpr (.inr ⟨hfirst, hstep, rfl⟩), hearlier⟩
  obtain ⟨before, range', hbefore, hyear'⟩ := hprevious
  obtain ⟨rangeBefore, hrange⟩ :=
    exists_periodRange_of_hasPeriod (hasPeriod_of_previousPeriod hp hbefore) hyear'
  exact ⟨before, rangeBefore, hbefore, hrange⟩

/-- **Next and previous fiscal period are the neighbours in time.**  Where the year of a period and
the years beside it have ranges, both steps lead to periods of the template, each undoes the other,
and the ranges of the three periods follow one another without a gap. -/
theorem neighbours_of_period (s : FiscalSettings) {p : FiscalPeriod} (hp : s.HasPeriod p)
    {earlier range later : Date × Date} (hearlier : s.yearRange (p.year - 1) = .ok earlier)
    (hyear : s.yearRange p.year = .ok range) (hlater : s.yearRange (p.year + 1) = .ok later) :
    ∃ before after, s.previousPeriod p = .ok before ∧ s.nextPeriod p = .ok after ∧
      s.nextPeriod before = .ok p ∧ s.previousPeriod after = .ok p ∧
      s.HasPeriod before ∧ s.HasPeriod after ∧
      ∃ rangeBefore rangeOf rangeAfter, s.periodRange before.year before.period = .ok rangeBefore ∧
        s.periodRange p.year p.period = .ok rangeOf ∧
        s.periodRange after.year after.period = .ok rangeAfter ∧
        rangeBefore.2.addDays? 1 = some rangeOf.1 ∧ rangeOf.2.addDays? 1 = some rangeAfter.1 := by
  have hfits := fits_of_yearRange hyear
  obtain ⟨rangeOf, hrange⟩ := exists_periodRange_of_hasPeriod hp hyear
  obtain ⟨before, rangeBefore, hbefore, hrangeBefore⟩ :=
    exists_range_of_previousPeriod hp hyear hearlier
  obtain ⟨after, rangeAfter, hafter, hrangeAfter⟩ := exists_range_of_nextPeriod hp hyear hlater
  have hback := nextPeriod_of_previousPeriod hp hfits hbefore
  have hon := previousPeriod_of_nextPeriod hp hfits hafter
  refine ⟨before, after, hbefore, hafter, hback, hon, hasPeriod_of_previousPeriod hp hbefore,
    hasPeriod_of_nextPeriod hp hafter, rangeBefore, rangeOf, rangeAfter, hrangeBefore, hrange,
    hrangeAfter, ?_, ?_⟩
  · exact Date.addDays?_eq_some_iff.mpr (day_of_nextPeriod hrangeBefore hrange hback)
  · exact Date.addDays?_eq_some_iff.mpr (day_of_nextPeriod hrange hrangeAfter hafter)

/-- The last of thirteen periods, before a year that starts on 29 February. -/
theorem neighbours_of_last_period :
    fromLeapDay.HasPeriod ⟨2024, 13⟩ ∧
      fromLeapDay.previousPeriod ⟨2024, 13⟩ = .ok ⟨2024, 12⟩ ∧
      fromLeapDay.nextPeriod ⟨2024, 13⟩ = .ok ⟨2025, 1⟩ ∧
      fromLeapDay.nextPeriod ⟨2024, 12⟩ = .ok ⟨2024, 13⟩ ∧
      fromLeapDay.previousPeriod ⟨2025, 1⟩ = .ok ⟨2024, 13⟩ ∧
      ∃ range range' : Date × Date, fromLeapDay.periodRange 2024 13 = .ok range ∧
        fromLeapDay.periodRange 2025 1 = .ok range' ∧ range.2.addDays? 1 = some range'.1 := by
  have hp : fromLeapDay.HasPeriod ⟨2024, 13⟩ := by unfold HasPeriod; decide
  obtain ⟨earlier, hearlier⟩ := exists_eq_ok_of_isOk (x := fromLeapDay.yearRange 2023)
    (by decide +kernel)
  obtain ⟨range, hyear⟩ := exists_eq_ok_of_isOk (x := fromLeapDay.yearRange 2024)
    (by decide +kernel)
  obtain ⟨later, hlater⟩ := exists_eq_ok_of_isOk (x := fromLeapDay.yearRange 2025)
    (by decide +kernel)
  obtain ⟨before, after, hbefore, hafter, hback, hon, -, -, -, rangeOf, rangeAfter, -, hrange,
    hrangeAfter, -, htouch⟩ := neighbours_of_period fromLeapDay hp hearlier hyear hlater
  cases hbefore
  cases hafter
  exact ⟨hp, rfl, rfl, hback, hon, rangeOf, rangeAfter, hrange, hrangeAfter, htouch⟩

end RecordQuery.FiscalSettings
