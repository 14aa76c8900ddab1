import RecordQuery.Calendar.Step
import RecordQuery.Proofs.Calendar.FiscalPeriod

/-!
# How far the calendar reaches

A step out of the calendar fails, so what is computed around a date may fail where the date is near
the ends of the calendar.  This module says how near.

*Steps.*  A step of an instant leads to a second that is counted from its date
(`Instant.steppedSecond`), and to an instant if the calendar holds the day of this second
(`InCalendar`, `Instant.isSome_addSeconds?_iff`).  From a date a year inside the calendar every step
of at most a year ends inside it (`Date.exists_step`), and so does a step of an instant
(`Instant.exists_step`).

*Fiscal years.*  A fiscal year has a range when its number leaves a year on either side
(`FiscalSettings.exists_yearRange_of_lt`).  The current year has a number next to that of the
calendar year (`exists_currentYear`), and the periods around the current one lie in that year or
next to it (`exists_previousPeriod`, `exists_nextPeriod`).
-/

namespace RecordQuery

/-! ## Steps -/

/-- The calendar holds the day at a distance from 1 January of year 1. -/
def InCalendar (day : Int) : Prop := firstDay ≤ day ∧ day ≤ lastDay

theorem Date.exists_step {d : Date} (hfirst : firstYear + 1 ≤ d.year) (hlast : d.year ≤ lastYear - 1)
    {n : Int} (hlow : -365 ≤ n) (hhigh : n ≤ 365) : ∃ e : Date, e.day = d.day + n := by
  obtain ⟨hstart, hend⟩ := yearOfDay_spec d.day
  change yearStart d.year ≤ d.day at hstart
  change d.day < yearStart (d.year + 1) at hend
  have hbefore : firstDay + yearLength firstYear ≤ yearStart d.year := by
    rw [firstDay, ← yearStart_succ]
    exact yearStart_le hfirst
  have hbehind : yearStart (d.year + 1) + yearLength lastYear ≤ lastDay + 1 := by
    have hle : yearStart (d.year + 1) ≤ yearStart lastYear := yearStart_le (by omega)
    have hsucc := yearStart_succ lastYear
    unfold lastDay
    omega
  have hfirstLength := yearLength_bounds firstYear
  have hlastLength := yearLength_bounds lastYear
  exact ⟨⟨d.day + n, by omega, by omega⟩, rfl⟩

namespace Instant

/-- The time of day at a distance in seconds stands on a day that the calendar holds. -/
theorem isSome_ofSeconds?_iff {d : Date} {seconds : Int} {nano : Nat} (hnano : nano < 1000000000) :
    (ofSeconds? d seconds nano).isSome = true ↔ InCalendar (d.day + seconds / 86400) := by
  have hplain : nano < 2000000000 ∧
      (1000000000 ≤ nano → (seconds % 86400).toNat % 60 = 59) := by omega
  rw [ofSeconds?, dif_pos hplain, Option.isSome_map, Date.addDays?, Date.ofDay?, InCalendar]
  split <;> simp_all

/-- The second, counted from its date, that a step of an instant leads to.  A step back out of a
leap second goes from the second behind it. -/
def steppedSecond (i : Instant) (n : Int) : Int :=
  if n < 0 ∧ 1000000000 ≤ i.nano then i.second + 1 + n else i.second + n

/-- A step does not lead into a leap second. -/
theorem addSeconds?_eq (i : Instant) {n : Int} (hn : n ≠ 0) :
    i.addSeconds? n = ofSeconds? i.date (i.steppedSecond n) (i.nano % 1000000000) := by
  have hnano := i.nano_lt
  rw [addSeconds?, if_neg hn, steppedSecond]
  by_cases hplain : i.nano < 1000000000
  · rw [if_pos hplain, if_neg (by omega), Nat.mod_eq_of_lt hplain]
  · have hrest : i.nano - 1000000000 = i.nano % 1000000000 := by omega
    rw [if_neg hplain, hrest]
    by_cases hforward : 0 < n
    · rw [if_pos hforward, if_neg (by omega)]
    · rw [if_neg hforward, if_pos (by omega)]

/-- A step leads to an instant if the calendar holds the day of its second. -/
theorem isSome_addSeconds?_iff (i : Instant) {n : Int} :
    (i.addSeconds? n).isSome = true ↔ InCalendar (i.date.day + i.steppedSecond n / 86400) := by
  have hsecond := i.second_lt
  by_cases hn : n = 0
  · have hfirst := i.date.first_le
    have hlast := i.date.le_last
    have hday : i.date.day + i.steppedSecond n / 86400 = i.date.day := by
      unfold steppedSecond
      split <;> omega
    rw [addSeconds?, if_pos hn, hday, Option.isSome_some, InCalendar]
    exact iff_of_true rfl ⟨hfirst, hlast⟩
  · rw [i.addSeconds?_eq hn, isSome_ofSeconds?_iff (Nat.mod_lt _ (by decide))]

theorem exists_step {i : Instant} (hfirst : firstYear + 1 ≤ i.date.year)
    (hlast : i.date.year ≤ lastYear - 1) {n : Int} (hlow : -300 ≤ n) (hhigh : n ≤ 300) :
    ∃ j, i.step n = .ok j := by
  have hsecond := i.second_lt
  have hbounds : -365 ≤ i.steppedSecond (86400 * n) / 86400 ∧
      i.steppedSecond (86400 * n) / 86400 ≤ 365 := by
    unfold steppedSecond
    split <;> omega
  obtain ⟨date, hdate⟩ := Date.exists_step hfirst hlast hbounds.1 hbounds.2
  have hreach : InCalendar (i.date.day + i.steppedSecond (86400 * n) / 86400) :=
    hdate ▸ ⟨date.first_le, date.le_last⟩
  obtain ⟨j, hj⟩ := Option.isSome_iff_exists.mp (i.isSome_addSeconds?_iff.mpr hreach)
  exact ⟨j, by rw [step, addDays?, hj]⟩

end Instant

/-! ## Fiscal years -/

namespace FiscalSettings

variable {s : FiscalSettings} {today : Date}

theorem exists_yearRange_of_lt (s : FiscalSettings) {year : Int} (hfirst : firstYear < year)
    (hlast : year < lastYear) : ∃ first last, s.yearRange year = .ok (first, last) := by
  have hsucc : firstYear < year + 1 := by omega
  obtain ⟨first, hstart⟩ := s.exists_yearStart hfirst (by omega)
  obtain ⟨next, hnext⟩ := s.exists_yearStart hsucc (by omega)
  obtain ⟨last, hrange⟩ := exists_yearRange hstart hnext
  exact ⟨first, last, hrange⟩

theorem exists_currentYear (s : FiscalSettings) (hfirst : firstYear + 2 ≤ today.year)
    (hlast : today.year ≤ lastYear - 2) :
    ∃ year, s.currentYear today = .ok year ∧ today.year - 1 ≤ year ∧ year ≤ today.year + 1 := by
  obtain ⟨year, first, next, hyear, hstart, hnext, hle, hlt⟩ := currentYear_spec (s := s) hfirst hlast
  rw [yearStart_eq_ok_iff] at hstart hnext
  change first.day ≤ today.day at hle
  change today.day < next.day at hlt
  obtain ⟨hbegin, hend⟩ := yearOfDay_spec today.day
  change RecordQuery.yearStart today.year ≤ today.day at hbegin
  change today.day < RecordQuery.yearStart (today.year + 1) at hend
  obtain ⟨hlow, -⟩ := s.firstDay_bounds year
  obtain ⟨-, hhigh⟩ := s.firstDay_bounds (year + 1)
  refine ⟨year, hyear, ?_, ?_⟩
  · refine Int.not_lt.mp fun hearly => ?_
    have := yearStart_le (y := year + 1 + 1) (z := today.year) (by omega)
    omega
  · refine Int.not_lt.mp fun hlate => ?_
    have := yearStart_le (y := today.year + 1) (z := year - 1) (by omega)
    omega

/-! ## Fiscal periods -/

/-- The template has the period, and its year lies between two others. -/
def HasWithin (s : FiscalSettings) (low high : Int) (p : FiscalPeriod) : Prop :=
  (low ≤ p.year ∧ p.year ≤ high) ∧ 1 ≤ p.period ∧ p.period ≤ s.periods

variable {low high : Int} {p : FiscalPeriod}

theorem exists_periodRange_of_hasWithin (hp : s.HasWithin low high p) (hlow : firstYear < low)
    (hhigh : high < lastYear) : ∃ range, s.periodRange p.year p.period = .ok range := by
  obtain ⟨⟨hfirst, hlast⟩, hpos, hmax⟩ := hp
  have hinside : firstYear < p.year := Int.lt_of_lt_of_le hlow hfirst
  obtain ⟨first, last, hrange⟩ := s.exists_yearRange_of_lt hinside (by omega)
  obtain ⟨a, b, hperiod⟩ := exists_periodRange hrange hpos hmax
  exact ⟨(a, b), hperiod⟩

theorem exists_currentPeriod (s : FiscalSettings) (hfirst : firstYear + 2 < today.year)
    (hlast : today.year < lastYear - 2) :
    ∃ p, s.currentPeriod today = .ok p ∧ s.HasWithin (today.year - 1) (today.year + 1) p := by
  obtain ⟨year, hyear, hlow, hhigh⟩ :=
    s.exists_currentYear (Int.le_of_lt hfirst) (Int.le_of_lt hlast)
  have hinside : firstYear < year := by omega
  obtain ⟨first, last, hrange⟩ := s.exists_yearRange_of_lt hinside (by omega)
  obtain ⟨hpos, -⟩ := s.periods_bounds
  refine ⟨_, currentPeriod_eq hyear hrange, ?_⟩
  simp only [HasWithin]
  omega

/-- A step goes to a period of a year beside that of the period, or to another one of its year. -/
theorem exists_steppedPeriod (hp : s.HasWithin low high p) (hlow : firstYear < low)
    (hhigh : high < lastYear) {leaves : Prop} [Decidable leaves] {delta : Int}
    (hdelta : -1 ≤ delta ∧ delta ≤ 1) {beside own : Nat}
    (hbeside : 1 ≤ beside ∧ beside ≤ s.periods)
    (hown : ¬ leaves → 1 ≤ own ∧ own ≤ s.periods) :
    ∃ q, (if leaves then (stepYear p.year delta).map (⟨·, beside⟩) else .ok ⟨p.year, own⟩) = .ok q ∧
      s.HasWithin (low - 1) (high + 1) q := by
  obtain ⟨⟨hfirst, hlast⟩, -⟩ := hp
  split
  next hleaves =>
    rw [stepYear_of_near (by omega) (by omega)]
    exact ⟨_, rfl, ⟨by simp only; omega, by simp only; omega⟩, hbeside⟩
  next hstays => exact ⟨_, rfl, ⟨by simp only; omega, by simp only; omega⟩, hown hstays⟩

theorem exists_previousPeriod (hp : s.HasWithin low high p) (hlow : firstYear < low)
    (hhigh : high < lastYear) :
    ∃ q, s.previousPeriod p = .ok q ∧ s.HasWithin (low - 1) (high + 1) q := by
  obtain ⟨hperiods, -⟩ := s.periods_bounds
  have hmax := hp.2.2
  exact exists_steppedPeriod hp hlow hhigh (by decide) ⟨hperiods, Nat.le_refl _⟩
    fun hlater => by omega

theorem exists_nextPeriod (hp : s.HasWithin low high p) (hlow : firstYear < low)
    (hhigh : high < lastYear) :
    ∃ q, s.nextPeriod p = .ok q ∧ s.HasWithin (low - 1) (high + 1) q := by
  obtain ⟨hperiods, -⟩ := s.periods_bounds
  exact exists_steppedPeriod hp hlow hhigh (by decide) ⟨Nat.le_refl _, hperiods⟩
    fun hearlier => by omega

end FiscalSettings

end RecordQuery
