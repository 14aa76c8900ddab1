import RecordQuery.Calendar.Fiscal
import RecordQuery.Proofs.Calendar.Year
import RecordQuery.Proofs.Failure

/-!
# Fiscal years

Fiscal years follow one another without a gap, and every date well inside the calendar lies in the
fiscal year that is computed for it.

*Starts.*  `startDayIn` is the configured start in a calendar year as a day, whether the calendar
reaches that far or not.  The start moves by at most one day between leap and common years, so the
starts ascend by nearly a year each (`startDayIn_succ`), and everything else is arithmetic on them.

*Ranges.*  A fiscal year ends the day before the next one starts (`yearRange_eq_ok_iff`).

*The search.*  The current year is found from the calendar year of the date by going back while a
year starts too late, and then on while the next one starts early enough.  `GoesBack` and `GoesOn`
are these loops, with every failure that can end them; `searched_currentYear` says that looking up
two starts is the whole search.  What holds in every round is that the years visited are next to
the calendar year of the date, so no start that is looked up is out of range (`GoesBack.spec`,
`GoesOn.spec`).
-/

namespace RecordQuery

/-- The dates between two others are supported. -/
theorem Date.exists_between {d e : Date} {n : Int} (hlow : d.day ≤ n) (hhigh : n ≤ e.day) :
    ∃ m : Date, m.day = n :=
  ⟨⟨n, Int.le_trans d.first_le hlow, Int.le_trans hhigh e.le_last⟩, rfl⟩

namespace FiscalSettings

variable {s : FiscalSettings}

/-! ## Starts -/

/-- The day of the configured start in a calendar year. -/
def startDayIn (s : FiscalSettings) (y : Int) : Int :=
  let month := min (max s.startMonth 1) 12
  let day := min (min (max s.startDay 1) 31) (monthLength y month)
  RecordQuery.yearStart y + daysBeforeMonth (isLeapYear y) month + day - 1

theorem startDayIn_bounds (s : FiscalSettings) (y : Int) :
    RecordQuery.yearStart y ≤ s.startDayIn y ∧ s.startDayIn y < RecordQuery.yearStart (y + 1) := by
  have hmonth := daysBeforeMonth_lt_succ (isLeapYear y) (min (max s.startMonth 1) 12) (by omega)
    (by omega)
  rw [yearStart_succ]
  unfold startDayIn yearLength monthLength
  simp only
  split at hmonth
  next hleap =>
    simp only [hleap, if_true] at hmonth ⊢
    omega
  next hleap =>
    simp only [hleap] at hmonth ⊢
    omega

theorem startDayIn_succ (s : FiscalSettings) (y : Int) :
    s.startDayIn y + 364 ≤ s.startDayIn (y + 1) := by
  have hmonth := daysBeforeMonth_leap (isLeapYear y) (isLeapYear (y + 1))
    (min (max s.startMonth 1) 12) (by omega)
  have hnext := daysBeforeMonth_leap (isLeapYear y) (isLeapYear (y + 1))
    (min (max s.startMonth 1) 12 + 1) (by omega)
  have hyear := yearStart_succ y
  have hlength := yearLength_bounds y
  unfold startDayIn monthLength
  simp only
  omega

theorem startDayIn_lt (s : FiscalSettings) {y z : Int} (h : y < z) :
    s.startDayIn y < s.startDayIn z := by
  obtain ⟨-, hbefore⟩ := s.startDayIn_bounds y
  obtain ⟨hbehind, -⟩ := s.startDayIn_bounds z
  have : RecordQuery.yearStart (y + 1) ≤ RecordQuery.yearStart z := yearStart_le h
  omega

/-- The start moved into its month is a date, so only the range of the calendar limits it. -/
theorem startIn?_eq (s : FiscalSettings) (y : Int) : s.startIn? y = Date.ofDay? (s.startDayIn y) := by
  have hmonth := daysBeforeMonth_lt_succ (isLeapYear y) (min (max s.startMonth 1) 12) (by omega)
    (by omega)
  unfold startIn? Date.ofCivil?
  simp only
  rw [if_pos]
  · rfl
  · unfold monthLength
    omega

theorem exists_startIn? {y : Int} (hfirst : firstYear ≤ y) (hlast : y ≤ lastYear) :
    ∃ d, s.startIn? y = some d := by
  obtain ⟨hlow, hhigh⟩ := s.startDayIn_bounds y
  have hfirst' : firstDay ≤ RecordQuery.yearStart y := yearStart_le hfirst
  have hlast' : RecordQuery.yearStart (y + 1) ≤ RecordQuery.yearStart (lastYear + 1) :=
    yearStart_le (by omega)
  have hend : lastDay = RecordQuery.yearStart (lastYear + 1) - 1 := rfl
  rw [startIn?_eq, Date.ofDay?, dif_pos ⟨by omega, by omega⟩]
  exact ⟨_, rfl⟩

/-! ## Years -/

/-- The first day of a fiscal year. -/
def firstDay (s : FiscalSettings) (year : Int) : Int := s.startDayIn (s.startYearOf year)

theorem startYearOf_add (s : FiscalSettings) (year n : Int) :
    s.startYearOf (year + n) = s.startYearOf year + n := by
  unfold startYearOf
  split
  · split <;> omega
  · rfl

theorem startYearOf_bounds (s : FiscalSettings) (year : Int) :
    year - 1 ≤ s.startYearOf year ∧ s.startYearOf year ≤ year := by
  unfold startYearOf
  split
  · split <;> omega
  · omega

theorem firstDay_succ (s : FiscalSettings) (year : Int) :
    s.firstDay year + 364 ≤ s.firstDay (year + 1) := by
  rw [firstDay, firstDay, startYearOf_add]
  exact s.startDayIn_succ _

theorem firstDay_lt (s : FiscalSettings) {year year' : Int} (h : year < year') :
    s.firstDay year < s.firstDay year' := by
  have hadd := s.startYearOf_add year (year' - year)
  rw [show year + (year' - year) = year' by omega] at hadd
  exact s.startDayIn_lt (by omega)

theorem yearStart_eq_ok_iff {year : Int} {d : Date} :
    s.yearStart year = .ok d ↔ d.day = s.firstDay year := by
  rw [firstDay, ← Date.ofDay?_eq_some_iff, ← startIn?_eq, yearStart]
  cases s.startIn? (s.startYearOf year) with
  | none => simp
  | some d' => simp

theorem exists_yearStart (s : FiscalSettings) {year : Int} (hfirst : firstYear < year) (hlast : year ≤ lastYear) :
    ∃ d, s.yearStart year = .ok d := by
  have hbounds := s.startYearOf_bounds year
  obtain ⟨d, hd⟩ := exists_startIn? (s := s) (y := s.startYearOf year) (by omega) (by omega)
  exact ⟨d, by rw [yearStart, hd]⟩

/-- A fiscal year has a range when it and the next have a start, and ends the day before that. -/
theorem yearRange_eq_ok_iff {year : Int} {first last : Date} :
    s.yearRange year = .ok (first, last) ↔
      s.yearStart year = .ok first ∧ ∃ next, s.yearStart (year + 1) = .ok next ∧
        next.addDays? (-1) = some last := by
  rw [yearRange, bind_eq_ok_iff]
  constructor
  · rintro ⟨first', hfirst, h⟩
    cases hnext : s.yearStart (year + 1) with
    | error failure =>
        rw [hnext] at h
        cases h
    | ok next =>
        rw [hnext] at h
        cases hlast : next.addDays? (-1) with
        | none => simp [hlast, Except.toOption, throw, throwThe, MonadExceptOf.throw] at h
        | some last' =>
            simp only [Except.toOption, Option.bind_some, hlast] at h
            cases h
            exact ⟨hfirst, next, rfl, hlast⟩
  · rintro ⟨hfirst, next, hnext, hlast⟩
    refine ⟨first, hfirst, ?_⟩
    simp only [hnext, Except.toOption, Option.bind_some, hlast]
    rfl

theorem days_of_yearRange {year : Int} {first last : Date}
    (h : s.yearRange year = .ok (first, last)) :
    first.day = s.firstDay year ∧ last.day + 1 = s.firstDay (year + 1) := by
  obtain ⟨hfirst, next, hnext, hlast⟩ := yearRange_eq_ok_iff.mp h
  rw [yearStart_eq_ok_iff] at hfirst hnext
  rw [Date.addDays?_eq_some_iff] at hlast
  exact ⟨hfirst, by omega⟩

theorem exists_yearRange {year : Int} {first next : Date} (hfirst : s.yearStart year = .ok first)
    (hnext : s.yearStart (year + 1) = .ok next) : ∃ last, s.yearRange year = .ok (first, last) := by
  have hgap := s.firstDay_succ year
  have hstart := yearStart_eq_ok_iff.mp hfirst
  have hend := yearStart_eq_ok_iff.mp hnext
  obtain ⟨last, hlast⟩ := Date.exists_between (d := first) (e := next) (n := next.day - 1)
    (by omega) (by omega)
  exact ⟨last, yearRange_eq_ok_iff.mpr
    ⟨hfirst, next, hnext, Date.addDays?_eq_some_iff.mpr (by omega)⟩⟩

/-- A fiscal year starts between the beginning of the calendar year before it and the end of the
calendar year of its number. -/
theorem firstDay_bounds (s : FiscalSettings) (year : Int) :
    RecordQuery.yearStart (year - 1) ≤ s.firstDay year ∧
      s.firstDay year < RecordQuery.yearStart (year + 1) := by
  obtain ⟨hlow, hhigh⟩ := s.startDayIn_bounds (s.startYearOf year)
  have hbounds := s.startYearOf_bounds year
  have hbefore : RecordQuery.yearStart (year - 1) ≤ RecordQuery.yearStart (s.startYearOf year) :=
    yearStart_le (by omega)
  have hbehind : RecordQuery.yearStart (s.startYearOf year + 1) ≤ RecordQuery.yearStart (year + 1) :=
    yearStart_le (by omega)
  exact ⟨Int.le_trans hbefore hlow, Int.lt_of_lt_of_le hhigh hbehind⟩

/-- A date lies behind the start of the fiscal year before its calendar year and before the start
of the one after next. -/
theorem firstDay_near (s : FiscalSettings) (today : Date) :
    s.firstDay (today.year - 1) ≤ today.day ∧ today.day < s.firstDay (today.year + 1 + 1) := by
  obtain ⟨hlow, hhigh⟩ := yearOfDay_spec today.day
  obtain ⟨-, hbefore⟩ := s.firstDay_bounds (today.year - 1)
  obtain ⟨hbehind, -⟩ := s.firstDay_bounds (today.year + 1 + 1)
  rw [Int.sub_add_cancel] at hbefore
  rw [Int.add_sub_cancel] at hbehind
  change RecordQuery.yearStart today.year ≤ today.day at hlow
  change today.day < RecordQuery.yearStart (today.year + 1) at hhigh
  omega

/-! ## The search for a year -/

/-- Going back year by year while a year starts after the date, up to a failure. -/
inductive GoesBack (s : FiscalSettings) (today : Date) : Int → Except QueryError Int → Prop where
  | failed {year : Int} {e : QueryError} : s.yearStart year = .error e → GoesBack s today year (.error e)
  | found {year : Int} {first : Date} : s.yearStart year = .ok first → first ≤ today →
      GoesBack s today year (.ok year)
  | overflow {year : Int} {first : Date} {e : QueryError} : s.yearStart year = .ok first →
      today < first → stepYear year (-1) = .error e → GoesBack s today year (.error e)
  | step {year before : Int} {first : Date} {outcome : Except QueryError Int} :
      s.yearStart year = .ok first → today < first → stepYear year (-1) = .ok before →
        GoesBack s today before outcome → GoesBack s today year outcome

/-- Going on year by year while the next year starts no later than the date, up to a failure. -/
inductive GoesOn (s : FiscalSettings) (today : Date) : Int → Except QueryError Int → Prop where
  | overflow {year : Int} {e : QueryError} : stepYear year 1 = .error e →
      GoesOn s today year (.error e)
  | failed {year after : Int} {e : QueryError} : stepYear year 1 = .ok after →
      s.yearStart after = .error e → GoesOn s today year (.error e)
  | found {year after : Int} {next : Date} : stepYear year 1 = .ok after →
      s.yearStart after = .ok next → today < next → GoesOn s today year (.ok year)
  | step {year after : Int} {next : Date} {outcome : Except QueryError Int} :
      stepYear year 1 = .ok after → s.yearStart after = .ok next → next ≤ today →
        GoesOn s today after outcome → GoesOn s today year outcome

/-- Going back from the calendar year of the date, and then on from the year that was found. -/
inductive Searched (s : FiscalSettings) (today : Date) : Except QueryError Int → Prop where
  | failed {e : QueryError} : GoesBack s today today.year (.error e) → Searched s today (.error e)
  | found {year : Int} {outcome : Except QueryError Int} : GoesBack s today today.year (.ok year) →
      GoesOn s today year outcome → Searched s today outcome

theorem stepYear_of_near {year delta : Int} (hlow : firstYear - 2 ≤ year + delta)
    (hhigh : year + delta ≤ lastYear + 2) : stepYear year delta = .ok (year + delta) := by
  have hfits : fitsSigned 32 (year + delta) = true := by
    have hbound : ((twoTo 31 : Nat) : Int) = 2147483648 := by rfl
    simp only [firstYear, lastYear] at hlow hhigh
    simp only [fitsSigned, Bool.and_eq_true, decide_eq_true_eq, hbound]
    omega
  rw [stepYear, if_pos hfits]

/-- Before the start of its calendar year, a date lies in the year before, if that can be found. -/
theorem searched_of_lt {today guess : Date} (hguess : s.yearStart today.year = .ok guess)
    (hearly : today < guess) : Searched s today (s.currentYear today) := by
  have hlow := today.firstYear_le_year
  have hhigh := today.year_le_lastYear
  have hback : stepYear today.year (-1) = .ok (today.year - 1) :=
    stepYear_of_near (by omega) (by omega)
  cases hbefore : s.yearStart (today.year - 1) with
  | error e =>
      simp only [currentYear, hguess, ok_bind, hearly, if_true, hbefore, error_bind]
      exact .failed (.step hguess hearly hback (.failed hbefore))
  | ok before =>
      have hstarted : before ≤ today := by
        obtain ⟨hearlier, -⟩ := s.firstDay_near today
        rw [yearStart_eq_ok_iff] at hbefore
        change before.day ≤ today.day
        omega
      have hreturn : stepYear (today.year - 1) 1 = .ok today.year := by
        rw [stepYear_of_near (by omega) (by omega), Int.sub_add_cancel]
      have hended : ¬ guess ≤ today := Int.not_le.mpr hearly
      simp only [currentYear, hguess, ok_bind, hearly, if_true, hbefore, pure_eq_ok,
        Int.sub_add_cancel, hended, if_false]
      exact .found (.step hguess hearly hback (.found hbefore hstarted))
        (.found hreturn hguess hearly)

/-- From the start of its calendar year on, a date lies in that year or in the next one. -/
theorem searched_of_le {today guess : Date} (hguess : s.yearStart today.year = .ok guess)
    (hle : guess ≤ today) : Searched s today (s.currentYear today) := by
  have hlow := today.firstYear_le_year
  have hhigh := today.year_le_lastYear
  have hon : stepYear today.year 1 = .ok (today.year + 1) :=
    stepYear_of_near (by omega) (by omega)
  have hsecond : stepYear (today.year + 1) 1 = .ok (today.year + 1 + 1) :=
    stepYear_of_near (by omega) (by omega)
  have hearly : ¬ today < guess := Int.not_lt.mpr hle
  have hfound := GoesBack.found hguess hle
  cases hnext : s.yearStart (today.year + 1) with
  | error e =>
      simp only [currentYear, hguess, ok_bind, hearly, if_false, pure_eq_ok, hnext, error_bind]
      exact .found hfound (.failed hon hnext)
  | ok next =>
      by_cases hlate : next ≤ today
      · cases hlast : s.yearStart (today.year + 1 + 1) with
        | error e =>
            simp only [currentYear, hguess, ok_bind, hearly, if_false, pure_eq_ok, hnext, hlate,
              if_true, show today.year + 2 = today.year + 1 + 1 by omega, hlast, error_bind]
            exact .found hfound (.step hon hnext hlate (.failed hsecond hlast))
        | ok second =>
            have hbehind : today < second := by
              obtain ⟨-, hlater⟩ := s.firstDay_near today
              rw [yearStart_eq_ok_iff] at hlast
              change today.day < second.day
              omega
            simp only [currentYear, hguess, ok_bind, hearly, if_false, pure_eq_ok, hnext, hlate,
              if_true, show today.year + 2 = today.year + 1 + 1 by omega, hlast]
            exact .found hfound (.step hon hnext hlate (.found hsecond hlast hbehind))
      · simp only [currentYear, hguess, ok_bind, hearly, if_false, pure_eq_ok, hnext, hlate]
        exact .found hfound (.found hon hnext (Int.not_le.mp hlate))

/-- One step in either direction is enough, so the starts that are looked up decide the search. -/
theorem searched_currentYear (s : FiscalSettings) (today : Date) :
    Searched s today (s.currentYear today) := by
  cases hguess : s.yearStart today.year with
  | error e =>
      simp only [currentYear, hguess, error_bind]
      exact .failed (.failed hguess)
  | ok guess =>
      by_cases hearly : today < guess
      · exact searched_of_lt hguess hearly
      · exact searched_of_le hguess (Int.not_lt.mp hearly)

/-- Far enough from the first supported date, going back ends in a year that has started. -/
theorem GoesBack.spec {today : Date} (hfirst : firstYear + 2 ≤ today.year) {year : Int}
    {outcome : Except QueryError Int} (h : GoesBack s today year outcome)
    (hmin : today.year - 1 ≤ year) (hmax : year ≤ today.year) :
    ∃ found first, outcome = .ok found ∧ today.year - 1 ≤ found ∧ found ≤ today.year ∧
      s.yearStart found = .ok first ∧ first ≤ today := by
  have hlast := today.year_le_lastYear
  induction h with
  | @failed year e hstart =>
      obtain ⟨first, hstart'⟩ : ∃ d, s.yearStart year = .ok d :=
        s.exists_yearStart (by omega) (by omega)
      rw [hstart'] at hstart
      cases hstart
  | @found year first hstart hle => exact ⟨year, first, rfl, hmin, hmax, hstart, hle⟩
  | @overflow year first e hstart hlt hstep =>
      rw [stepYear_of_near (by omega) (by omega)] at hstep
      cases hstep
  | @step year before first outcome hstart hlt hstep _ ih =>
      rw [stepYear_of_near (by omega) (by omega)] at hstep
      cases hstep
      refine ih ?_ (by omega)
      -- the year before the calendar year of the date has started
      obtain ⟨hearlier, -⟩ := s.firstDay_near today
      rcases Int.lt_or_eq_of_le hmin with hbehind | hsame
      · omega
      · rw [yearStart_eq_ok_iff, ← hsame] at hstart
        change today.day < first.day at hlt
        omega

/-- Far enough from the last supported date, going on ends in a year that has not ended. -/
theorem GoesOn.spec {today : Date} (hlast : today.year ≤ lastYear - 2) {year : Int}
    {outcome : Except QueryError Int} (h : GoesOn s today year outcome) (hmin : firstYear ≤ year)
    (hmax : year ≤ today.year + 1) {first : Date} (hstart : s.yearStart year = .ok first)
    (hle : first ≤ today) :
    ∃ found first next, outcome = .ok found ∧ s.yearStart found = .ok first ∧
      s.yearStart (found + 1) = .ok next ∧ first ≤ today ∧ today < next := by
  induction h generalizing first with
  | @overflow year e hstep =>
      rw [stepYear_of_near (by omega) (by omega)] at hstep
      cases hstep
  | @failed year after e hstep hnext =>
      rw [stepYear_of_near (by omega) (by omega)] at hstep
      cases hstep
      obtain ⟨next, hnext'⟩ : ∃ d, s.yearStart (year + 1) = .ok d :=
        s.exists_yearStart (by omega) (by omega)
      rw [hnext'] at hnext
      cases hnext
  | @found year after next hstep hnext hlt =>
      rw [stepYear_of_near (by omega) (by omega)] at hstep
      cases hstep
      exact ⟨year, first, next, rfl, hstart, hnext, hle, hlt⟩
  | @step year after next outcome hstep hnext hnextle _ ih =>
      rw [stepYear_of_near (by omega) (by omega)] at hstep
      cases hstep
      refine ih (by omega) ?_ hnext hnextle
      -- the second year after the calendar year of the date has not started
      obtain ⟨-, hlater⟩ := s.firstDay_near today
      rcases Int.lt_or_eq_of_le hmax with hbefore | hsame
      · omega
      · rw [yearStart_eq_ok_iff, hsame] at hnext
        change next.day ≤ today.day at hnextle
        omega

/-- The fiscal year of a date well inside the calendar is the one in which the date lies. -/
theorem currentYear_spec {today : Date} (hfirst : firstYear + 2 ≤ today.year)
    (hlast : today.year ≤ lastYear - 2) :
    ∃ year first next, s.currentYear today = .ok year ∧ s.yearStart year = .ok first ∧
      s.yearStart (year + 1) = .ok next ∧ first ≤ today ∧ today < next := by
  have hsearch := s.searched_currentYear today
  generalize s.currentYear today = outcome at hsearch
  cases hsearch with
  | failed hback =>
      obtain ⟨found, first, heq, -⟩ := hback.spec hfirst (by omega) (by omega)
      cases heq
  | found hback hon =>
      obtain ⟨found, first, heq, hmin, hmax, hstart, hle⟩ := hback.spec hfirst (by omega) (by omega)
      cases heq
      exact hon.spec hlast (by omega) (by omega) hstart hle

/-! ## Disjoint years -/

theorem firstDay_le (s : FiscalSettings) {year year' : Int} (h : year ≤ year') :
    s.firstDay year ≤ s.firstDay year' := by
  rcases Int.lt_or_eq_of_le h with hlt | rfl
  · exact Int.le_of_lt (s.firstDay_lt hlt)
  · exact Int.le_refl _

/-- No date lies in two fiscal years. -/
theorem year_eq_of_mem {year year' : Int} {first last first' last' today : Date}
    (h : s.yearRange year = .ok (first, last)) (h' : s.yearRange year' = .ok (first', last'))
    (hmem : first ≤ today ∧ today ≤ last) (hmem' : first' ≤ today ∧ today ≤ last') :
    year' = year := by
  obtain ⟨hstart, hend⟩ := days_of_yearRange h
  obtain ⟨hstart', hend'⟩ := days_of_yearRange h'
  obtain ⟨hlow, hhigh⟩ : first.day ≤ today.day ∧ today.day ≤ last.day := hmem
  obtain ⟨hlow', hhigh'⟩ : first'.day ≤ today.day ∧ today.day ≤ last'.day := hmem'
  rcases Int.lt_trichotomy year' year with hlt | heq | hgt
  · have : s.firstDay (year' + 1) ≤ s.firstDay year := s.firstDay_le hlt
    omega
  · exact heq
  · have : s.firstDay (year + 1) ≤ s.firstDay year' := s.firstDay_le hgt
    omega

end FiscalSettings

end RecordQuery
