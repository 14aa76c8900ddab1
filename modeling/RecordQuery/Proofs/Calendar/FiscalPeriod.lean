import RecordQuery.Proofs.Calendar.FiscalYear

/-!
# The fiscal calendar tiles time

Fiscal years follow one another without a gap, and so do the periods of each.

*Lengths.*  All periods but the last have one length, at least a day, and together they are no
longer than the year (`lengthBetween_bounds`); the last reaches to the end of the year.

*Tilings.*  The ranges of the periods follow one another from the first day of the year to the last
(`tiles_periods`, by induction on the periods that are left).

*Dates.*  The period of a date is found by a division, which counts the periods that have started
(`holds_iff`).
-/

namespace RecordQuery

/-! ## Tilings -/

/-- The ranges follow one another without a gap, from the first date to the last.  None is empty. -/
inductive Tiles : Date → Date → List (Date × Date) → Prop where
  | last {first last : Date} : first ≤ last → Tiles first last [(first, last)]
  | cons {first mid next last : Date} {ranges : List (Date × Date)} :
      first ≤ mid → mid.addDays? 1 = some next → Tiles next last ranges →
        Tiles first last ((first, mid) :: ranges)

theorem Date.step_eq_ok_iff {d e : Date} {n : Int} : d.step n = .ok e ↔ e.day = d.day + n := by
  rw [← Date.addDays?_eq_some_iff]
  unfold Date.step
  cases d.addDays? n with
  | none => simp
  | some e' => simp

namespace FiscalSettings

variable {s : FiscalSettings}

/-! ## Periods -/

theorem periods_bounds (s : FiscalSettings) : 1 ≤ s.periods ∧ s.periods ≤ 13 := by
  unfold periods FiscalTemplate.periods
  split <;> decide

theorem validatePeriod_eq_ok_iff {period n : Nat} :
    s.validatePeriod period = .ok n ↔ 1 ≤ period ∧ period ≤ s.periods ∧ n = period := by
  unfold validatePeriod
  split
  next hbad =>
    simp only [reduceCtorEq, false_iff]
    omega
  next hgood =>
    simp only [Except.ok.injEq, Int.toNat_natCast]
    omega

/-- The length of every period but the last in a year of the given first and last day. -/
def lengthBetween (s : FiscalSettings) (first last : Date) : Int :=
  max ((last.day - first.day + 1) / s.periods) 1

theorem periodDays_eq {year : Int} {first last : Date}
    (h : s.yearRange year = .ok (first, last)) :
    s.periodDays year = .ok (s.lengthBetween first last) := by
  rw [periodDays, h]
  rfl

/-- All periods together are no longer than the year, and each is at least a day. -/
theorem lengthBetween_bounds {year : Int} {first last : Date}
    (h : s.yearRange year = .ok (first, last)) :
    1 ≤ s.lengthBetween first last ∧
      s.lengthBetween first last * s.periods ≤ last.day - first.day + 1 := by
  obtain ⟨hfirst, hlast⟩ := days_of_yearRange h
  have hgap := s.firstDay_succ year
  obtain ⟨hpos, hmax⟩ := s.periods_bounds
  have hdiv : 1 ≤ (last.day - first.day + 1) / s.periods :=
    (Int.le_ediv_iff_mul_le (by omega)).mpr (by omega)
  rw [lengthBetween, Int.max_eq_left hdiv]
  exact ⟨hdiv, Int.ediv_mul_le _ (by omega)⟩

theorem periodRange_eq_ok_iff {year : Int} {period : Nat} {a b first last : Date}
    (h : s.yearRange year = .ok (first, last)) :
    s.periodRange year period = .ok (a, b) ↔ 1 ≤ period ∧ period ≤ s.periods ∧
      a.day = first.day + s.lengthBetween first last * (period - 1) ∧
      b.day = if period = s.periods then last.day
        else first.day + s.lengthBetween first last * period - 1 := by
  simp only [periodRange, bind_eq_ok_iff, validatePeriod_eq_ok_iff, h, periodDays_eq h,
    Except.ok.injEq, Date.step_eq_ok_iff]
  constructor
  · rintro ⟨n, ⟨hpos, hmax, rfl⟩, p, rfl, length, rfl, a', ha, hrest⟩
    split at hrest
    next hlast =>
      cases hrest
      exact ⟨hpos, hmax, ha, by rw [if_pos hlast]⟩
    next hother =>
      obtain ⟨b', hb, heq⟩ := bind_eq_ok_iff.mp hrest
      cases heq
      refine ⟨hpos, hmax, ha, ?_⟩
      rw [if_neg hother, Int.add_sub_assoc]
      exact Date.step_eq_ok_iff.mp hb
  · rintro ⟨hpos, hmax, ha, hb⟩
    refine ⟨period, ⟨hpos, hmax, rfl⟩, _, rfl, _, rfl, a, ha, ?_⟩
    split
    next hlast =>
      rw [if_pos hlast] at hb
      rw [Date.day_injective hb]
      rfl
    next hother =>
      rw [if_neg hother, Int.add_sub_assoc] at hb
      exact bind_eq_ok_iff.mpr ⟨b, Date.step_eq_ok_iff.mpr hb, rfl⟩

/-- A period, if it were of the common length, would end in the year. -/
theorem length_mul_le {year : Int} {first last : Date} (h : s.yearRange year = .ok (first, last))
    (period : Nat) (hmax : period ≤ s.periods) :
    first.day + s.lengthBetween first last * period ≤ last.day + 1 := by
  obtain ⟨hlength, htotal⟩ := lengthBetween_bounds h
  have hmul : s.lengthBetween first last * period ≤ s.lengthBetween first last * s.periods :=
    Int.mul_le_mul_of_nonneg_left (by omega) (by omega)
  omega

theorem exists_periodRange {year : Int} {period : Nat} {first last : Date}
    (h : s.yearRange year = .ok (first, last)) (hpos : 1 ≤ period) (hmax : period ≤ s.periods) :
    ∃ a b, s.periodRange year period = .ok (a, b) := by
  obtain ⟨hlength, -⟩ := lengthBetween_bounds h
  have hend := length_mul_le h period hmax
  have hnonneg : 0 ≤ s.lengthBetween first last * (period - 1 : Int) :=
    Int.mul_nonneg (by omega) (by omega)
  have hprior : s.lengthBetween first last * (period - 1 : Int) =
      s.lengthBetween first last * period - s.lengthBetween first last := by
    rw [Int.mul_sub, Int.mul_one]
  obtain ⟨a, ha⟩ := Date.exists_between (d := first) (e := last)
    (n := first.day + s.lengthBetween first last * (period - 1)) (by omega) (by omega)
  obtain ⟨b, hb⟩ := Date.exists_between (d := first) (e := last)
    (n := if period = s.periods then last.day
      else first.day + s.lengthBetween first last * period - 1)
    (by split <;> omega) (by split <;> omega)
  exact ⟨a, b, (periodRange_eq_ok_iff h).mpr ⟨hpos, hmax, ha, hb⟩⟩

/-- The periods from one on tile the rest of the year. -/
theorem tiles_from {year : Int} {first last : Date} (h : s.yearRange year = .ok (first, last)) :
    ∀ (rest period : Nat) (a : Date), 1 ≤ period → period + rest = s.periods →
      a.day = first.day + s.lengthBetween first last * (period - 1) →
        ∃ ranges, (List.range' period (rest + 1)).mapM (s.periodRange year) = .ok ranges ∧
          Tiles a last ranges := by
  obtain ⟨hlength, -⟩ := lengthBetween_bounds h
  intro rest
  induction rest with
  | zero =>
      intro period a hpos hperiods ha
      obtain ⟨a', b, hrange⟩ := exists_periodRange h hpos (by omega)
      obtain ⟨-, -, ha', hb⟩ := (periodRange_eq_ok_iff h).mp hrange
      cases Date.day_injective (ha.trans ha'.symm)
      rw [if_pos (by omega)] at hb
      cases Date.day_injective hb
      have hend := length_mul_le h period (by omega)
      refine ⟨[(a, last)], mapM_cons_eq_ok_iff.mpr ⟨_, [], hrange, rfl, rfl⟩, .last ?_⟩
      rw [Int.mul_sub] at ha
      change a.day ≤ last.day
      omega
  | succ rest ih =>
      intro period a hpos hperiods ha
      obtain ⟨a', b, hrange⟩ := exists_periodRange h hpos (by omega)
      obtain ⟨-, -, ha', hb⟩ := (periodRange_eq_ok_iff h).mp hrange
      cases Date.day_injective (ha.trans ha'.symm)
      rw [if_neg (by omega)] at hb
      -- the next period starts the day after this one ends
      obtain ⟨next, b', hnext⟩ : ∃ a b, s.periodRange year (period + 1) = .ok (a, b) :=
        exists_periodRange h (by omega) (by omega)
      obtain ⟨-, -, hstart, -⟩ := (periodRange_eq_ok_iff h).mp hnext
      obtain ⟨ranges, hranges, htiles⟩ := ih (period + 1) next (by omega) (by omega) hstart
      rw [Int.natCast_add, Int.natCast_one, Int.add_sub_cancel] at hstart
      refine ⟨(a, b) :: ranges, mapM_cons_eq_ok_iff.mpr ⟨_, ranges, hrange, hranges, rfl⟩,
        .cons ?_ (Date.addDays?_eq_some_iff.mpr (by omega)) htiles⟩
      rw [Int.mul_sub] at ha
      change a.day ≤ b.day
      omega

theorem tiles_periods {year : Int} {first last : Date} (h : s.yearRange year = .ok (first, last)) :
    ∃ ranges, (List.range' 1 s.periods).mapM (s.periodRange year) = .ok ranges ∧
      Tiles first last ranges := by
  obtain ⟨hpos, -⟩ := s.periods_bounds
  obtain ⟨rest, hrest⟩ := Nat.exists_eq_add_of_le hpos
  have htiles := tiles_from h rest 1 first (Nat.le_refl 1) hrest.symm (by simp)
  rwa [show rest + 1 = s.periods by omega] at htiles

/-! ## Dates -/

/-- A date lies in a period. -/
def Holds (s : FiscalSettings) (year : Int) (period : Nat) (today : Date) : Prop :=
  ∃ range, s.periodRange year period = .ok range ∧ range.1 ≤ today ∧ today ≤ range.2

/-- The number of whole periods, all of the common length, between the start of the year and a
date. -/
theorem holds_iff {year : Int} {period : Nat} {first last today : Date}
    (h : s.yearRange year = .ok (first, last)) (hfirst : first ≤ today) (hlast : today ≤ last) :
    s.Holds year period today ↔
      period = (min ((today.day - first.day) / s.lengthBetween first last) (s.periods - 1)).toNat + 1 := by
  obtain ⟨hlength, -⟩ := lengthBetween_bounds h
  obtain ⟨hperiods, -⟩ := s.periods_bounds
  change first.day ≤ today.day at hfirst
  change today.day ≤ last.day at hlast
  have hindex : 0 ≤ (today.day - first.day) / s.lengthBetween first last :=
    Int.ediv_nonneg (by omega) (by omega)
  have hstarted : ∀ n : Int, n ≤ (today.day - first.day) / s.lengthBetween first last ↔
      first.day + s.lengthBetween first last * n ≤ today.day := by
    intro n
    rw [Int.le_ediv_iff_mul_le (by omega), Int.mul_comm]
    omega
  have hinside : s.Holds year period today ↔ (1 ≤ period ∧ period ≤ s.periods) ∧
      (period - 1 : Int) ≤ (today.day - first.day) / s.lengthBetween first last ∧
        (period = s.periods ∨ ¬ (period : Int) ≤ (today.day - first.day) / s.lengthBetween first last) := by
    rw [hstarted, hstarted]
    constructor
    · rintro ⟨⟨a, b⟩, hrange, ha, hb⟩
      obtain ⟨hpos, hmax, hstart, hend⟩ := (periodRange_eq_ok_iff h).mp hrange
      change a.day ≤ today.day at ha
      change today.day ≤ b.day at hb
      refine ⟨⟨hpos, hmax⟩, by omega, ?_⟩
      split at hend
      next hfinal => exact .inl hfinal
      next hother => exact .inr (by omega)
    · rintro ⟨⟨hpos, hmax⟩, hstart, hend⟩
      obtain ⟨a, b, hrange⟩ := exists_periodRange h hpos hmax
      obtain ⟨-, -, ha, hb⟩ := (periodRange_eq_ok_iff h).mp hrange
      refine ⟨(a, b), hrange, ?_, ?_⟩
      · change a.day ≤ today.day
        omega
      · change today.day ≤ b.day
        split at hb
        next hfinal => omega
        next hother => omega
  rw [hinside]
  omega

theorem yearRange_of_holds {year : Int} {period : Nat} {today : Date}
    (h : s.Holds year period today) :
    ∃ first last, s.yearRange year = .ok (first, last) ∧ first ≤ today ∧ today ≤ last := by
  obtain ⟨⟨a, b⟩, hrange, ha, hb⟩ := h
  have hyear : ∃ range, s.yearRange year = .ok range := by
    obtain ⟨n, -, hrest⟩ := bind_eq_ok_iff.mp hrange
    obtain ⟨range, hrange, -⟩ := bind_eq_ok_iff.mp hrest
    exact ⟨range, hrange⟩
  obtain ⟨⟨first, last⟩, hyear⟩ := hyear
  obtain ⟨hpos, hmax, hstart, hend⟩ := (periodRange_eq_ok_iff hyear).mp hrange
  obtain ⟨hlength, -⟩ := lengthBetween_bounds hyear
  have hnonneg : 0 ≤ s.lengthBetween first last * (period - 1 : Int) :=
    Int.mul_nonneg (by omega) (by omega)
  have hfits := length_mul_le hyear period hmax
  change a.day ≤ today.day at ha
  change today.day ≤ b.day at hb
  refine ⟨first, last, hyear, ?_, ?_⟩
  · change first.day ≤ today.day
    omega
  · change today.day ≤ last.day
    split at hend
    next hfinal => omega
    next hother => omega

theorem currentPeriod_eq {year : Int} {first last today : Date}
    (hyear : s.currentYear today = .ok year) (h : s.yearRange year = .ok (first, last)) :
    s.currentPeriod today = .ok ⟨year,
      (min ((today.day - first.day) / s.lengthBetween first last) (s.periods - 1)).toNat + 1⟩ := by
  obtain ⟨hfirst, -⟩ := yearRange_eq_ok_iff.mp h
  rw [currentPeriod, hyear, ok_bind, hfirst, ok_bind, periodDays_eq h]
  rfl

/-- **The fiscal calendar tiles time.**  A fiscal year ends the day before the next one starts,
its periods tile it, and a date at least two calendar years inside the calendar lies in one period
of all, which is the current one. -/
theorem fiscal_calendar_tiles (s : FiscalSettings) :
    (∀ year first last first' last', s.yearRange year = .ok (first, last) →
      s.yearRange (year + 1) = .ok (first', last') → last.addDays? 1 = some first') ∧
    (∀ year first last, s.yearRange year = .ok (first, last) →
      ∃ ranges, (List.range' 1 s.periods).mapM (s.periodRange year) = .ok ranges ∧
        Tiles first last ranges) ∧
    ∀ today : Date, firstYear + 2 ≤ today.year → today.year ≤ lastYear - 2 →
      ∃ year period, s.currentYear today = .ok year ∧
        s.currentPeriod today = .ok ⟨year, period⟩ ∧
        ∀ year' period', s.Holds year' period' today ↔ year' = year ∧ period' = period := by
  refine ⟨?_, fun year first last h => tiles_periods h, ?_⟩
  · intro year first last first' last' h h'
    obtain ⟨-, hlast⟩ := days_of_yearRange h
    obtain ⟨hfirst', -⟩ := days_of_yearRange h'
    exact Date.addDays?_eq_some_iff.mpr (hfirst'.trans hlast.symm)
  · intro today hfirst hlast
    obtain ⟨year, first, next, hyear, hstart, hend, hlow, hhigh⟩ :=
      currentYear_spec (s := s) hfirst hlast
    obtain ⟨last, hrange⟩ := exists_yearRange hstart hend
    have hinside : first ≤ today ∧ today ≤ last := by
      obtain ⟨-, hlast⟩ := days_of_yearRange hrange
      rw [yearStart_eq_ok_iff] at hend
      change today.day < next.day at hhigh
      refine ⟨hlow, ?_⟩
      change today.day ≤ last.day
      omega
    refine ⟨year, _, hyear, currentPeriod_eq hyear hrange, fun year' period' => ?_⟩
    constructor
    · intro hholds
      obtain ⟨first', last', hrange', hinside'⟩ := yearRange_of_holds hholds
      cases year_eq_of_mem hrange hrange' hinside hinside'
      exact ⟨rfl, (holds_iff hrange hinside.1 hinside.2).mp hholds⟩
    · rintro ⟨rfl, rfl⟩
      exact (holds_iff hrange hinside.1 hinside.2).mpr rfl

/-- Years of thirteen periods that start on 29 February, where there is none on the day before. -/
def fromLeapDay : FiscalSettings := ⟨2, 29, .fourWeek, .endYear⟩

theorem fiscal_calendar_tiles_from_leap_day :
    ∃ first last first' last' : Date, fromLeapDay.yearRange 2024 = .ok (first, last) ∧
      fromLeapDay.yearRange 2025 = .ok (first', last') ∧ last.addDays? 1 = some first' ∧
      (∃ ranges, (List.range' 1 13).mapM (fromLeapDay.periodRange 2024) = .ok ranges ∧
        Tiles first last ranges) ∧
      ∃ year period, fromLeapDay.currentYear last = .ok year ∧
        fromLeapDay.currentPeriod last = .ok ⟨year, period⟩ ∧
        fromLeapDay.Holds year period last := by
  obtain ⟨hyears, hperiods, hdates⟩ := fiscal_calendar_tiles fromLeapDay
  obtain ⟨⟨first, last⟩, h⟩ := exists_eq_ok_of_isOk (x := fromLeapDay.yearRange 2024)
    (by decide +kernel)
  obtain ⟨⟨first', last'⟩, h'⟩ := exists_eq_ok_of_isOk (x := fromLeapDay.yearRange 2025)
    (by decide +kernel)
  have hyear : (fromLeapDay.yearRange 2024).toOption.map (·.2.year) = some 2024 := by
    decide +kernel
  rw [h] at hyear
  have hlast : last.year = 2024 := Option.some.inj hyear
  obtain ⟨year, period, hcurrent, hcurrent', hholds⟩ := hdates last
    (by rw [hlast]; decide) (by rw [hlast]; decide)
  exact ⟨first, last, first', last', h, h', hyears 2024 _ _ _ _ h h', hperiods 2024 _ _ h,
    year, period, hcurrent, hcurrent', (hholds year period).mpr ⟨rfl, rfl⟩⟩

end FiscalSettings

end RecordQuery
