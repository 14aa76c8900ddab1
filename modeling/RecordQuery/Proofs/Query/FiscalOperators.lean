import RecordQuery.Proofs.Calendar.Neighbours
import RecordQuery.Proofs.Query.Answer
import RecordQuery.Proofs.Query.Literal

/-!
# The fiscal operators fit together

Eleven operators ask how a date stands to a fiscal year or period, each by bounds of its own.  They
leave no gap between them and do not overlap (`fiscalOperators_agree`).

*Dates.*  Well inside the calendar a date lies in one period, its own (`FiscalSettings.exists_own`).
So the range of a period covers the date when that period is its own (`Owns.covers_iff_eq`), and the
range of a year when that is the year of its own period (`Owns.covers_year_iff`).

*Tests.*  Tests of ranges thereby compare periods and years.  The two tests by one bound only are
taken as they are: a period is their overlap (`FiscalTest.holds_within_eq_and`), and the next period
starts where the bound of the other one ends (`FiscalTest.holds_upTo_eq_not`).

*Answers.*  On a declared attribute that holds an instant, each operator gives the answer of its
test for the date of the instant (`HoldsInstant.answer_eq`).
-/

namespace RecordQuery

open Text

/-! ## The period of a date -/

namespace FiscalSettings

variable {s : FiscalSettings} {d : Date} {own : FiscalPeriod}

/-- The period is the one in which the date lies, and the only one. -/
structure Owns (s : FiscalSettings) (d : Date) (own : FiscalPeriod) : Prop where
  year : s.currentYear d = .ok own.year
  period : s.currentPeriod d = .ok own
  holds_iff (p : FiscalPeriod) : s.Holds p.year p.period d ↔ p = own

/-- Well inside the calendar a date has its own period, in a year next to the calendar year. -/
theorem exists_own (s : FiscalSettings) (hfirst : firstYear + 3 ≤ d.year)
    (hlast : d.year ≤ lastYear - 3) :
    ∃ own, s.Owns d own ∧ s.HasWithin (d.year - 1) (d.year + 1) own := by
  have hlow : firstYear + 2 < d.year := by omega
  have hhigh : d.year < lastYear - 2 := by omega
  obtain ⟨year, first, next, hyear, hstart, hnext, hle, hlt⟩ :=
    currentYear_spec (s := s) (Int.le_of_lt hlow) (Int.le_of_lt hhigh)
  obtain ⟨last, hrange⟩ := exists_yearRange hstart hnext
  obtain ⟨own, hown, hwithin⟩ := s.exists_currentPeriod hlow hhigh
  have hperiod := currentPeriod_eq hyear hrange
  have hinside : d ≤ last := by
    obtain ⟨-, hend⟩ := days_of_yearRange hrange
    rw [yearStart_eq_ok_iff] at hnext
    change d.day < next.day at hlt
    change d.day ≤ last.day
    omega
  obtain rfl := Except.ok.inj (hown.symm.trans hperiod)
  refine ⟨_, ⟨hyear, hown, fun p => ?_⟩, hwithin⟩
  constructor
  · intro hholds
    obtain ⟨first', last', hrange', hinside'⟩ := yearRange_of_holds hholds
    obtain rfl := year_eq_of_mem hrange hrange' ⟨hle, hinside⟩ hinside'
    exact congrArg (FiscalPeriod.mk p.year) ((holds_iff hrange hle hinside).mp hholds)
  · rintro rfl
    exact (holds_iff hrange hle hinside).mpr rfl

theorem covers_iff {range : Date × Date} :
    FiscalTest.covers range d = true ↔ range.1 ≤ d ∧ d ≤ range.2 := by
  simp [FiscalTest.covers]

theorem Owns.covers_iff_eq {p : FiscalPeriod} {range : Date × Date} (h : s.Owns d own)
    (hrange : s.periodRange p.year p.period = .ok range) :
    FiscalTest.covers range d = true ↔ own = p := by
  rw [@eq_comm _ own, ← h.holds_iff, covers_iff, Holds, hrange]
  simp

theorem Owns.covers_year_iff {year : Int} {range : Date × Date} (h : s.Owns d own)
    (hrange : s.yearRange year = .ok range) :
    FiscalTest.covers range d = true ↔ own.year = year := by
  rw [covers_iff]
  constructor
  · rintro ⟨hfirst, hlast⟩
    have hholds := (FiscalSettings.holds_iff hrange hfirst hlast).mpr rfl
    rw [← (h.holds_iff ⟨year, _⟩).mp hholds]
  · rintro rfl
    -- a date lies in the year of its own period
    obtain ⟨first, last, hrange', hinside⟩ := yearRange_of_holds ((h.holds_iff own).mpr rfl)
    obtain rfl := Except.ok.inj (hrange'.symm.trans hrange)
    exact hinside

end FiscalSettings

/-! ## Fiscal tests -/

namespace FiscalTest

variable {ctx : Context} {d : Date} {own current p q : FiscalPeriod}

theorem holds_inYear (hown : ctx.fiscal.Owns d own) {y : Int} (hfirst : firstYear < y)
    (hlast : y < lastYear) : (inYear y).holds ctx d = .ok (decide (own.year = y)) := by
  obtain ⟨first, last, hrange⟩ := ctx.fiscal.exists_yearRange_of_lt hfirst hlast
  refine bind_eq_ok_iff.mpr ⟨_, hrange, congrArg Except.ok ?_⟩
  rw [Bool.eq_iff_iff, hown.covers_year_iff hrange, decide_eq_true_iff]

/-- A period without a year is one of the fiscal year of the clock. -/
theorem holds_inPeriod (hcurrent : ctx.fiscal.Owns ctx.today current) (n : Nat) :
    (inPeriod n).holds ctx d = (periodOfYear .within n current.year).holds ctx d := by
  rw [holds, holds, hcurrent.year, ok_bind]

theorem holds_year (hown : ctx.fiscal.Owns d own) (hcurrent : ctx.fiscal.Owns ctx.today current)
    (hfirst : firstYear + 1 < current.year) (hlast : current.year < lastYear - 1) (turn : Turn) :
    (year turn).holds ctx d = .ok (decide (own.year = current.year + Window.distance turn)) := by
  have hturn := Window.distance_bounds turn
  have hinside : firstYear < current.year + Window.distance turn := by omega
  rw [← holds_inYear hown hinside (by omega), holds, holds, hcurrent.year, ok_bind]

theorem holds_within (hown : ctx.fiscal.Owns d own) {range : Date × Date}
    (hrange : ctx.fiscal.periodRange p.year p.period = .ok range) :
    (periodOfYear .within p.period p.year).holds ctx d = .ok (decide (own = p)) := by
  refine bind_eq_ok_iff.mpr ⟨range, hrange, congrArg Except.ok ?_⟩
  rw [Bool.eq_iff_iff, hown.covers_iff_eq hrange, decide_eq_true_iff]

/-- A period is the overlap of what lies up to its end and what lies from its start onward. -/
theorem holds_within_eq_and {range : Date × Date}
    (hrange : ctx.fiscal.periodRange p.year p.period = .ok range) :
    ∃ upTo onward, (periodOfYear .upTo p.period p.year).holds ctx d = .ok upTo ∧
      (periodOfYear .onward p.period p.year).holds ctx d = .ok onward ∧
      (periodOfYear .within p.period p.year).holds ctx d = .ok (upTo && onward) := by
  refine ⟨decide (d ≤ range.2), decide (range.1 ≤ d), ?_, ?_, ?_⟩
  · rw [holds, hrange, ok_bind, pure_eq_ok]
  · rw [holds, hrange, ok_bind, pure_eq_ok]
  · rw [holds, hrange, ok_bind, pure_eq_ok, covers, Bool.and_comm]

/-- A date lies up to the end of a period or from the start of the next one onward. -/
theorem holds_upTo_eq_not {range range' : Date × Date} (hq : ctx.fiscal.nextPeriod p = .ok q)
    (hrange : ctx.fiscal.periodRange p.year p.period = .ok range)
    (hrange' : ctx.fiscal.periodRange q.year q.period = .ok range') :
    ∃ upTo, (periodOfYear .upTo p.period p.year).holds ctx d = .ok upTo ∧
      (periodOfYear .onward q.period q.year).holds ctx d = .ok !upTo := by
  have hday := FiscalSettings.day_of_nextPeriod hrange hrange' hq
  have hsplit : range'.1 ≤ d ↔ ¬ d ≤ range.2 := by
    change range'.1.day ≤ d.day ↔ ¬ d.day ≤ range.2.day
    omega
  refine ⟨decide (d ≤ range.2), ?_, ?_⟩
  · rw [holds, hrange, ok_bind, pure_eq_ok]
  · rw [holds, hrange', ok_bind, pure_eq_ok]
    simp [hsplit]

theorem holds_period (hown : ctx.fiscal.Owns d own) (hcurrent : ctx.fiscal.Owns ctx.today current)
    {turn : Turn} (hp : turned ctx.fiscal current turn = .ok p) {range : Date × Date}
    (hrange : ctx.fiscal.periodRange p.year p.period = .ok range) :
    (period turn).holds ctx d = .ok (decide (own = p)) := by
  rw [holds_turned hcurrent.period hp hrange, Except.ok.injEq, Bool.eq_iff_iff,
    hown.covers_iff_eq hrange, decide_eq_true_iff]

end FiscalTest

/-! ## Answers -/

/-- Two literals name the number of a period and its year. -/
inductive FiscalPeriod.NamedBy (name : String) (p : FiscalPeriod) : List Value → Prop where
  | mk {v w : Value} : wholeLiteral name v = .ok p.period → wholeLiteral name w = .ok p.year →
      NamedBy name p [v, w]

section Answers

variable {e : Entity} {ctx : Context} {row : Record} {name : String} {t : Instant}

namespace HoldsInstant

/-- On such an attribute an operator answers with its fiscal test. -/
theorem answer_eq (h : HoldsInstant e row name t) {o : Operator} {values : List Value}
    {f : FiscalTest} (harity : o.arity.accepts values.length = true)
    (htest : Condition.testOf ctx (lowercase name) (some .dateTime) o values =
      .ok (.fiscal f, true)) :
    e.answer ctx row name o values = f.holds ctx t.date :=
  h.answer_eq_holds harity htest

theorem answer_fiscalYear (h : HoldsInstant e row name t) (turn : Turn) :
    e.answer ctx row name (.fiscalYear turn) [] = (FiscalTest.year turn).holds ctx t.date :=
  h.answer_eq rfl rfl

theorem answer_fiscalPeriod (h : HoldsInstant e row name t) (turn : Turn) :
    e.answer ctx row name (.fiscalPeriod turn) [] = (FiscalTest.period turn).holds ctx t.date :=
  h.answer_eq rfl rfl

theorem answer_inFiscalYear (h : HoldsInstant e row name t) {v : Value} {y : Int}
    (hv : wholeLiteral (lowercase name) v = .ok y) (hy : FiscalSettings.checkedYear? y = some y) :
    e.answer ctx row name .inFiscalYear [v] = (FiscalTest.inYear y).holds ctx t.date := by
  refine h.answer_eq rfl (Condition.requireType_bind_eq_ok_iff.mpr ⟨by rintro _ ⟨⟩; rfl, ?_⟩)
  rw [hv, ok_bind, Condition.fiscalYearOf, hy]
  rfl

theorem answer_inFiscalPeriod (h : HoldsInstant e row name t) {v : Value} {n : Nat}
    (hv : wholeLiteral (lowercase name) v = .ok n) (hpos : 1 ≤ n) (hmax : n ≤ ctx.fiscal.periods) :
    e.answer ctx row name .inFiscalPeriod [v] = (FiscalTest.inPeriod n).holds ctx t.date := by
  refine h.answer_eq rfl (Condition.requireType_bind_eq_ok_iff.mpr ⟨by rintro _ ⟨⟩; rfl, ?_⟩)
  rw [hv, ok_bind, FiscalSettings.validatePeriod_eq_ok_iff.mpr ⟨hpos, hmax, rfl⟩]
  rfl

theorem answer_fiscalPeriodAndYear (h : HoldsInstant e row name t) {p : FiscalPeriod}
    {values : List Value} (hp : p.NamedBy (lowercase name) values) (hperiod : ctx.fiscal.HasPeriod p)
    (hy : FiscalSettings.checkedYear? p.year = some p.year) (bound : PeriodBound) :
    e.answer ctx row name (.fiscalPeriodAndYear bound) values =
      (FiscalTest.periodOfYear bound p.period p.year).holds ctx t.date := by
  obtain ⟨hpos, hmax⟩ := hperiod
  obtain ⟨hv, hw⟩ := hp
  refine h.answer_eq rfl (Condition.requireType_bind_eq_ok_iff.mpr ⟨by rintro _ ⟨⟩; rfl, ?_⟩)
  rw [hv, hw, ok_bind, ok_bind, FiscalSettings.validatePeriod_eq_ok_iff.mpr ⟨hpos, hmax, rfl⟩,
    ok_bind, Condition.fiscalYearOf, hy]
  rfl

/-- A period well inside the calendar has a range, and the operators that name the period compare
the date with the bounds of that range. -/
theorem exists_named_range (h : HoldsInstant e row name t) {low high : Int} {p : FiscalPeriod}
    (hp : ctx.fiscal.HasWithin low high p) (hlow : firstYear < low) (hhigh : high < lastYear) :
    ∃ range, ctx.fiscal.periodRange p.year p.period = .ok range ∧
      ∀ {values}, p.NamedBy (lowercase name) values → ∀ bound,
        e.answer ctx row name (.fiscalPeriodAndYear bound) values =
          (FiscalTest.periodOfYear bound p.period p.year).holds ctx t.date := by
  obtain ⟨range, hrange⟩ := FiscalSettings.exists_periodRange_of_hasWithin hp hlow hhigh
  obtain ⟨⟨hfirst, hlast⟩, hperiod⟩ := hp
  have hchecked : FiscalSettings.checkedYear? p.year = some p.year := if_pos ⟨by omega, by omega⟩
  exact ⟨range, hrange, fun hnamed => h.answer_fiscalPeriodAndYear hnamed hperiod hchecked⟩

/-- A date lies in a period that is named when that is its own. -/
theorem answer_within (h : HoldsInstant e row name t) {own p : FiscalPeriod}
    (hown : ctx.fiscal.Owns t.date own) {values : List Value}
    (hp : p.NamedBy (lowercase name) values) (hperiod : ctx.fiscal.HasPeriod p)
    (hfirst : firstYear < p.year) (hlast : p.year < lastYear) :
    e.answer ctx row name (.fiscalPeriodAndYear .within) values = .ok (decide (own = p)) := by
  have hwithin : ctx.fiscal.HasWithin p.year p.year p := ⟨⟨Int.le_refl _, Int.le_refl _⟩, hperiod⟩
  obtain ⟨range, hrange, hanswer⟩ := h.exists_named_range hwithin hfirst hlast
  rw [hanswer hp, FiscalTest.holds_within hown hrange]

end HoldsInstant

/-- How the answers of the fiscal operators on a date hang together.  Periods and years that are
named lie at least three years inside the calendar. -/
structure FiscalOperatorsAgree (e : Entity) (ctx : Context) (row : Record) (name : String)
    (d : Date) : Prop where
  /-- A period is what lies up to its end and from its start onward. -/
  within_eq : ∀ {p : FiscalPeriod} {values : List Value}, p.NamedBy (lowercase name) values →
    ctx.fiscal.HasWithin (firstYear + 3) (lastYear - 3) p → ∃ upTo onward,
      e.answer ctx row name (.fiscalPeriodAndYear .upTo) values = .ok upTo ∧
      e.answer ctx row name (.fiscalPeriodAndYear .onward) values = .ok onward ∧
      e.answer ctx row name (.fiscalPeriodAndYear .within) values = .ok (upTo && onward)
  /-- What lies up to the end of a period does not lie from the start of the next onward. -/
  upTo_eq : ∀ {p : FiscalPeriod} {values : List Value}, p.NamedBy (lowercase name) values →
    ctx.fiscal.HasWithin (firstYear + 3) (lastYear - 3) p →
      ∃ next upTo, ctx.fiscal.nextPeriod p = .ok next ∧
        e.answer ctx row name (.fiscalPeriodAndYear .upTo) values = .ok upTo ∧
        ∀ values', next.NamedBy (lowercase name) values' →
          e.answer ctx row name (.fiscalPeriodAndYear .onward) values' = .ok !upTo
  /-- A year is made of its periods. -/
  inYear_iff : ∀ {y : Int} {v : Value}, wholeLiteral (lowercase name) v = .ok y →
    firstYear + 3 ≤ y → y ≤ lastYear - 3 → ∃ inYear,
      e.answer ctx row name .inFiscalYear [v] = .ok inYear ∧
      (inYear = true ↔ ∃ (n : Nat) (w : Value), ctx.fiscal.HasPeriod ⟨y, n⟩ ∧
        FiscalPeriod.NamedBy (lowercase name) ⟨y, n⟩ [w, v] ∧
        e.answer ctx row name (.fiscalPeriodAndYear .within) [w, v] = .ok true)
  /-- A period without a year is one of the fiscal year of the clock. -/
  inPeriod_eq : ∃ year, ctx.fiscal.currentYear ctx.today = .ok year ∧
    ∀ {n : Nat} {v w : Value}, FiscalPeriod.NamedBy (lowercase name) ⟨year, n⟩ [v, w] →
      ctx.fiscal.HasPeriod ⟨year, n⟩ → ∃ inPeriod,
        e.answer ctx row name .inFiscalPeriod [v] = .ok inPeriod ∧
        e.answer ctx row name (.fiscalPeriodAndYear .within) [v, w] = .ok inPeriod
  /-- The year and the period of the clock, and those beside them, are compared with the year and
  the period of the date. -/
  turn_eq : ∃ own current, ctx.fiscal.currentYear d = .ok own.year ∧
    ctx.fiscal.currentPeriod d = .ok own ∧ ctx.fiscal.currentYear ctx.today = .ok current.year ∧
    ctx.fiscal.currentPeriod ctx.today = .ok current ∧
    ∀ turn, ∃ turned, FiscalTest.turned ctx.fiscal current turn = .ok turned ∧
      e.answer ctx row name (.fiscalPeriod turn) [] = .ok (decide (own = turned)) ∧
      e.answer ctx row name (.fiscalYear turn) [] =
        .ok (decide (own.year = current.year + match turn with
          | .last => -1
          | .this => 0
          | .next => 1))

/-- The number of a period can be written as a literal. -/
theorem exists_wholeLiteral (name : String) {s : FiscalSettings} {p : FiscalPeriod}
    (hp : s.HasPeriod p) : ∃ v, wholeLiteral name v = .ok p.period := by
  have hcount : ∀ n < 14, (Int32.ofNat n).toInt = n := by decide
  obtain ⟨-, hperiods⟩ := s.periods_bounds
  obtain ⟨-, hmax⟩ := hp
  refine ⟨.int (Int32.ofNat p.period), congrArg Except.ok (hcount p.period ?_)⟩
  omega

/-- **The fiscal operators agree with one another.**  On a date attribute whose instant lies, like
the clock, at least three calendar years inside the calendar, every fiscal operator has an answer,
and the answers leave no gap and do not overlap. -/
theorem fiscalOperators_agree (h : HoldsInstant e row name t)
    (hclock : firstYear + 3 ≤ ctx.today.year ∧ ctx.today.year ≤ lastYear - 3)
    (hdate : firstYear + 3 ≤ t.date.year ∧ t.date.year ≤ lastYear - 3) :
    FiscalOperatorsAgree e ctx row name t.date := by
  obtain ⟨own, hown, hnear⟩ := ctx.fiscal.exists_own hdate.1 hdate.2
  obtain ⟨current, hcurrent, hwithin⟩ := ctx.fiscal.exists_own hclock.1 hclock.2
  constructor
  case within_eq =>
    intro p values hnamed hp
    obtain ⟨range, hrange, hanswer⟩ := h.exists_named_range hp (by decide) (by decide)
    simp only [hanswer hnamed]
    exact FiscalTest.holds_within_eq_and hrange
  case upTo_eq =>
    intro p values hnamed hp
    obtain ⟨next, hnext, hlater⟩ := FiscalSettings.exists_nextPeriod hp (by decide) (by decide)
    obtain ⟨range, hrange, hanswer⟩ := h.exists_named_range hp (by decide) (by decide)
    obtain ⟨range', hrange', hanswer'⟩ := h.exists_named_range hlater (by decide) (by decide)
    obtain ⟨upTo, hupTo, honward⟩ := FiscalTest.holds_upTo_eq_not (d := t.date) hnext hrange hrange'
    refine ⟨next, upTo, hnext, ?_, fun values' hnamed' => ?_⟩
    · rw [hanswer hnamed, hupTo]
    · rw [hanswer' hnamed', honward]
  case inYear_iff =>
    intro y v hv hfirst hlast
    have hchecked : FiscalSettings.checkedYear? y = some y := if_pos ⟨by omega, by omega⟩
    have hinside : firstYear < y := by omega
    refine ⟨decide (own.year = y), ?_, ?_⟩
    · rw [h.answer_inFiscalYear hv hchecked, FiscalTest.holds_inYear hown hinside (by omega)]
    · rw [decide_eq_true_iff]
      constructor
      · rintro rfl
        obtain ⟨w, hw⟩ := exists_wholeLiteral (lowercase name) hnear.2
        refine ⟨own.period, w, hnear.2, ⟨hw, hv⟩, ?_⟩
        rw [h.answer_within hown ⟨hw, hv⟩ hnear.2 hinside (by omega), decide_eq_true rfl]
      · rintro ⟨n, w, hperiod, hnamed, hmatch⟩
        rw [h.answer_within hown hnamed hperiod hinside (by simp only; omega)] at hmatch
        rw [of_decide_eq_true (Except.ok.inj hmatch)]
  case inPeriod_eq =>
    refine ⟨current.year, hcurrent.year, fun {n v w} hnamed hperiod => ?_⟩
    have hbeside : ctx.fiscal.HasWithin _ _ ⟨current.year, n⟩ := ⟨hwithin.1, hperiod⟩
    obtain ⟨range, hrange, hanswer⟩ := h.exists_named_range hbeside (by omega) (by omega)
    have hholds := FiscalTest.holds_within hown hrange
    refine ⟨_, ?_, (hanswer hnamed .within).trans hholds⟩
    obtain ⟨hv, -⟩ := hnamed
    rw [h.answer_inFiscalPeriod hv hperiod.1 hperiod.2, FiscalTest.holds_inPeriod hcurrent, hholds]
  case turn_eq =>
    refine ⟨own, current, hown.year, hown.period, hcurrent.year, hcurrent.period, fun turn => ?_⟩
    obtain ⟨turned, hturned, hbeside⟩ :=
      FiscalTest.exists_turned hwithin (by omega) (by omega) turn
    obtain ⟨range, hrange⟩ :=
      FiscalSettings.exists_periodRange_of_hasWithin hbeside (by omega) (by omega)
    obtain ⟨⟨hlow, hhigh⟩, -⟩ := hwithin
    refine ⟨turned, hturned, ?_, ?_⟩
    · rw [h.answer_fiscalPeriod, FiscalTest.holds_period hown hcurrent hturned hrange]
    · rw [h.answer_fiscalYear, FiscalTest.holds_year hown hcurrent (by omega) (by omega)]
      rfl

end Answers

namespace Sample

/-- Fiscal years have thirteen periods and start on the last of February. -/
def leapCtx : Context := { ctx with fiscal := .fromLeapDay }

theorem met_fiscally :
    HoldsInstant acquaintance (ada.set "met" (.instant default)) "met" default ∧
      (firstYear + 3 ≤ leapCtx.today.year ∧ leapCtx.today.year ≤ lastYear - 3) ∧
      FiscalOperatorsAgree acquaintance leapCtx (ada.set "met" (.instant default)) "met"
        (default : Instant).date := by
  have hmet : HoldsInstant acquaintance (ada.set "met" (.instant default)) "met" default :=
    ⟨rfl, .instant default, rfl, rfl⟩
  have hinside : firstYear + 3 ≤ leapCtx.today.year ∧ leapCtx.today.year ≤ lastYear - 3 := by
    decide +kernel
  exact ⟨hmet, hinside, fiscalOperators_agree hmet hinside hinside⟩

end Sample

end RecordQuery
