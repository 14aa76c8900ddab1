import RecordQuery.Proofs.Calendar.Reach
import RecordQuery.Proofs.Query.ThreeValued

/-!
# What compiles can be evaluated

A condition that compiles fails on a row only because of the row's value: the value has no key, or a
key of another kind than the declared type stores (`CompiledCondition.evaluate_error_iff`).  The
failures of tests are out of reach.

*Kinds.*  Compiling gives tests of texts and of dates to attributes of such types only, and the keys
that fit such a type are texts and instants (`Key.exists_text`, `Key.exists_instant`).

*The calendar.*  Three calendar years inside the calendar, no window of time and no fiscal year or
period around now leaves it (`Window.exists_holds`, `FiscalTest.exists_holds`).
-/

namespace RecordQuery

open Text

/-! ## Kinds of keys -/

namespace Key

variable {column : String} {t : AttributeType} {k : Key}

theorem exists_text (ht : t.isText = true) (hk : k.fits t = true) : ∃ s, k = .text s := by
  cases t with
  | string | memo =>
      cases k with
      | text s => exact ⟨s, rfl⟩
      | _ => cases hk
  | _ => cases ht

theorem exists_instant (ht : t.isDate = true) (hk : k.fits t = true) : ∃ i, k = .instant i := by
  cases t with
  | dateTime =>
      cases k with
      | instant i => exact ⟨i, rfl⟩
      | _ => cases hk
  | _ => cases ht

theorem fits_of_ofStored {v : Value} (h : ofStored column (some t) v = .ok (some k)) :
    k.fits t = true := by
  obtain ⟨key, -, h⟩ := bind_eq_ok_iff.mp h
  cases key with
  | none => cases h
  | some k' =>
      by_cases hfits : k'.fits t = true
      · simp only [hfits, if_true] at h
        cases h
        exact hfits
      · simp only [hfits] at h
        cases h

theorem fits_of_ofColumn {row : Record} (h : ofColumn row column (some t) = .ok (some k)) :
    k.fits t = true := by
  unfold ofColumn at h
  cases hvalue : row.get? column with
  | none =>
      rw [hvalue] at h
      cases h
  | some v =>
      rw [hvalue] at h
      exact fits_of_ofStored h

theorem unsupported_of_ofValue {v : Value} {failure : QueryError}
    (h : ofValue column v = .error failure) :
    ∃ kind, failure = .unsupported column (.value kind) := by
  unfold ofValue at h
  cases hplain : v.unaliased with
  | double d =>
      simp only [hplain, decimalOfDouble] at h
      cases hd : d.toDecimal? with
      | some x =>
          rw [hd] at h
          cases h
      | none =>
          rw [hd] at h
          cases h
          exact ⟨_, rfl⟩
  | records rs =>
      rw [hplain] at h
      cases h
      exact ⟨_, rfl⟩
  | aliased inner =>
      rw [hplain] at h
      cases h
      exact ⟨_, rfl⟩
  | _ =>
      rw [hplain] at h
      cases h

/-- A value is rejected with its column and its kind. -/
theorem unsupported_of_ofColumn {row : Record} {declared : Option AttributeType}
    {failure : QueryError} (h : ofColumn row column declared = .error failure) :
    ∃ kind, failure = .unsupported column (.value kind) := by
  unfold ofColumn at h
  cases hvalue : row.get? column with
  | none =>
      rw [hvalue] at h
      cases h
  | some v =>
      simp only [hvalue, ofStored] at h
      cases hkey : ofValue column v with
      | error failure' =>
          rw [hkey] at h
          cases h
          exact unsupported_of_ofValue hkey
      | ok key =>
          rw [hkey, ok_bind] at h
          cases key with
          | none => cases h
          | some k =>
              cases declared with
              | none => cases h
              | some t =>
                  simp only at h
                  split at h
                  next hfits => cases h
                  next hother =>
                    cases h
                    exact ⟨_, rfl⟩

end Key

/-! ## Turns -/

theorem Window.distance_bounds (turn : Turn) : -1 ≤ distance turn ∧ distance turn ≤ 1 := by
  cases turn <;> decide

namespace FiscalTest

variable {s : FiscalSettings} {ctx : Context} {d : Date} {current p : FiscalPeriod}

/-- The period that a turn leads to from the current one. -/
def turned (s : FiscalSettings) (current : FiscalPeriod) : Turn → Except QueryError FiscalPeriod
  | .last => s.previousPeriod current
  | .this => .ok current
  | .next => s.nextPeriod current

theorem exists_turned {low high : Int} (hcurrent : s.HasWithin low high current)
    (hlow : firstYear < low) (hhigh : high < lastYear) (turn : Turn) :
    ∃ p, turned s current turn = .ok p ∧ s.HasWithin (low - 1) (high + 1) p := by
  cases turn with
  | last => exact FiscalSettings.exists_previousPeriod hcurrent hlow hhigh
  | this =>
      obtain ⟨⟨hfirst, hlast⟩, hperiod⟩ := hcurrent
      exact ⟨current, rfl, ⟨by omega, by omega⟩, hperiod⟩
  | next => exact FiscalSettings.exists_nextPeriod hcurrent hlow hhigh

theorem holds_turned {turn : Turn} {range : Date × Date}
    (hcurrent : ctx.fiscal.currentPeriod ctx.today = .ok current)
    (hp : turned ctx.fiscal current turn = .ok p)
    (hrange : ctx.fiscal.periodRange p.year p.period = .ok range) :
    (period turn).holds ctx d = .ok (covers range d) := by
  have hturns : (period turn).holds ctx d = (do
      let current ← ctx.fiscal.currentPeriod ctx.today
      let p ← turned ctx.fiscal current turn
      return covers (← ctx.fiscal.periodRange p.year p.period) d) := by
    cases turn <;> rfl
  rw [hturns, hcurrent, ok_bind, hp, ok_bind, hrange, ok_bind, pure_eq_ok]

end FiscalTest

/-! ## Windows of time -/

section Reach

variable {ctx : Context} (hfirst : firstYear + 3 ≤ ctx.today.year)
  (hlast : ctx.today.year ≤ lastYear - 3)

include hfirst hlast

theorem Context.exists_step {n : Int} (hlow : -365 ≤ n) (hhigh : n ≤ 365) :
    ∃ d, ctx.today.step n = .ok d ∧ d.day = ctx.today.day + n := by
  obtain ⟨d, hd⟩ := Date.exists_step (d := ctx.today) (by omega) (by omega) hlow hhigh
  exact ⟨d, Date.step_eq_ok_iff.mpr hd, hd⟩

theorem Window.exists_week (turn : Turn) :
    ∃ start first last, weekStart ctx ctx.today = .ok start ∧
      start.step (7 * distance turn) = .ok first ∧ first.step 7 = .ok last := by
  have hturn := distance_bounds turn
  -- the week began at most six days ago
  have hago := Nat.mod_lt (ctx.today.daysFromSunday + 7 - ctx.weekStart.fromSunday)
    (show 0 < 7 by decide)
  obtain ⟨start, hstart, hday⟩ := Context.exists_step hfirst hlast
    (n := -((ctx.today.daysFromSunday + 7 - ctx.weekStart.fromSunday) % 7 : Nat))
    (by omega) (by omega)
  obtain ⟨first, -, hbegin⟩ := Context.exists_step hfirst hlast
    (n := start.day - ctx.today.day + 7 * distance turn) (by omega) (by omega)
  obtain ⟨last, -, hend⟩ := Context.exists_step hfirst hlast
    (n := first.day - ctx.today.day + 7) (by omega) (by omega)
  exact ⟨start, first, last, hstart, Date.step_eq_ok_iff.mpr (by omega),
    Date.step_eq_ok_iff.mpr (by omega)⟩

theorem Window.exists_holds (w : Window) (t : Instant) : ∃ b, w.holds ctx t = .ok b := by
  cases w with
  | day turn =>
      have hturn := distance_bounds turn
      obtain ⟨first, hbegin, -⟩ := Context.exists_step hfirst hlast (n := distance turn) (by omega)
        (by omega)
      obtain ⟨last, hend, -⟩ := Context.exists_step hfirst hlast (n := distance turn + 1) (by omega)
        (by omega)
      exact ⟨_, bind_eq_ok_iff.mpr ⟨first, hbegin, bind_eq_ok_iff.mpr ⟨last, hend, rfl⟩⟩⟩
  | lastSevenDays =>
      obtain ⟨first, hbegin⟩ := Instant.exists_step (i := ctx.now) (n := -7)
        (Int.le_trans (by decide) hfirst) (Int.le_trans hlast (by decide)) (by decide) (by decide)
      exact ⟨_, bind_eq_ok_iff.mpr ⟨first, hbegin, rfl⟩⟩
  | nextSevenDays =>
      obtain ⟨last, hend⟩ := Instant.exists_step (i := ctx.now) (n := 7)
        (Int.le_trans (by decide) hfirst) (Int.le_trans hlast (by decide)) (by decide) (by decide)
      by_cases hnow : ctx.now ≤ t
      · exact ⟨_, by rw [holds, if_pos hnow, hend, ok_bind, pure_eq_ok]⟩
      · exact ⟨_, by rw [holds, if_neg hnow, pure_eq_ok]⟩
  | lastSpan unit count => exact ⟨_, rfl⟩
  | nextSpan unit count => exact ⟨_, rfl⟩
  | olderThan unit count => exact ⟨_, rfl⟩
  | calendar unit turn =>
      cases unit with
      | week =>
          obtain ⟨start, first, last, hstart, hbegin, hend⟩ := exists_week hfirst hlast turn
          exact ⟨_, bind_eq_ok_iff.mpr ⟨start, hstart,
            bind_eq_ok_iff.mpr ⟨first, hbegin, bind_eq_ok_iff.mpr ⟨last, hend, rfl⟩⟩⟩⟩
      | month => exact ⟨_, rfl⟩
      | year => exact ⟨_, rfl⟩

/-! ## The fiscal calendar -/

theorem FiscalTest.exists_holds {f : FiscalTest} (hf : f.InRange ctx.fiscal) (d : Date) :
    ∃ b, f.holds ctx d = .ok b := by
  have hearly : firstYear + 2 < ctx.today.year := by omega
  have hlate : ctx.today.year < lastYear - 2 := by omega
  obtain ⟨year, hyear, hlow, hhigh⟩ :=
    ctx.fiscal.exists_currentYear (Int.le_of_lt hearly) (Int.le_of_lt hlate)
  cases hf with
  | inYear hlow hhigh =>
      obtain ⟨first, last, hrange⟩ :=
        ctx.fiscal.exists_yearRange_of_lt (Int.lt_of_add_one_le hlow) (by omega)
      exact ⟨_, bind_eq_ok_iff.mpr ⟨_, hrange, rfl⟩⟩
  | @inPeriod p hpos hmax =>
      have hwithin : ctx.fiscal.HasWithin year year ⟨year, p⟩ := ⟨⟨by simp, by simp⟩, hpos, hmax⟩
      obtain ⟨range, hrange⟩ :=
        FiscalSettings.exists_periodRange_of_hasWithin hwithin (by omega) (by omega)
      exact ⟨_, bind_eq_ok_iff.mpr ⟨year, hyear, bind_eq_ok_iff.mpr ⟨range, hrange, rfl⟩⟩⟩
  | @periodOfYear bound p y hpos hmax hlow hhigh =>
      have hwithin : ctx.fiscal.HasWithin y y ⟨y, p⟩ := ⟨⟨by simp, by simp⟩, hpos, hmax⟩
      obtain ⟨range, hrange⟩ :=
        FiscalSettings.exists_periodRange_of_hasWithin hwithin (by omega) (by omega)
      exact ⟨_, bind_eq_ok_iff.mpr ⟨range, hrange, rfl⟩⟩
  | year turn =>
      have hturn := Window.distance_bounds turn
      have hinside : firstYear < year + Window.distance turn := by omega
      obtain ⟨first, last, hrange⟩ := ctx.fiscal.exists_yearRange_of_lt hinside (by omega)
      exact ⟨_, bind_eq_ok_iff.mpr ⟨year, hyear, bind_eq_ok_iff.mpr ⟨_, hrange, rfl⟩⟩⟩
  | period turn =>
      obtain ⟨current, hcurrent, hwithin⟩ := ctx.fiscal.exists_currentPeriod hearly hlate
      obtain ⟨p, hp, hbeside⟩ := exists_turned hwithin (by omega) (by omega) turn
      obtain ⟨range, hrange⟩ :=
        FiscalSettings.exists_periodRange_of_hasWithin hbeside (by omega) (by omega)
      exact ⟨_, holds_turned hcurrent hp hrange⟩

/-! ## Tests -/

/-- The test that an operator asks can be run on every key that fits the declared type. -/
theorem Operator.Asks.exists_holds {t : AttributeType} {o : Operator} {test : Test}
    {expected : Bool} (h : o.Asks ctx.fiscal (some t) test expected) (column : String) {k : Key}
    (hk : k.fits t = true) : ∃ b, test.holds ctx column k = .ok b := by
  have hinstant : Supported (some t) AttributeType.isDate →
      ∃ i, Test.instantOf column k = .ok i := by
    intro hdate
    obtain ⟨i, rfl⟩ := Key.exists_instant (hdate t rfl) hk
    exact ⟨i, rfl⟩
  have hwindow : Supported (some t) AttributeType.isDate → ∀ w,
      ∃ b, (Test.window w).holds ctx column k = .ok b := by
    intro hdate w
    obtain ⟨i, hi⟩ := hinstant hdate
    obtain ⟨b, hb⟩ := Window.exists_holds hfirst hlast w i
    exact ⟨b, bind_eq_ok_iff.mpr ⟨i, hi, hb⟩⟩
  have hfiscal : Supported (some t) AttributeType.isDate → ∀ {f : FiscalTest},
      f.InRange ctx.fiscal → ∃ b, (Test.fiscal f).holds ctx column k = .ok b := by
    intro hdate f hf
    obtain ⟨i, hi⟩ := hinstant hdate
    obtain ⟨b, hb⟩ := FiscalTest.exists_holds hfirst hlast hf i.date
    exact ⟨b, bind_eq_ok_iff.mpr ⟨i, hi, hb⟩⟩
  cases h with
  | null => exact ⟨_, rfl⟩
  | equal | among | relation | between | sharesCodes => exact ⟨_, rfl⟩
  | caller | businessUnit => exact ⟨_, rfl⟩
  | text shape holds pattern htext =>
      obtain ⟨s, rfl⟩ := Key.exists_text (htext t rfl) hk
      exact ⟨_, rfl⟩
  | on _ d hdate | onOrBefore d hdate | onOrAfter d hdate =>
      obtain ⟨i, hi⟩ := hinstant hdate
      exact ⟨_, bind_eq_ok_iff.mpr ⟨i, hi, rfl⟩⟩
  | day turn hdate => exact hwindow hdate _
  | lastSevenDays hdate | nextSevenDays hdate => exact hwindow hdate _
  | lastSpan unit count hdate | nextSpan unit count hdate | olderThan unit count hdate =>
      exact hwindow hdate _
  | calendar unit turn hdate => exact hwindow hdate _
  | inFiscalYear hdate hf | inFiscalPeriod hdate hf | fiscalPeriodAndYear hdate hf =>
      exact hfiscal hdate hf
  | fiscalYear turn hdate => exact hfiscal hdate (.year turn)
  | fiscalPeriod turn hdate => exact hfiscal hdate (.period turn)

end Reach

/-! ## Conditions -/

namespace CompiledCondition

variable {c : Condition} {column : String} {e : Entity} {ctx ctx' : Context}
  {compiled : CompiledCondition}

/-- A compiled condition reads its column as the declared type. -/
theorem keyOf_eq_error_iff (hc : c.compileFor column e ctx = .ok compiled) {row : Record}
    {failure : QueryError} : compiled.keyOf row = .error failure ↔
      ∃ t, e.typeOf? (lowercase c.name) = some t ∧
        Key.ofColumn row column (some t) = .error failure := by
  obtain ⟨-, -, test, expected, -, rfl⟩ := Condition.compileFor_eq_ok_iff.mp hc
  unfold keyOf
  cases e.typeOf? (lowercase c.name) with
  | none => simp
  | some t => simp

/-- A condition has an answer for every key that it reads. -/
theorem exists_evaluate (hc : c.compileFor column e ctx = .ok compiled)
    (hfiscal : ctx'.fiscal = ctx.fiscal) (hfirst : firstYear + 3 ≤ ctx'.today.year)
    (hlast : ctx'.today.year ≤ lastYear - 3) {row : Record} {key : Option Key}
    (hkey : compiled.keyOf row = .ok key) : ∃ answer, compiled.evaluate ctx' row = .ok answer := by
  obtain ⟨-, -, test, expected, htest, rfl⟩ := Condition.compileFor_eq_ok_iff.mp hc
  have hasks := Condition.asks_of_testOf htest
  rw [← hfiscal] at hasks
  cases key with
  | none => exact ⟨_, bind_eq_ok_iff.mpr ⟨none, hkey, rfl⟩⟩
  | some k =>
      cases hdeclared : e.typeOf? (lowercase c.name) with
      | none =>
          rw [hdeclared] at hkey
          cases hkey
      | some t =>
          rw [hdeclared] at hkey hasks
          have hfits := Key.fits_of_ofColumn hkey
          obtain ⟨b, hb⟩ := hasks.exists_holds hfirst hlast column hfits
          exact ⟨_, bind_eq_ok_iff.mpr ⟨some k, hkey, bind_eq_ok_iff.mpr ⟨b, hb, rfl⟩⟩⟩

/-- **What compiles can be evaluated.**  Three calendar years inside the calendar and with the fiscal
settings it was compiled under, a condition fails on a row if and only if the attribute is declared
and the row's value is rejected for the declared type.  It then fails as the value does. -/
theorem evaluate_error_iff (hc : c.compileFor column e ctx = .ok compiled)
    (hfiscal : ctx'.fiscal = ctx.fiscal) (hfirst : firstYear + 3 ≤ ctx'.today.year)
    (hlast : ctx'.today.year ≤ lastYear - 3) (row : Record) :
    (∀ failure, compiled.evaluate ctx' row = .error failure ↔
      ∃ t, e.typeOf? (lowercase c.name) = some t ∧
        Key.ofColumn row column (some t) = .error failure) ∧
    ∀ failure, compiled.evaluate ctx' row = .error failure →
      ∃ kind, failure = .unsupported column (.value kind) := by
  have hiff : ∀ failure, compiled.evaluate ctx' row = .error failure ↔
      ∃ t, e.typeOf? (lowercase c.name) = some t ∧
        Key.ofColumn row column (some t) = .error failure := by
    intro failure
    rw [← keyOf_eq_error_iff hc]
    cases hkey : compiled.keyOf row with
    | error failure' =>
        rw [evaluate, hkey, error_bind]
        simp
    | ok key =>
        obtain ⟨answer, hanswer⟩ := exists_evaluate hc hfiscal hfirst hlast hkey
        rw [hanswer]
        simp
  refine ⟨hiff, fun failure h => ?_⟩
  obtain ⟨t, -, hrejected⟩ := (hiff failure).mp h
  exact Key.unsupported_of_ofColumn hrejected

end CompiledCondition

namespace Sample

/-- A contact whose date of the first meeting is known. -/
def acquaintance : Entity := contact.declare "met" .dateTime

/-- The condition that the meeting falls into the next fiscal year. -/
def metNextYear : Condition := .new "met" (.fiscalYear .next) []

def compiledMet : CompiledCondition :=
  ⟨"met", some .dateTime, .fiscalYear .next, .fiscal (.year .next), true⟩

/-- The condition has an answer for a date, and fails on a text only because it is one. -/
theorem evaluate_met :
    metNextYear.compileFor "met" acquaintance ctx = .ok compiledMet ∧
      (∀ failure, compiledMet.evaluate ctx (ada.set "met" (.instant default)) ≠ .error failure) ∧
      compiledMet.evaluate ctx (ada.set "met" (.text "today")) =
        .error (.unsupported "met" (.value .string)) := by
  have hc : metNextYear.compileFor "met" acquaintance ctx = .ok compiledMet := rfl
  have hfirst : firstYear + 3 ≤ ctx.today.year := by decide +kernel
  have hlast : ctx.today.year ≤ lastYear - 3 := by decide +kernel
  refine ⟨hc, fun failure h => ?_, ?_⟩
  · obtain ⟨hiff, -⟩ := CompiledCondition.evaluate_error_iff hc rfl hfirst hlast
      (ada.set "met" (.instant default))
    obtain ⟨t, ht, hrejected⟩ := (hiff failure).mp h
    cases ht
    cases hrejected
  · obtain ⟨hiff, -⟩ := CompiledCondition.evaluate_error_iff hc rfl hfirst hlast
      (ada.set "met" (.text "today"))
    exact (hiff _).mpr ⟨.dateTime, rfl, rfl⟩

end Sample

end RecordQuery
