import RecordQuery.Proofs.Calendar.FiscalPeriod
import RecordQuery.Proofs.Query.Answer
import RecordQuery.Proofs.Query.Evaluation

/-!
# Compiled conditions hold nothing of the context

Compiling looks at the context twice: strict mode may refuse the attribute, and the fiscal template
may have no period of the number that a literal names.  What it looks at decides whether there is a
compiled condition, and leaves no trace in it (`CompiledCondition.ContextFree`).

*Templates.*  A test that was compiled under some template is compiled under every other one that
has its period (`Condition.testOf_of_inRange`).  The template with most periods has them all, so the
tests of two contexts are both compiled under that one and are the same (`Condition.testOf_unique`).

*Evaluating.*  The clock, the caller, the week and the fiscal calendar are read when a row is
tested.  So a condition that was compiled once answers under a later context as if it were compiled
there.
-/

namespace RecordQuery

open Text

/-! ## Fiscal templates -/

namespace FiscalSettings

/-- A period number is kept as it is. -/
theorem validatePeriod_eq_ok_iff_int {s : FiscalSettings} {period : Int} {n : Nat} :
    s.validatePeriod period = .ok n ↔ (n : Int) = period ∧ 1 ≤ n ∧ n ≤ s.periods := by
  rw [validatePeriod, refuse_eq_ok_iff, Except.ok.injEq]
  omega

/-- Some template, and it has as many periods as any. -/
def finest : FiscalSettings := { calendarYears with template := .fourWeek }

theorem periods_le_finest (s : FiscalSettings) : s.periods ≤ finest.periods := s.periods_bounds.2

end FiscalSettings

theorem FiscalTest.InRange.mono {s s' : FiscalSettings} {f : FiscalTest} (h : f.InRange s)
    (hperiods : s.periods ≤ s'.periods) : f.InRange s' := by
  cases h with
  | inYear hlow hhigh => exact .inYear hlow hhigh
  | inPeriod hpos hmax => exact .inPeriod hpos (Nat.le_trans hmax hperiods)
  | periodOfYear hpos hmax hlow hhigh =>
      exact .periodOfYear hpos (Nat.le_trans hmax hperiods) hlow hhigh
  | year turn => exact .year turn
  | period turn => exact .period turn

/-- A fiscal test that an operator asks is in range. -/
theorem Operator.Asks.inRange {s : FiscalSettings} {declared : Option AttributeType} {o : Operator}
    {f : FiscalTest} {expected : Bool} (h : o.Asks s declared (.fiscal f) expected) :
    f.InRange s := by
  cases h with
  | inFiscalYear _ hf | inFiscalPeriod _ hf | fiscalPeriodAndYear _ hf => exact hf
  | fiscalYear turn => exact .year turn
  | fiscalPeriod turn => exact .period turn

/-! ## Tests -/

namespace Condition

variable {ctx ctx' : Context} {name : String} {declared : Option AttributeType} {o : Operator}
  {values : List Value} {test test' : Test} {expected expected' : Bool}

/-- A test is compiled under every context whose template has its period. -/
theorem testOf_of_inRange (h : testOf ctx name declared o values = .ok (test, expected))
    (hrange : ∀ f, test = .fiscal f → f.InRange ctx'.fiscal) :
    testOf ctx' name declared o values = .ok (test, expected) := by
  cases o with
  | inFiscalPeriod =>
      match values, h with
      | [v], h =>
          refine bind_imp_bind (fun _ => bind_imp_bind fun n h => ?_) h
          obtain ⟨p, hp, h⟩ := bind_eq_ok_iff.mp h
          cases h
          obtain ⟨hvalue, -⟩ := FiscalSettings.validatePeriod_eq_ok_iff_int.mp hp
          cases hrange _ rfl with
          | inPeriod hpos hmax =>
              have hp' := FiscalSettings.validatePeriod_eq_ok_iff_int.mpr ⟨hvalue, hpos, hmax⟩
              exact bind_eq_ok_iff.mpr ⟨p, hp', rfl⟩
  | fiscalPeriodAndYear bound =>
      match values, h with
      | [v, w], h =>
          refine bind_imp_bind (fun _ => bind_imp_bind fun m => bind_imp_bind fun n h => ?_) h
          obtain ⟨p, hp, h⟩ := bind_eq_ok_iff.mp h
          obtain ⟨y, hy, h⟩ := bind_eq_ok_iff.mp h
          cases h
          obtain ⟨hvalue, -⟩ := FiscalSettings.validatePeriod_eq_ok_iff_int.mp hp
          cases hrange _ rfl with
          | periodOfYear hpos hmax hlow hhigh =>
              have hp' := FiscalSettings.validatePeriod_eq_ok_iff_int.mpr ⟨hvalue, hpos, hmax⟩
              exact bind_eq_ok_iff.mpr ⟨p, hp', bind_eq_ok_iff.mpr ⟨y, hy, rfl⟩⟩
  -- no other operator reads the context; those with literals also look at how many there are
  | relation | between | text | on | onOrBefore | onOrAfter | lastSpan | nextSpan | olderThan
  | inFiscalYear =>
      obtain _ | ⟨v, _ | ⟨w, _ | ⟨x, rest⟩⟩⟩ := values <;> exact h
  | _ => exact h

/-- The contexts under which an operator is compiled do not make a difference to its test. -/
theorem testOf_unique (h : testOf ctx name declared o values = .ok (test, expected))
    (h' : testOf ctx' name declared o values = .ok (test', expected')) :
    test' = test ∧ expected' = expected := by
  have hfinest : ∀ {ctx : Context} {test expected},
      testOf ctx name declared o values = .ok (test, expected) →
      testOf { ctx' with fiscal := .finest } name declared o values = .ok (test, expected) := by
    intro ctx test expected h
    refine testOf_of_inRange h ?_
    rintro f rfl
    exact (asks_of_testOf h).inRange.mono ctx.fiscal.periods_le_finest
  cases (hfinest h).symm.trans (hfinest h')
  exact ⟨rfl, rfl⟩

end Condition

/-! ## Compiled conditions -/

/-- The context lets a compiled condition pass: strict mode asks that the attribute is declared, and
a period that the condition names must be one of the template. -/
structure Context.Admits (ctx : Context) (compiled : CompiledCondition) : Prop where
  declared : ctx.strict = true → compiled.declared ≠ none
  inRange : ∀ f, compiled.test = .fiscal f → f.InRange ctx.fiscal

/-- The compiled form of a condition, whatever context it is compiled under. -/
structure CompiledCondition.ContextFree (compiled : CompiledCondition) (c : Condition)
    (column : String) (e : Entity) : Prop where
  /-- No context leads to another compiled form. -/
  unique : ∀ (ctx : Context) (compiled' : CompiledCondition),
    c.compileFor column e ctx = .ok compiled' → compiled' = compiled
  /-- The contexts that lead to this one. -/
  compiled_iff : ∀ ctx : Context, c.compileFor column e ctx = .ok compiled ↔ ctx.Admits compiled
  /-- Under each of these contexts, rows are answered as if the condition were compiled there. -/
  answers : ∀ (ctx : Context) (row : Record), ctx.Admits compiled →
    compiled.evaluate ctx row = c.answer column e ctx ctx row

section Compiled

variable {c : Condition} {column : String} {e : Entity} {ctx ctx' : Context}
  {compiled : CompiledCondition}

theorem Condition.admits_of_compileFor (h : c.compileFor column e ctx = .ok compiled) :
    ctx.Admits compiled := by
  obtain ⟨-, hstrict, test, expected, htest, rfl⟩ := compileFor_eq_ok_iff.mp h
  constructor
  case declared =>
    intro hctx (hnone : e.typeOf? (lowercase c.name) = none)
    rw [hnone, hctx] at hstrict
    cases hstrict
  case inRange =>
    rintro f rfl
    exact (asks_of_testOf htest).inRange

theorem Condition.compileFor_of_admits (h : c.compileFor column e ctx = .ok compiled)
    (hadmits : ctx'.Admits compiled) : c.compileFor column e ctx' = .ok compiled := by
  obtain ⟨harity, -, test, expected, htest, rfl⟩ := compileFor_eq_ok_iff.mp h
  refine compileFor_eq_ok_iff.mpr ⟨harity, ?_, test, expected,
    testOf_of_inRange htest hadmits.inRange, rfl⟩
  rw [Bool.and_eq_false_iff, Option.isNone_eq_false_iff, Option.isSome_iff_ne_none]
  by_cases hstrict : ctx'.strict = true
  · exact .inl (hadmits.declared hstrict)
  · exact .inr (Bool.eq_false_iff.mpr hstrict)

/-- **Nothing of the context is captured.**  A condition that compiles has one compiled form, which
answers under every context that admits it as the condition does when it is compiled there. -/
theorem compiled_contextFree (h : c.compileFor column e ctx = .ok compiled) :
    compiled.ContextFree c column e := by
  have hcompiled : ∀ {ctx' : Context}, ctx'.Admits compiled →
      c.compileFor column e ctx' = .ok compiled := Condition.compileFor_of_admits h
  constructor
  case unique =>
    intro ctx' compiled' h'
    obtain ⟨-, -, test, expected, htest, rfl⟩ := Condition.compileFor_eq_ok_iff.mp h
    obtain ⟨-, -, test', expected', htest', rfl⟩ := Condition.compileFor_eq_ok_iff.mp h'
    obtain ⟨rfl, rfl⟩ := Condition.testOf_unique htest htest'
    rfl
  case compiled_iff => exact fun ctx' => ⟨Condition.admits_of_compileFor, hcompiled⟩
  case answers =>
    intro ctx' row hadmits
    rw [Condition.answer, hcompiled hadmits, ok_bind]

end Compiled

namespace Sample

/-- The condition that the meeting falls into the third fiscal period of the current year. -/
def metInThird : Condition := .new "met" .inFiscalPeriod [.int 3]

def compiledMetInThird : CompiledCondition :=
  ⟨"met", some .dateTime, .inFiscalPeriod, .fiscal (.inPeriod 3), true⟩

/-- The fiscal year has a number of periods. -/
def dividedCtx (template : FiscalTemplate) : Context :=
  { ctx with fiscal := { FiscalSettings.calendarYears with template := template } }

/-- The condition is compiled for quarters and then asked for months, where the third period ends
earlier; an undivided year has no third period. -/
theorem compiled_contextFree_met :
    metInThird.compileFor "met" acquaintance (dividedCtx .quarterly) = .ok compiledMetInThird ∧
      compiledMetInThird.ContextFree metInThird "met" acquaintance ∧
      compiledMetInThird.evaluate (dividedCtx .monthly) (ada.set "met" (.instant default)) =
        metInThird.answer "met" acquaintance (dividedCtx .monthly) (dividedCtx .monthly)
          (ada.set "met" (.instant default)) ∧
      ¬(dividedCtx .annual).Admits compiledMetInThird := by
  have hcompiled : metInThird.compileFor "met" acquaintance (dividedCtx .quarterly) =
      .ok compiledMetInThird := rfl
  have hfree : compiledMetInThird.ContextFree metInThird "met" acquaintance :=
    compiled_contextFree hcompiled
  have hmonthly : metInThird.compileFor "met" acquaintance (dividedCtx .monthly) =
      .ok compiledMetInThird := rfl
  have hannual : metInThird.compileFor "met" acquaintance (dividedCtx .annual) =
      .error (.fiscalPeriod 3 1) := rfl
  refine ⟨hcompiled, hfree, hfree.answers _ _ ((hfree.compiled_iff _).mp hmonthly), ?_⟩
  intro hadmits
  rw [← hfree.compiled_iff, hannual] at hadmits
  cases hadmits

end Sample

end RecordQuery
