import RecordQuery.Proofs.Failure
import RecordQuery.Query.Compiled

/-!
# What a condition compiles to

Compiling picks a test for the operator and the answer that is asked of it.  `Operator.Asks` says
which test that may be, one case for every operator, with all that compiling has checked: the
declared type suits the operator, and the numbers of fiscal years and periods are in range.  A
compilation gives nothing else (`Condition.yieldsOnly_testOf`).

*Opposites.*  The operators of one family ask for opposite answers of one test, so with the same
literals both of them compile or neither does (`Condition.compileFor_opposite`).  The two operators
on bounds are no such family: the test itself says whether inside or outside is meant.
-/

namespace RecordQuery

open Text

/-! ## Checked types and numbers -/

/-- The declared type, if there is one, is among the supported ones. -/
def Supported (declared : Option AttributeType) (supported : AttributeType → Bool) : Prop :=
  ∀ t, declared = some t → supported t = true

theorem Condition.requireType_bind_eq_ok_iff {name : String} {declared : Option AttributeType}
    {supported : AttributeType → Bool} {f : Unit → Except QueryError β} {b : β} :
    requireType name declared supported >>= f = .ok b ↔
      Supported declared supported ∧ f () = .ok b := by
  cases declared with
  | none => simp [requireType, Supported]
  | some t =>
      by_cases ht : supported t = true
      · simp [requireType, Supported, ht]
      · simp [requireType, Supported, ht]

theorem Condition.bounds_of_fiscalYearOf {name : String} {year y : Int}
    (h : fiscalYearOf name year = .ok y) : firstYear + 1 ≤ y ∧ y ≤ lastYear - 1 := by
  unfold fiscalYearOf FiscalSettings.checkedYear? at h
  by_cases hyear : firstYear + 1 ≤ year ∧ year ≤ lastYear - 1
  · rw [if_pos hyear] at h
    cases h
    exact hyear
  · rw [if_neg hyear] at h
    cases h

theorem FiscalSettings.bounds_of_validatePeriod {s : FiscalSettings} {period : Int} {n : Nat}
    (h : s.validatePeriod period = .ok n) : 1 ≤ n ∧ n ≤ s.periods := by
  rw [validatePeriod, refuse_eq_ok_iff] at h
  obtain ⟨hgood, heq⟩ := h
  cases heq
  omega

/-- The years and periods that a fiscal test names have a place in the calendar. -/
inductive FiscalTest.InRange (s : FiscalSettings) : FiscalTest → Prop where
  | inYear {y : Int} : firstYear + 1 ≤ y → y ≤ lastYear - 1 → InRange s (.inYear y)
  | inPeriod {p : Nat} : 1 ≤ p → p ≤ s.periods → InRange s (.inPeriod p)
  | periodOfYear {bound : PeriodBound} {p : Nat} {y : Int} : 1 ≤ p → p ≤ s.periods →
      firstYear + 1 ≤ y → y ≤ lastYear - 1 → InRange s (.periodOfYear bound p y)
  | year (turn : Turn) : InRange s (.year turn)
  | period (turn : Turn) : InRange s (.period turn)

/-! ## Operators and their tests -/

/-- The operator, on an attribute of the declared type, asks for an answer of a test. -/
inductive Operator.Asks (s : FiscalSettings) (declared : Option AttributeType) :
    Operator → Test → Bool → Prop where
  | null (holds : Bool) : Asks s declared (.null holds) .null holds
  | equal (holds : Bool) (literals : List Key) :
      Asks s declared (.equal holds) (.equalsAny literals) holds
  | among (holds : Bool) (literals : List Key) :
      Asks s declared (.among holds) (.equalsAny literals) holds
  | relation (r : Relation) (literal : Key) :
      Asks s declared (.relation r) (.relation r literal) true
  | between (inside : Bool) (low high : Key) :
      Asks s declared (.between inside) (.between low high inside) true
  | sharesCodes (holds : Bool) (literals : List Key) :
      Asks s declared (.sharesCodes holds) (.sharesCodes literals) holds
  | text (shape : TextShape) (holds : Bool) (pattern : String) :
      Supported declared AttributeType.isText →
        Asks s declared (.text shape holds) (.text shape pattern) holds
  | caller (holds : Bool) : Asks s declared (.caller holds) .caller holds
  | businessUnit (holds : Bool) : Asks s declared (.businessUnit holds) .businessUnit holds
  | on (holds : Bool) (d : Date) : Supported declared AttributeType.isDate →
      Asks s declared (.on holds) (.day .on d) holds
  | onOrBefore (d : Date) : Supported declared AttributeType.isDate →
      Asks s declared .onOrBefore (.day .onOrBefore d) true
  | onOrAfter (d : Date) : Supported declared AttributeType.isDate →
      Asks s declared .onOrAfter (.day .onOrAfter d) true
  | day (turn : Turn) : Supported declared AttributeType.isDate →
      Asks s declared (.day turn) (.window (.day turn)) true
  | lastSevenDays : Supported declared AttributeType.isDate →
      Asks s declared .lastSevenDays (.window .lastSevenDays) true
  | nextSevenDays : Supported declared AttributeType.isDate →
      Asks s declared .nextSevenDays (.window .nextSevenDays) true
  | lastSpan (unit : SpanUnit) (count : Nat) : Supported declared AttributeType.isDate →
      Asks s declared (.lastSpan unit) (.window (.lastSpan unit count)) true
  | nextSpan (unit : SpanUnit) (count : Nat) : Supported declared AttributeType.isDate →
      Asks s declared (.nextSpan unit) (.window (.nextSpan unit count)) true
  | olderThan (unit : AgeUnit) (count : Nat) : Supported declared AttributeType.isDate →
      Asks s declared (.olderThan unit) (.window (.olderThan unit count)) true
  | calendar (unit : CalendarUnit) (turn : Turn) : Supported declared AttributeType.isDate →
      Asks s declared (.calendar unit turn) (.window (.calendar unit turn)) true
  | inFiscalYear {y : Int} : Supported declared AttributeType.isDate →
      FiscalTest.InRange s (.inYear y) → Asks s declared .inFiscalYear (.fiscal (.inYear y)) true
  | inFiscalPeriod {p : Nat} : Supported declared AttributeType.isDate →
      FiscalTest.InRange s (.inPeriod p) →
        Asks s declared .inFiscalPeriod (.fiscal (.inPeriod p)) true
  | fiscalPeriodAndYear {bound : PeriodBound} {p : Nat} {y : Int} :
      Supported declared AttributeType.isDate → FiscalTest.InRange s (.periodOfYear bound p y) →
        Asks s declared (.fiscalPeriodAndYear bound) (.fiscal (.periodOfYear bound p y)) true
  | fiscalYear (turn : Turn) : Supported declared AttributeType.isDate →
      Asks s declared (.fiscalYear turn) (.fiscal (.year turn)) true
  | fiscalPeriod (turn : Turn) : Supported declared AttributeType.isDate →
      Asks s declared (.fiscalPeriod turn) (.fiscal (.period turn)) true

namespace Condition

variable {ctx : Context} {name : String} {declared : Option AttributeType} {o : Operator}
  {values : List Value} {test : Test} {expected : Bool}

/-- Behind a check of the declared type, that type is supported. -/
theorem yieldsOnly_checked {P : β → Prop} {supported : AttributeType → Bool}
    {f : Unit → Except QueryError β}
    (hf : Supported declared supported → YieldsOnly P (f ())) :
    YieldsOnly P (requireType name declared supported >>= f) := by
  intro b hb
  obtain ⟨hsupported, hb⟩ := requireType_bind_eq_ok_iff.mp hb
  exact hf hsupported b hb

/-- The test that an operator is compiled to is one that the operator asks. -/
theorem yieldsOnly_testOf :
    YieldsOnly (fun p => o.Asks ctx.fiscal declared p.1 p.2)
      (testOf ctx name declared o values) := by
  simp only [testOf]
  -- one case for each branch of the definition, in its order
  split
  next => exact .ok (.null _)
  next => exact .bind fun literals _ => .ok (.equal _ literals)
  next => exact .bind fun literals _ => .ok (.among _ literals)
  next r v => exact .bind fun literal _ => .ok (.relation r literal)
  next inside low high =>
    exact .bind fun lower _ => .bind fun upper _ => .ok (.between inside lower upper)
  next => exact .bind fun literals _ => .ok (.sharesCodes _ literals)
  next shape _ v =>
    exact yieldsOnly_checked fun htext => .bind fun pattern _ => .ok (.text shape _ pattern htext)
  next v => exact yieldsOnly_checked fun hdate => .bind fun d _ => .ok (.on _ d hdate)
  next v => exact yieldsOnly_checked fun hdate => .bind fun d _ => .ok (.onOrBefore d hdate)
  next v => exact yieldsOnly_checked fun hdate => .bind fun d _ => .ok (.onOrAfter d hdate)
  next unit v =>
    exact yieldsOnly_checked fun hdate => .bind fun count _ => .ok (.lastSpan unit count hdate)
  next unit v =>
    exact yieldsOnly_checked fun hdate => .bind fun count _ => .ok (.nextSpan unit count hdate)
  next unit v =>
    exact yieldsOnly_checked fun hdate => .bind fun count _ => .ok (.olderThan unit count hdate)
  next turn => exact yieldsOnly_checked fun hdate => .ok (.day turn hdate)
  next => exact yieldsOnly_checked fun hdate => .ok (.lastSevenDays hdate)
  next => exact yieldsOnly_checked fun hdate => .ok (.nextSevenDays hdate)
  next unit turn => exact yieldsOnly_checked fun hdate => .ok (.calendar unit turn hdate)
  next => exact yieldsOnly_checked fun _ => .ok (.caller _)
  next => exact yieldsOnly_checked fun _ => .ok (.businessUnit _)
  next v =>
    refine yieldsOnly_checked fun hdate => .bind fun _ _ => .bind fun y hy => .ok ?_
    obtain ⟨hlow, hhigh⟩ := bounds_of_fiscalYearOf hy
    exact .inFiscalYear hdate (.inYear hlow hhigh)
  next v =>
    refine yieldsOnly_checked fun hdate => .bind fun _ _ => .bind fun p hp => .ok ?_
    obtain ⟨hpos, hmax⟩ := FiscalSettings.bounds_of_validatePeriod hp
    exact .inFiscalPeriod hdate (.inPeriod hpos hmax)
  next bound v w =>
    refine yieldsOnly_checked fun hdate => .bind fun _ _ => .bind fun _ _ =>
      .bind fun p hp => .bind fun y hy => .ok ?_
    obtain ⟨hpos, hmax⟩ := FiscalSettings.bounds_of_validatePeriod hp
    obtain ⟨hlow, hhigh⟩ := bounds_of_fiscalYearOf hy
    exact .fiscalPeriodAndYear hdate (.periodOfYear hpos hmax hlow hhigh)
  next turn => exact yieldsOnly_checked fun hdate => .ok (.fiscalYear turn hdate)
  next turn => exact yieldsOnly_checked fun hdate => .ok (.fiscalPeriod turn hdate)
  next => exact .error _

theorem asks_of_testOf (h : testOf ctx name declared o values = .ok (test, expected)) :
    o.Asks ctx.fiscal declared test expected :=
  yieldsOnly_testOf _ h

/-- A condition compiles where its literals are of the right number, strict mode lets the attribute
pass, and the operator has a test. -/
theorem compileFor_eq_ok_iff {c : Condition} {column : String} {e : Entity}
    {compiled : CompiledCondition} :
    c.compileFor column e ctx = .ok compiled ↔
      c.operator.arity.accepts c.values.length = true ∧
      ((e.typeOf? (lowercase c.name)).isNone && ctx.strict) = false ∧
      ∃ test expected, testOf ctx (lowercase c.name) (e.typeOf? (lowercase c.name)) c.operator
          c.values = .ok (test, expected) ∧
        compiled = ⟨column, e.typeOf? (lowercase c.name), c.operator, test, expected⟩ := by
  simp only [compileFor, throw_bind, refuse_eq_ok_iff, bind_eq_ok_iff, Prod.exists, pure_eq_ok,
    Except.ok.injEq, Bool.not_eq_true, Bool.not_eq_false', eq_comm (b := compiled)]

end Condition

/-! ## Opposite operators -/

/-- Two operators ask for opposite answers of one test. -/
inductive Operator.Opposite : Operator → Operator → Prop where
  | null (holds : Bool) : Opposite (.null holds) (.null !holds)
  | equal (holds : Bool) : Opposite (.equal holds) (.equal !holds)
  | among (holds : Bool) : Opposite (.among holds) (.among !holds)
  | text (shape : TextShape) (holds : Bool) : Opposite (.text shape holds) (.text shape !holds)
  | sharesCodes (holds : Bool) : Opposite (.sharesCodes holds) (.sharesCodes !holds)
  | caller (holds : Bool) : Opposite (.caller holds) (.caller !holds)
  | businessUnit (holds : Bool) : Opposite (.businessUnit holds) (.businessUnit !holds)
  | on (holds : Bool) : Opposite (.on holds) (.on !holds)

theorem Operator.Opposite.arity_eq {o o' : Operator} (h : o.Opposite o') : o'.arity = o.arity := by
  cases h <;> rfl

namespace Condition

variable {ctx : Context} {name : String} {declared : Option AttributeType} {o o' : Operator}
  {values : List Value} {test : Test} {expected : Bool}

/-- With the same literals the opposite operator is compiled to the same test. -/
theorem testOf_opposite (ho : o.Opposite o')
    (h : testOf ctx name declared o values = .ok (test, expected)) :
    testOf ctx name declared o' values = .ok (test, !expected) := by
  -- both read the same, and only what they ask of the test differs
  have hasks : ∀ {t : Test} {holds : Bool},
      (.ok (t, holds) : Except QueryError (Test × Bool)) = .ok (test, expected) →
        (.ok (t, !holds) : Except QueryError (Test × Bool)) = .ok (test, !expected) := by
    rintro t holds ⟨⟩
    rfl
  cases ho with
  | null holds => exact hasks h
  | equal holds => exact bind_imp_bind (fun _ => hasks) h
  | among holds => exact bind_imp_bind (fun _ => hasks) h
  | sharesCodes holds => exact bind_imp_bind (fun _ => hasks) h
  | caller holds => exact bind_imp_bind (fun _ => hasks) h
  | businessUnit holds => exact bind_imp_bind (fun _ => hasks) h
  | text shape holds =>
      match values, h with
      | [v], h => exact bind_imp_bind (fun _ => bind_imp_bind fun _ => hasks) h
  | on holds =>
      match values, h with
      | [v], h => exact bind_imp_bind (fun _ => bind_imp_bind fun _ => hasks) h

theorem compileFor_opposite {c : Condition} {column : String} {e : Entity}
    {compiled : CompiledCondition} (ho : c.operator.Opposite o')
    (h : c.compileFor column e ctx = .ok compiled) :
    Condition.compileFor { c with operator := o' } column e ctx =
      .ok { compiled with operator := o', expected := !compiled.expected } := by
  obtain ⟨harity, hstrict, test, expected, htest, rfl⟩ := compileFor_eq_ok_iff.mp h
  rw [← ho.arity_eq] at harity
  exact compileFor_eq_ok_iff.mpr ⟨harity, hstrict, test, !expected, testOf_opposite ho htest, rfl⟩

end Condition

end RecordQuery
