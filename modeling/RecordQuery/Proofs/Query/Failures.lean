import RecordQuery.Proofs.Failure
import RecordQuery.Query.Scope

/-!
# Why conditions fail

A condition fails, when it is compiled or when it is evaluated, for a reason that has to do with
what it names, its literals, the value of a row or the calendar (`QueryError.OfCondition`).  It
never fails for a reason that other parts of a query have: a missing entity type, a link or an order
that is out of place, a page or a cookie.

*Compiling.*  The literals are refused with the attribute, fiscal years and periods are checked
against the calendar and the settings (`Condition.failsOnly_compileIn`).

*Evaluating.*  A stored value may have no key, and a window or a fiscal year may leave the calendar
(`CompiledCondition.failsOnly_evaluate`).  A filter fails as one of its conditions does.
-/

namespace RecordQuery

open Text

/-- The failure is of a kind that a condition may have. -/
inductive QueryError.OfCondition : QueryError → Prop where
  | unknownAttribute (entity name : String) : OfCondition (.unknownAttribute entity name)
  | unsupported (name : String) (offender : Offender) : OfCondition (.unsupported name offender)
  | fiscalPeriod (period : Int) (periods : Nat) : OfCondition (.fiscalPeriod period periods)
  | calendarOverflow : OfCondition .calendarOverflow
  | fiscalYear (year : Int) : OfCondition (.malformed (.fiscalYear year))
  | arity (o : Operator) (name : String) (count : Nat) :
      OfCondition (.malformed (.arity o name count))
  | negativeCount (o : Operator) (name : String) (count : Int) :
      OfCondition (.malformed (.negativeCount o name count))
  | unknownAlias (name aliasName : String) :
      OfCondition (.malformed (.unknownConditionAlias name aliasName))

open QueryError (OfCondition)

/-! ## Literals -/

namespace Key

theorem failsOnly_orRefuse (name : String) (v : Value) (found : Option α) :
    FailsOnly OfCondition (orRefuse name v found) := by
  cases found with
  | none => exact .error (.unsupported ..)
  | some a => exact .ok a

theorem failsOnly_decimalOfDouble (name : String) (d : Double) :
    FailsOnly OfCondition (decimalOfDouble name d) := by
  unfold decimalOfDouble
  split
  next x _ => exact .ok x
  next => exact .error (.unsupported ..)

theorem failsOnly_ofValue (name : String) (v : Value) :
    FailsOnly OfCondition (ofValue name v) := by
  unfold ofValue
  split
  case h_5 d _ => exact (failsOnly_decimalOfDouble name d).map _
  case h_15 => exact .error (.unsupported ..)
  all_goals exact .ok _

theorem failsOnly_numberLiteral (name : String) (v : Value) :
    FailsOnly OfCondition (numberLiteral name v) := by
  unfold numberLiteral
  split
  case h_3 d => exact failsOnly_decimalOfDouble name d
  case h_7 s => exact failsOnly_orRefuse name _ _
  case h_8 => exact .error (.unsupported ..)
  all_goals exact .ok _

theorem failsOnly_ofTypedLiteral (name : String) (t : AttributeType) (v : Value) :
    FailsOnly OfCondition (ofTypedLiteral name t v) := by
  have hnumber := (failsOnly_numberLiteral name v).map Key.number
  cases t with
  | integer | bigInt | double | decimal | money | picklist | state | status => exact hnumber
  | boolean | string | memo | dateTime => exact (failsOnly_orRefuse name v _).map _
  | uniqueIdentifier | lookup | customer | owner => exact (failsOnly_orRefuse name v _).map _
  | multiSelect =>
      cases v with
      | options cs => exact .ok _
      | _ => exact hnumber
  | binary =>
      cases v with
      | bytes bs => exact .ok _
      | _ => exact .error (.unsupported ..)
  | partyList => exact .error (.unsupported ..)

theorem failsOnly_ofLiteral (name : String) (declared : Option AttributeType) (v : Value) :
    FailsOnly OfCondition (ofLiteral name declared v) := by
  cases declared with
  | none => exact (failsOnly_ofValue name v).bind fun _ => failsOnly_orRefuse name _ _
  | some t => exact failsOnly_ofTypedLiteral name t _

end Key

theorem failsOnly_wholeLiteral (name : String) (v : Value) :
    FailsOnly OfCondition (wholeLiteral name v) := by
  unfold wholeLiteral
  split
  · exact Key.failsOnly_orRefuse name _ _
  · exact Key.failsOnly_orRefuse name _ _

theorem FiscalSettings.failsOnly_validatePeriod (s : FiscalSettings) (period : Int) :
    FailsOnly OfCondition (s.validatePeriod period) :=
  .ite (.error (.fiscalPeriod ..)) (.ok _)

/-! ## Compiling -/

namespace Condition

theorem failsOnly_requireType (name : String) (declared : Option AttributeType)
    (supported : AttributeType → Bool) :
    FailsOnly OfCondition (requireType name declared supported) := by
  cases declared with
  | none => exact .ok ()
  | some t => exact .ite (.ok ()) (.error (.unsupported ..))

theorem failsOnly_dayLiteral (name : String) (v : Value) :
    FailsOnly OfCondition (dayLiteral name v) :=
  (Key.failsOnly_orRefuse name _ _).map _

theorem failsOnly_countLiteral (name : String) (o : Operator) (v : Value) :
    FailsOnly OfCondition (countLiteral name o v) :=
  (failsOnly_wholeLiteral name v).bind fun _ => .ite (.ok _) (.error (.negativeCount ..))

theorem failsOnly_fiscalYearOf (name : String) (year : Int) :
    FailsOnly OfCondition (fiscalYearOf name year) := by
  unfold fiscalYearOf
  split
  next y _ => exact .ok y
  next => exact .error (.unsupported ..)

theorem failsOnly_testOf (ctx : Context) (name : String) (declared : Option AttributeType)
    (o : Operator) (values : List Value) :
    FailsOnly OfCondition (testOf ctx name declared o values) := by
  have hliteral := Key.failsOnly_ofLiteral name declared
  have hliterals := FailsOnly.mapM hliteral values
  have hdated := failsOnly_requireType name declared AttributeType.isDate
  have hidentifier := failsOnly_requireType name declared AttributeType.isIdentifier
  simp only [testOf]
  -- one case for each branch of the definition, in its order
  split
  next => exact .ok _
  next => exact hliterals.bind fun _ => .ok _
  next => exact hliterals.bind fun _ => .ok _
  next v => exact (hliteral v).bind fun _ => .ok _
  next low high => exact (hliteral low).bind fun _ => (hliteral high).bind fun _ => .ok _
  next => exact hliterals.bind fun _ => .ok _
  next v =>
    exact (failsOnly_requireType name declared _).bind fun _ =>
      (Key.failsOnly_orRefuse name v v.text?).bind fun _ => .ok _
  next v => exact hdated.bind fun _ => (failsOnly_dayLiteral name v).bind fun _ => .ok _
  next v => exact hdated.bind fun _ => (failsOnly_dayLiteral name v).bind fun _ => .ok _
  next v => exact hdated.bind fun _ => (failsOnly_dayLiteral name v).bind fun _ => .ok _
  next v => exact hdated.bind fun _ => (failsOnly_countLiteral name _ v).bind fun _ => .ok _
  next v => exact hdated.bind fun _ => (failsOnly_countLiteral name _ v).bind fun _ => .ok _
  next v => exact hdated.bind fun _ => (failsOnly_countLiteral name _ v).bind fun _ => .ok _
  next => exact hdated.bind fun _ => .ok _
  next => exact hdated.bind fun _ => .ok _
  next => exact hdated.bind fun _ => .ok _
  next => exact hdated.bind fun _ => .ok _
  next => exact hidentifier.bind fun _ => .ok _
  next => exact hidentifier.bind fun _ => .ok _
  next v =>
    exact hdated.bind fun _ => (failsOnly_wholeLiteral name v).bind fun year =>
      (failsOnly_fiscalYearOf name year).bind fun _ => .ok _
  next v =>
    exact hdated.bind fun _ => (failsOnly_wholeLiteral name v).bind fun period =>
      (ctx.fiscal.failsOnly_validatePeriod period).bind fun _ => .ok _
  next p y =>
    exact hdated.bind fun _ => (failsOnly_wholeLiteral name p).bind fun period =>
      (failsOnly_wholeLiteral name y).bind fun year =>
        (ctx.fiscal.failsOnly_validatePeriod period).bind fun _ =>
          (failsOnly_fiscalYearOf name year).bind fun _ => .ok _
  next => exact hdated.bind fun _ => .ok _
  next => exact hdated.bind fun _ => .ok _
  next => exact .error (.arity ..)

theorem failsOnly_compileFor (c : Condition) (column : String) (e : Entity) (ctx : Context) :
    FailsOnly OfCondition (c.compileFor column e ctx) := by
  simp only [compileFor, throw_bind]
  refine .ite (.error (.arity ..)) (.ite (.error (.unknownAttribute ..)) ?_)
  exact (failsOnly_testOf _ _ _ _ _).bind fun _ => .ok _

/-- A condition fails to compile for a reason of its own. -/
theorem failsOnly_compileIn (c : Condition) (s : Scope) (ctx : Context) :
    FailsOnly OfCondition (c.compileIn s ctx) := by
  unfold compileIn
  split
  next column e _ => exact failsOnly_compileFor c column e ctx
  next => exact .error (.unknownAlias ..)

end Condition

/-! ## Evaluating -/

theorem Date.failsOnly_step (d : Date) (n : Int) : FailsOnly OfCondition (d.step n) := by
  unfold step
  split
  next later _ => exact .ok later
  next => exact .error .calendarOverflow

theorem Instant.failsOnly_step (i : Instant) (n : Int) : FailsOnly OfCondition (i.step n) := by
  unfold step
  split
  next later _ => exact .ok later
  next => exact .error .calendarOverflow

theorem Window.failsOnly_holds (ctx : Context) (w : Window) (t : Instant) :
    FailsOnly OfCondition (w.holds ctx t) := by
  cases w with
  | day turn =>
      exact (ctx.today.failsOnly_step _).bind fun _ =>
        (ctx.today.failsOnly_step _).bind fun _ => .ok _
  | lastSevenDays => exact (ctx.now.failsOnly_step _).bind fun _ => .ok _
  | nextSevenDays => exact .ite ((ctx.now.failsOnly_step 7).bind fun _ => .ok _) (.ok false)
  | lastSpan unit count => exact .ok _
  | nextSpan unit count => exact .ok _
  | olderThan unit count => exact .ok _
  | calendar unit turn =>
      cases unit with
      | week =>
          exact (ctx.today.failsOnly_step _).bind fun start =>
            (start.failsOnly_step _).bind fun first => (first.failsOnly_step 7).bind fun _ => .ok _
      | month => exact .ok _
      | year => exact .ok _

namespace FiscalSettings

variable (s : FiscalSettings)

theorem failsOnly_stepYear (year delta : Int) : FailsOnly OfCondition (stepYear year delta) :=
  .ite (.ok _) (.error (.fiscalYear year))

theorem failsOnly_yearStart (year : Int) : FailsOnly OfCondition (s.yearStart year) := by
  unfold yearStart
  split
  next d _ => exact .ok d
  next => exact .error (.fiscalYear year)

theorem failsOnly_yearRange (year : Int) : FailsOnly OfCondition (s.yearRange year) := by
  refine (s.failsOnly_yearStart year).bind fun first => ?_
  split
  next last => exact .ok _
  next => exact .error (.fiscalYear year)

theorem failsOnly_currentYear (today : Date) : FailsOnly OfCondition (s.currentYear today) := by
  have hrest : ∀ year, FailsOnly OfCondition (do
      let next ← s.yearStart (year + 1)
      if next ≤ today then do
        let _ ← s.yearStart (year + 2)
        return year + 1
      else return year) := fun year =>
    (s.failsOnly_yearStart _).bind fun _ =>
      .ite ((s.failsOnly_yearStart _).bind fun _ => .ok _) (.ok year)
  exact (s.failsOnly_yearStart _).bind fun _ =>
    .ite ((s.failsOnly_yearStart _).bind fun _ => hrest _) (hrest _)

theorem failsOnly_periodDays (year : Int) : FailsOnly OfCondition (s.periodDays year) :=
  (s.failsOnly_yearRange year).bind fun _ => .ok _

theorem failsOnly_periodRange (year : Int) (period : Nat) :
    FailsOnly OfCondition (s.periodRange year period) := by
  refine (s.failsOnly_validatePeriod period).bind fun p =>
    (s.failsOnly_yearRange year).bind fun range => (s.failsOnly_periodDays year).bind fun length =>
      (range.1.failsOnly_step _).bind fun first => ?_
  exact .ite (.ok _) ((range.1.failsOnly_step _).bind fun _ => .ok _)

theorem failsOnly_currentPeriod (today : Date) : FailsOnly OfCondition (s.currentPeriod today) :=
  (s.failsOnly_currentYear today).bind fun year => (s.failsOnly_yearStart year).bind fun _ =>
    (s.failsOnly_periodDays year).bind fun _ => .ok _

theorem failsOnly_previousPeriod (p : FiscalPeriod) :
    FailsOnly OfCondition (s.previousPeriod p) :=
  .ite ((failsOnly_stepYear _ _).map _) (.ok _)

theorem failsOnly_nextPeriod (p : FiscalPeriod) : FailsOnly OfCondition (s.nextPeriod p) :=
  .ite ((failsOnly_stepYear _ _).map _) (.ok _)

end FiscalSettings

theorem FiscalTest.failsOnly_holds (ctx : Context) (f : FiscalTest) (d : Date) :
    FailsOnly OfCondition (f.holds ctx d) := by
  have hperiod := fun p : FiscalPeriod => ctx.fiscal.failsOnly_periodRange p.year p.period
  cases f with
  | inYear y => exact (ctx.fiscal.failsOnly_yearRange y).bind fun _ => .ok _
  | inPeriod p =>
      exact (ctx.fiscal.failsOnly_currentYear _).bind fun y => (hperiod ⟨y, p⟩).bind fun _ => .ok _
  | periodOfYear bound p y => exact (hperiod ⟨y, p⟩).bind fun _ => .ok _
  | year turn =>
      exact (ctx.fiscal.failsOnly_currentYear _).bind fun _ =>
        (ctx.fiscal.failsOnly_yearRange _).bind fun _ => .ok _
  | period turn =>
      refine (ctx.fiscal.failsOnly_currentPeriod _).bind fun current => ?_
      cases turn with
      | last =>
          exact (ctx.fiscal.failsOnly_previousPeriod current).bind fun p =>
            (hperiod p).bind fun _ => .ok _
      | this => exact (hperiod current).bind fun _ => .ok _
      | next =>
          exact (ctx.fiscal.failsOnly_nextPeriod current).bind fun p =>
            (hperiod p).bind fun _ => .ok _

theorem Test.failsOnly_instantOf (column : String) (k : Key) :
    FailsOnly OfCondition (instantOf column k) := by
  unfold instantOf
  split
  next t _ => exact .ok t
  next => exact .error (.unsupported ..)

theorem Test.failsOnly_holds (ctx : Context) (column : String) (t : Test) (k : Key) :
    FailsOnly OfCondition (t.holds ctx column k) := by
  have hinstant := failsOnly_instantOf column k
  cases t with
  | text shape pattern =>
      cases k with
      | text s => exact .ok _
      | _ => exact .error (.unsupported ..)
  | day r d => exact hinstant.bind fun _ => .ok _
  | window w => exact hinstant.bind fun i => w.failsOnly_holds ctx i
  | fiscal f => exact hinstant.bind fun i => f.failsOnly_holds ctx i.date
  | _ => exact .ok _

theorem Key.failsOnly_ofColumn (row : Record) (column : String) (declared : Option AttributeType) :
    FailsOnly OfCondition (ofColumn row column declared) := by
  unfold ofColumn
  split
  next v _ =>
    refine (failsOnly_ofValue column v).bind fun key => ?_
    cases key with
    | none => exact .ok none
    | some k =>
        cases declared with
        | none => exact .ok _
        | some t => exact .ite (.ok _) (.error (.unsupported ..))
  next => exact .ok none

namespace CompiledCondition

/-- A condition fails on a row for a reason of its own. -/
theorem failsOnly_evaluate (c : CompiledCondition) (ctx : Context) (row : Record) :
    FailsOnly OfCondition (c.evaluate ctx row) := by
  have hkey : FailsOnly OfCondition (c.keyOf row) := by
    unfold keyOf
    split
    next t _ => exact Key.failsOnly_ofColumn row c.column (some t)
    next => exact .ok none
  refine hkey.bind fun key => ?_
  cases key with
  | none => exact .ok _
  | some k => exact (Test.failsOnly_holds ctx c.column c.test k).bind fun _ => .ok _

end CompiledCondition

/-! ## Filters -/

namespace Filter

section

variable {P : ε → Prop} {f : α → Except ε β} {test : α → Except ε Bool}

mutual

theorem failsOnly_mapM (hf : ∀ a, FailsOnly P (f a)) : ∀ g : Filter α, FailsOnly P (g.mapM f)
  | .node _ cs fs =>
      (FailsOnly.mapM hf cs).bind fun _ => (failsOnly_mapAllM hf fs).bind fun _ => .ok _

theorem failsOnly_mapAllM (hf : ∀ a, FailsOnly P (f a)) : ∀ gs : List (Filter α),
    FailsOnly P (mapAllM f gs)
  | [] => .ok []
  | g :: gs => (failsOnly_mapM hf g).bind fun _ => (failsOnly_mapAllM hf gs).bind fun _ => .ok _

end

theorem failsOnly_reaches (htest : ∀ a, FailsOnly P (test a)) (answer : Bool) (cs : List α) :
    FailsOnly P (reaches answer test cs) := by
  induction cs with
  | nil => exact .ok false
  | cons c cs ih => exact (htest c).bind fun _ => .ite (.ok true) ih

mutual

theorem failsOnly_holds (htest : ∀ a, FailsOnly P (test a)) : ∀ g : Filter α,
    FailsOnly P (g.holds test)
  | .node c cs fs => by
      rw [holds]
      refine .ite (.ok true) ((failsOnly_reaches htest _ cs).bind fun _ => .ite (.ok _) ?_)
      exact (failsOnly_nestedReach htest _ fs).bind fun _ => .ite (.ok _) (.ok _)

theorem failsOnly_nestedReach (htest : ∀ a, FailsOnly P (test a)) (answer : Bool) :
    ∀ gs : List (Filter α), FailsOnly P (nestedReach answer test gs)
  | [] => .ok false
  | g :: gs => by
      rw [nestedReach]
      have hrest := failsOnly_nestedReach htest answer gs
      exact .ite hrest ((failsOnly_holds htest g).bind fun _ => .ite (.ok true) hrest)

end

end

theorem failsOnly_compile (f : Filter Condition) (s : Scope) (ctx : Context) :
    FailsOnly OfCondition (f.compile s ctx) :=
  f.failsOnly_mapM fun c => c.failsOnly_compileIn s ctx

theorem failsOnly_evaluate (f : Filter CompiledCondition) (ctx : Context) (row : Record) :
    FailsOnly OfCondition (f.evaluate ctx row) :=
  f.failsOnly_holds fun c => c.failsOnly_evaluate ctx row

end Filter

end RecordQuery
