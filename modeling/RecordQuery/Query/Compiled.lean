import RecordQuery.Query.Condition
import RecordQuery.Query.Literal
import RecordQuery.Query.Test
import RecordQuery.Schema.Entity

/-!
# Compiled conditions

Compiling a condition checks it against the entity type whose attribute it tests: the number of
its literals first, then the attribute, then the declared type and the literals.  What results is
a test and the answer that is asked of it.

A row whose attribute is absent, null or not declared passes the test for null and no other,
whatever answer is asked.
-/

namespace RecordQuery

open Text

/-- A condition that is ready for rows. -/
structure CompiledCondition where
  /-- The name under which rows hold the attribute. -/
  column : String
  /-- The declared type; none if the attribute is not declared. -/
  declared : Option AttributeType
  operator : Operator
  test : Test
  /-- The answer of the test that makes the condition hold. -/
  expected : Bool
deriving DecidableEq, Repr

namespace Condition

/-! ## Reading literals -/

/-- A declared type must be one that the operator supports. -/
def requireType (name : String) (declared : Option AttributeType)
    (supported : AttributeType → Bool) : Except QueryError Unit :=
  match declared with
  | some t => if supported t then .ok () else .error (.unsupported name (.type t))
  | none => .ok ()

/-- The pattern of an operator on texts. -/
def patternLiteral (name : String) (v : Value) : Except QueryError String :=
  Key.orRefuse name v v.text?

/-- The day of an operator on days: the date in universal time of an instant. -/
def dayLiteral (name : String) (v : Value) : Except QueryError Date :=
  (Key.orRefuse name v.unaliased (Key.instantLiteral? v.unaliased)).map (·.date)

/-- The count of an operator on spans. -/
def countLiteral (name : String) (o : Operator) (v : Value) : Except QueryError Nat := do
  let n ← wholeLiteral name v
  if fitsUnsigned 32 n then return n.toNat
  else throw (.malformed (.negativeCount o name n))

/-- The fiscal year of an operator. -/
def fiscalYearOf (name : String) (year : Int) : Except QueryError Int :=
  match FiscalSettings.checkedYear? year with
  | some y => .ok y
  | none => .error (.unsupported name .farYear)

/-! ## Compiling -/

/-- The test of an operator with its literals, and the answer asked of it. -/
def testOf (ctx : Context) (name : String) (declared : Option AttributeType) (o : Operator)
    (values : List Value) : Except QueryError (Test × Bool) :=
  let literal (v : Value) := Key.ofLiteral name declared v
  let dated := requireType name declared AttributeType.isDate
  match o, values with
  | .null holds, _ => return (.null, holds)
  | .equal holds, vs | .among holds, vs => return (.equalsAny (← vs.mapM literal), holds)
  | .relation r, [v] => return (.relation r (← literal v), true)
  | .between inside, [low, high] => return (.between (← literal low) (← literal high) inside, true)
  | .sharesCodes holds, vs => return (.sharesCodes (← vs.mapM literal), holds)
  | .text shape holds, [v] => do
    requireType name declared AttributeType.isText
    return (.text shape (← patternLiteral name v), holds)
  | .on holds, [v] => do
    dated
    return (.day .on (← dayLiteral name v), holds)
  | .onOrBefore, [v] => do
    dated
    return (.day .onOrBefore (← dayLiteral name v), true)
  | .onOrAfter, [v] => do
    dated
    return (.day .onOrAfter (← dayLiteral name v), true)
  | .lastSpan unit, [v] => do
    dated
    return (.window (.lastSpan unit (← countLiteral name o v)), true)
  | .nextSpan unit, [v] => do
    dated
    return (.window (.nextSpan unit (← countLiteral name o v)), true)
  | .olderThan unit, [v] => do
    dated
    return (.window (.olderThan unit (← countLiteral name o v)), true)
  | .day turn, _ => do
    dated
    return (.window (.day turn), true)
  | .lastSevenDays, _ => do
    dated
    return (.window .lastSevenDays, true)
  | .nextSevenDays, _ => do
    dated
    return (.window .nextSevenDays, true)
  | .calendar unit turn, _ => do
    dated
    return (.window (.calendar unit turn), true)
  | .caller holds, _ => do
    requireType name declared AttributeType.isIdentifier
    return (.caller, holds)
  | .businessUnit holds, _ => do
    requireType name declared AttributeType.isIdentifier
    return (.businessUnit, holds)
  | .inFiscalYear, [v] => do
    dated
    let year ← wholeLiteral name v
    return (.fiscal (.inYear (← fiscalYearOf name year)), true)
  | .inFiscalPeriod, [v] => do
    dated
    let period ← wholeLiteral name v
    return (.fiscal (.inPeriod (← ctx.fiscal.validatePeriod period)), true)
  | .fiscalPeriodAndYear bound, [p, y] => do
    dated
    let period ← wholeLiteral name p
    let year ← wholeLiteral name y
    let period ← ctx.fiscal.validatePeriod period
    return (.fiscal (.periodOfYear bound period (← fiscalYearOf name year)), true)
  | .fiscalYear turn, _ => do
    dated
    return (.fiscal (.year turn), true)
  | .fiscalPeriod turn, _ => do
    dated
    return (.fiscal (.period turn), true)
  | _, vs => throw (.malformed (.arity o name vs.length))

/-- Compiles a condition on an attribute of an entity type that rows hold under a column. -/
def compileFor (c : Condition) (column : String) (e : Entity) (ctx : Context) :
    Except QueryError CompiledCondition := do
  let name := lowercase c.name
  if !c.operator.arity.accepts c.values.length then
    throw (.malformed (.arity c.operator name c.values.length))
  let declared := e.typeOf? name
  if declared.isNone && ctx.strict then
    throw (.unknownAttribute e.name name)
  let (test, expected) ← testOf ctx name declared c.operator c.values
  return ⟨column, declared, c.operator, test, expected⟩

/-- Compiles a condition on an attribute of the rows' own entity type. -/
def compile (c : Condition) (e : Entity) (ctx : Context) : Except QueryError CompiledCondition :=
  c.compileFor (lowercase c.name) e ctx

end Condition

/-! ## Evaluating -/

namespace CompiledCondition

/-- The key of a row for the condition; an attribute that is not declared is not read. -/
def keyOf (c : CompiledCondition) (row : Record) : Except QueryError (Option Key) :=
  match c.declared with
  | some t => Key.ofColumn row c.column (some t)
  | none => .ok none

/-- The condition holds of a row. -/
def evaluate (c : CompiledCondition) (ctx : Context) (row : Record) : Except QueryError Bool := do
  match ← c.keyOf row with
  | none => return c.test = .null && c.expected
  | some k => return (← c.test.holds ctx c.column k) == c.expected

end CompiledCondition

end RecordQuery
