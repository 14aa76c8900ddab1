/-!
# Condition operators

Operators come in families.  An operator and its opposite are one constructor with a flag: the
flag says which answer of the test the operator asks for.  The operators of the calendar are made
of a unit and a turn: the last, the current or the next one.

Every operator has one written name, and takes a fixed number of literal values or at least one.
-/

namespace RecordQuery

/-! ## The parts of operators -/

/-- How a value stands to one literal. -/
inductive Relation where
  | less | lessEqual | greater | greaterEqual
deriving DecidableEq, Repr

/-- How a text stands to one literal. -/
inductive TextShape where
  | like | beginsWith | endsWith | contains
deriving DecidableEq, Repr

/-- Which of the units around now is meant. -/
inductive Turn where
  | last | this | next
deriving DecidableEq, Repr

/-- The units of the calendar that are longer than a day. -/
inductive CalendarUnit where
  | week | month | year
deriving DecidableEq, Repr

/-- The units that a distance from now counts. -/
inductive SpanUnit where
  | hours | days | weeks | months | years
deriving DecidableEq, Repr

/-- The units that an age counts. -/
inductive AgeUnit where
  | days | months | years
deriving DecidableEq, Repr

/-- How a date stands to a fiscal period of a given year. -/
inductive PeriodBound where
  | within | upTo | onward
deriving DecidableEq, Repr

/-! ## Operators -/

/-- A condition operator. -/
inductive Operator where
  | null (holds : Bool)
  | equal (holds : Bool)
  | among (holds : Bool)
  | relation (r : Relation)
  | between (inside : Bool)
  | text (shape : TextShape) (holds : Bool)
  | sharesCodes (holds : Bool)
  | caller (holds : Bool)
  | businessUnit (holds : Bool)
  | on (holds : Bool)
  | onOrBefore
  | onOrAfter
  | day (turn : Turn)
  | lastSevenDays
  | nextSevenDays
  | lastSpan (unit : SpanUnit)
  | nextSpan (unit : SpanUnit)
  | olderThan (unit : AgeUnit)
  | calendar (unit : CalendarUnit) (turn : Turn)
  | inFiscalYear
  | inFiscalPeriod
  | fiscalPeriodAndYear (bound : PeriodBound)
  | fiscalYear (turn : Turn)
  | fiscalPeriod (turn : Turn)
deriving DecidableEq, Repr

/-! ## Written names -/

/-- The written name of a relation. -/
def Relation.name : Relation → String
  | less => "LessThan"
  | lessEqual => "LessEqual"
  | greater => "GreaterThan"
  | greaterEqual => "GreaterEqual"

/-- The written name of a test of texts or of its opposite. -/
def TextShape.name : TextShape → (holds : Bool) → String
  | like, true => "Like"
  | like, false => "NotLike"
  | beginsWith, true => "BeginsWith"
  | beginsWith, false => "DoesNotBeginWith"
  | endsWith, true => "EndsWith"
  | endsWith, false => "DoesNotEndWith"
  | contains, true => "Contains"
  | contains, false => "DoesNotContain"

/-- The written name of a turn. -/
def Turn.name : Turn → String
  | last => "Last"
  | this => "This"
  | next => "Next"

/-- The written name of a calendar unit. -/
def CalendarUnit.name : CalendarUnit → String
  | week => "Week"
  | month => "Month"
  | year => "Year"

/-- The written name of a unit of distance. -/
def SpanUnit.name : SpanUnit → String
  | hours => "Hours"
  | days => "Days"
  | weeks => "Weeks"
  | months => "Months"
  | years => "Years"

/-- The written name of a unit of age. -/
def AgeUnit.name : AgeUnit → String
  | days => "Days"
  | months => "Months"
  | years => "Years"

namespace Operator

/-- The written name of an operator. -/
def name : Operator → String
  | null true => "Null"
  | null false => "NotNull"
  | equal true => "Equal"
  | equal false => "NotEqual"
  | among true => "In"
  | among false => "NotIn"
  | relation r => r.name
  | between true => "Between"
  | between false => "NotBetween"
  | text shape holds => shape.name holds
  | sharesCodes true => "ContainValues"
  | sharesCodes false => "DoesNotContainValues"
  | caller true => "EqualUserId"
  | caller false => "NotEqualUserId"
  | businessUnit true => "EqualBusinessId"
  | businessUnit false => "NotEqualBusinessId"
  | on true => "On"
  | on false => "NotOn"
  | onOrBefore => "OnOrBefore"
  | onOrAfter => "OnOrAfter"
  | day .last => "Yesterday"
  | day .this => "Today"
  | day .next => "Tomorrow"
  | lastSevenDays => "Last7Days"
  | nextSevenDays => "Next7Days"
  | lastSpan u => "LastX" ++ u.name
  | nextSpan u => "NextX" ++ u.name
  | olderThan u => "OlderThanX" ++ u.name
  | calendar u t => t.name ++ u.name
  | inFiscalYear => "InFiscalYear"
  | inFiscalPeriod => "InFiscalPeriod"
  | fiscalPeriodAndYear .within => "InFiscalPeriodAndYear"
  | fiscalPeriodAndYear .upTo => "InOrBeforeFiscalPeriodAndYear"
  | fiscalPeriodAndYear .onward => "InOrAfterFiscalPeriodAndYear"
  | fiscalYear t => t.name ++ "FiscalYear"
  | fiscalPeriod t => t.name ++ "FiscalPeriod"

/-- An operator with a flag, and its opposite. -/
def both (f : Bool → Operator) : List Operator := [f true, f false]

/-- The operators of every turn. -/
def turns (f : Turn → Operator) : List Operator := [f .this, f .last, f .next]

/-- All operators. -/
def all : List Operator :=
  both null ++ both equal ++ both among ++
  [relation .less, relation .lessEqual, relation .greater, relation .greaterEqual] ++
  both between ++ both (text .like) ++ both (text .beginsWith) ++ both (text .endsWith) ++
  both (text .contains) ++ both sharesCodes ++ both caller ++ both businessUnit ++ both on ++
  [onOrBefore, onOrAfter] ++ turns day ++ [lastSevenDays, nextSevenDays] ++
  [lastSpan .hours, lastSpan .days, lastSpan .weeks, lastSpan .months, lastSpan .years] ++
  [nextSpan .hours, nextSpan .days, nextSpan .weeks, nextSpan .months, nextSpan .years] ++
  [olderThan .days, olderThan .months, olderThan .years] ++
  turns (calendar .week) ++ turns (calendar .month) ++ turns (calendar .year) ++
  [inFiscalYear, inFiscalPeriod, fiscalPeriodAndYear .within, fiscalPeriodAndYear .upTo,
   fiscalPeriodAndYear .onward] ++ turns fiscalYear ++ turns fiscalPeriod

/-- The operator with a written name. -/
def ofName? (s : String) : Option Operator := all.find? (·.name = s)

/-- The operator reads the fiscal calendar. -/
def isFiscal : Operator → Bool
  | inFiscalYear | inFiscalPeriod | fiscalPeriodAndYear _ | fiscalYear _ | fiscalPeriod _ => true
  | _ => false

end Operator

/-! ## Numbers of literals -/

/-- How many literal values an operator takes. -/
inductive Arity where
  | none | one | two | atLeastOne
deriving DecidableEq, Repr

/-- The number of values is one that the arity allows. -/
def Arity.accepts : Arity → Nat → Bool
  | none, n => n = 0
  | one, n => n = 1
  | two, n => n = 2
  | atLeastOne, n => 1 ≤ n

/-- The number of literal values that an operator takes. -/
def Operator.arity : Operator → Arity
  | equal _ | among _ | sharesCodes _ => .atLeastOne
  | relation _ | text _ _ | on _ | onOrBefore | onOrAfter => .one
  | lastSpan _ | nextSpan _ | olderThan _ | inFiscalYear | inFiscalPeriod => .one
  | between _ | fiscalPeriodAndYear _ => .two
  | null _ | caller _ | businessUnit _ | day _ | lastSevenDays | nextSevenDays => .none
  | calendar _ _ | fiscalYear _ | fiscalPeriod _ => .none

end RecordQuery
