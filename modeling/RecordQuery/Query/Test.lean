import RecordQuery.Query.Key
import RecordQuery.Query.Window
import RecordQuery.Text.Pattern

/-!
# Tests of a key

A condition is compiled to a test with all its literals read.  A test holds or does not hold of
the key of a value; nothing of the context is part of it, so the clock, the caller and the fiscal
settings are those of the moment of evaluation.

Tests of texts and of dates fail on keys of another kind.
-/

namespace RecordQuery

open Text

/-- How a date stands to one day. -/
inductive DayRelation where
  | on | onOrBefore | onOrAfter
deriving DecidableEq, Repr

/-- A test against the fiscal calendar. -/
inductive FiscalTest where
  | inYear (year : Int)
  /-- A period of the current fiscal year. -/
  | inPeriod (period : Nat)
  | periodOfYear (bound : PeriodBound) (period : Nat) (year : Int)
  | year (turn : Turn)
  | period (turn : Turn)
deriving DecidableEq, Repr

/-- A test of a key. -/
inductive Test where
  /-- No key passes. -/
  | null
  | equalsAny (literals : List Key)
  | relation (r : Relation) (literal : Key)
  /-- Inside or outside two bounds, both of which count as inside. -/
  | between (low high : Key) (inside : Bool)
  | text (shape : TextShape) (pattern : String)
  | sharesCodes (literals : List Key)
  | caller
  | businessUnit
  | day (relation : DayRelation) (date : Date)
  | window (w : Window)
  | fiscal (f : FiscalTest)
deriving DecidableEq, Repr

/-! ## Parts of tests -/

/-- The relation accepts how a key compares with the literal. -/
def Relation.accepts : Relation → Ordering → Bool
  | less, o => o = .lt
  | lessEqual, o => o ≠ .gt
  | greater, o => o = .gt
  | greaterEqual, o => o ≠ .lt

/-- A text passes against the literal. -/
def TextShape.accepts : TextShape → (text literal : String) → Bool
  | like => matchesPattern
  | beginsWith => startsWith
  | endsWith => Text.endsWith
  | contains => containsText

/-- The instant stands in the relation to the day.  A day without a day after it has no end. -/
def DayRelation.accepts (r : DayRelation) (d : Date) (t : Instant) : Bool :=
  let starts := decide (Instant.midnight d ≤ t)
  let ends := (d.addDays? 1).all fun next => t < .midnight next
  match r with
  | on => starts && ends
  | onOrBefore => ends
  | onOrAfter => starts

namespace FiscalTest

/-- The date lies between two dates, both included. -/
def covers (range : Date × Date) (d : Date) : Bool := range.1 ≤ d && d ≤ range.2

/-- The date passes. -/
def holds (ctx : Context) (f : FiscalTest) (d : Date) : Except QueryError Bool :=
  match f with
  | .inYear y => do return covers (← ctx.fiscal.yearRange y) d
  | .inPeriod p => do
    let y ← ctx.fiscal.currentYear ctx.today
    return covers (← ctx.fiscal.periodRange y p) d
  | .periodOfYear bound p y => do
    let range ← ctx.fiscal.periodRange y p
    return match bound with
      | .within => covers range d
      | .upTo => d ≤ range.2
      | .onward => range.1 ≤ d
  | .year turn => do
    let y ← ctx.fiscal.currentYear ctx.today
    return covers (← ctx.fiscal.yearRange (y + Window.distance turn)) d
  | .period turn => do
    let current ← ctx.fiscal.currentPeriod ctx.today
    let p ← match turn with
      | .last => ctx.fiscal.previousPeriod current
      | .this => pure current
      | .next => ctx.fiscal.nextPeriod current
    return covers (← ctx.fiscal.periodRange p.year p.period) d

end FiscalTest

/-! ## Tests -/

namespace Test

/-- The codes that literals name: those of sets and those of numbers. -/
def literalCodes (literals : List Key) : List Int32 :=
  distinctCodes <| literals.flatMap fun k =>
    match k with
    | .codes cs => cs
    | k => k.code?.toList

/-- The key equals a literal; a set of codes equals the set that all literals name together. -/
def equalsAnyOf (caseSensitive : Bool) (literals : List Key) : Key → Bool
  | .codes cs => cs = literalCodes literals
  | k => literals.any (Key.equal caseSensitive k)

/-- A code of the key is among those that the literals name. -/
def sharesCodesWith (literals : List Key) : Key → Bool
  | .codes cs => cs.any (literalCodes literals).contains
  | k => k.code?.any (literalCodes literals).contains

/-- The key lies between the bounds; none if it does not compare with both. -/
def isBetween? (caseSensitive : Bool) (low high k : Key) : Option Bool := do
  let toLow ← k.compare? caseSensitive low
  let toHigh ← k.compare? caseSensitive high
  some (toLow ≠ .lt && toHigh ≠ .gt)

/-- The instant of a key that must be a date. -/
def instantOf (column : String) (k : Key) : Except QueryError Instant :=
  match k.instant? with
  | some t => .ok t
  | none => .error (.unsupported column .notDate)

/-- The key passes. -/
def holds (ctx : Context) (column : String) (t : Test) (k : Key) : Except QueryError Bool :=
  match t with
  | .null => return false
  | .equalsAny literals => return equalsAnyOf ctx.caseSensitive literals k
  | .relation r literal => return (k.compare? ctx.caseSensitive literal).any r.accepts
  | .between low high inside =>
    return isBetween? ctx.caseSensitive low high k = some inside
  | .text shape pattern =>
    match k with
    | .text s =>
      return shape.accepts (Key.folded ctx.caseSensitive s) (Key.folded ctx.caseSensitive pattern)
    | _ => throw (.unsupported column .notText)
  | .sharesCodes literals => return sharesCodesWith literals k
  | .caller => return k = .recordId ctx.caller
  | .businessUnit => return k = .recordId ctx.businessUnit
  | .day r d => do return r.accepts d (← instantOf column k)
  | .window w => do w.holds ctx (← instantOf column k)
  | .fiscal f => do f.holds ctx (← instantOf column k).date

end Test

end RecordQuery
