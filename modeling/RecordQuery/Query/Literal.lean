import RecordQuery.Query.Key
import RecordQuery.Text.Blank

/-!
# Literals of conditions

A literal is read as the declared type of the attribute it is compared with.  Numbers are read
from numbers and from texts, texts from texts and from values with an obvious text, dates from
instants and from texts, identifiers from identifiers, references and texts.  A literal for an
undeclared attribute is lowered like a stored value.
-/

namespace RecordQuery

open Text

namespace Key

/-- A literal that does not suit the attribute. -/
def refuse (name : String) (v : Value) : Except QueryError α :=
  .error (unsupportedValue name v)

/-- What a reading found, else the literal is refused. -/
def orRefuse (name : String) (v : Value) : Option α → Except QueryError α
  | some a => .ok a
  | none => refuse name v

/-- The number of a literal. -/
def numberLiteral (name : String) (v : Value) : Except QueryError Decimal :=
  match v with
  | .int n => .ok (.ofInt n.toInt)
  | .bigint n => .ok (.ofInt n.toInt)
  | .double d => decimalOfDouble name d
  | .decimal d => .ok d
  | .money d => .ok d
  | .option c => .ok (.ofInt c.toInt)
  | .text s => orRefuse name v (Decimal.ofText? (trim s))
  | _ => refuse name v

/-- The truth value of a literal. -/
def boolLiteral? : Value → Option Bool
  | .bool b => some b
  | .int n => if n = 0 then some false else if n = 1 then some true else none
  | .bigint n => if n = 0 then some false else if n = 1 then some true else none
  | .text s =>
    if equalIgnoringAsciiCase s "true" || s == "1" then some true
    else if equalIgnoringAsciiCase s "false" || s == "0" then some false
    else none
  | _ => none

/-- The text of a literal. -/
def textLiteral? : Value → Option String
  | .text s => some s
  | .bool b => some (Value.bool b).display
  | .int n => some (Value.int n).display
  | .bigint n => some (Value.bigint n).display
  | .double d => some d.text
  | .decimal d => some d.text
  | .recordId id => some id.text
  | _ => none

/-- The instant of a literal. -/
def instantLiteral? : Value → Option Instant
  | .instant i => some i
  | .text s => Instant.ofLiteral? s
  | _ => none

/-- The identifier of a literal. -/
def recordIdLiteral? : Value → Option RecordId
  | .recordId id => some id
  | .reference r => some r.id
  | .text s => RecordId.ofText? s
  | _ => none

/-- The key of a literal for an attribute of a declared type. -/
def ofTypedLiteral (name : String) (t : AttributeType) (v : Value) : Except QueryError Key :=
  match t with
  | .integer | .bigInt | .double | .decimal | .money | .picklist | .state | .status =>
    (numberLiteral name v).map .number
  | .boolean => (orRefuse name v (boolLiteral? v)).map .bool
  | .string | .memo => (orRefuse name v (textLiteral? v)).map .text
  | .dateTime => (orRefuse name v (instantLiteral? v)).map .instant
  | .uniqueIdentifier | .lookup | .customer | .owner =>
    (orRefuse name v (recordIdLiteral? v)).map .recordId
  | .multiSelect => match v with
    | .options cs => .ok (.codes (distinctCodes cs))
    | v => (numberLiteral name v).map .number
  | .binary => match v with
    | .bytes bs => .ok (.bytes bs)
    | v => refuse name v
  | .partyList => refuse name v

/-- The key of a literal for an attribute that may be declared. -/
def ofLiteral (name : String) (declared : Option AttributeType) (v : Value) :
    Except QueryError Key :=
  match declared with
  | some t => ofTypedLiteral name t v.unaliased
  | none => do orRefuse name v.unaliased (← ofValue name v)

end Key

/-- The whole number of a literal that counts something. -/
def wholeLiteral (name : String) (v : Value) : Except QueryError Int :=
  match v.unaliased with
  | .text s =>
    Key.orRefuse name v.unaliased ((intOfDigits? (trimBoth s.toList)).filter (fitsSigned 64))
  | other => Key.orRefuse name other other.int?

end RecordQuery
