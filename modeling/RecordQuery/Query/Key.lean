import RecordQuery.Error
import RecordQuery.Record

/-!
# Keys: values as they are compared

A value is lowered to a key before it is compared.  All numbers become decimals, references become
the identifier they hold, and the codes of a multi-select option set become a set.  Null has no
key, and lists of records cannot be lowered.

Keys of one kind are ordered; keys of different kinds do not compare.  Texts compare by their
lower case unless case counts.  For sorting, a missing key comes first and keys of different kinds
count as equal.
-/

namespace RecordQuery

open Text

/-- A value lowered for comparison. -/
inductive Key where
  | bool (b : Bool)
  | number (d : Decimal)
  | text (s : String)
  | instant (i : Instant)
  | recordId (id : RecordId)
  | bytes (bs : List UInt8)
  /-- Distinct codes in ascending order. -/
  | codes (cs : List Int32)
deriving DecidableEq, Repr

/-- An offending value of an attribute. -/
def unsupportedValue (name : String) (v : Value) : QueryError :=
  .unsupported name (.value v.kind)

namespace Key

/-! ## Lowering stored values -/

/-- The decimal of a double that has a finite value. -/
def decimalOfDouble (name : String) (d : Double) : Except QueryError Decimal :=
  match d.toDecimal? with
  | some x => .ok x
  | none => .error (.unsupported name (.value .double))

/-- The key of a stored value, none for null. -/
def ofValue (name : String) (v : Value) : Except QueryError (Option Key) :=
  match v.unaliased with
  | .null => .ok none
  | .bool b => .ok (some (.bool b))
  | .int n => .ok (some (.number (.ofInt n.toInt)))
  | .bigint n => .ok (some (.number (.ofInt n.toInt)))
  | .double d => (decimalOfDouble name d).map (some ∘ .number)
  | .decimal d => .ok (some (.number d))
  | .money d => .ok (some (.number d))
  | .option c => .ok (some (.number (.ofInt c.toInt)))
  | .text s => .ok (some (.text s))
  | .instant i => .ok (some (.instant i))
  | .recordId id => .ok (some (.recordId id))
  | .reference r => .ok (some (.recordId r.id))
  | .bytes bs => .ok (some (.bytes bs))
  | .options cs => .ok (some (.codes (distinctCodes cs)))
  | other => .error (unsupportedValue name other)

/-- The key is of the kind that attributes of a declared type store. -/
def fits (k : Key) (t : AttributeType) : Bool :=
  match t, k with
  | .integer, .number _ | .bigInt, .number _ | .double, .number _ | .decimal, .number _
  | .money, .number _ | .picklist, .number _ | .state, .number _ | .status, .number _ => true
  | .boolean, .bool _ => true
  | .string, .text _ | .memo, .text _ => true
  | .dateTime, .instant _ => true
  | .uniqueIdentifier, .recordId _ | .lookup, .recordId _ | .customer, .recordId _
  | .owner, .recordId _ => true
  | .multiSelect, .codes _ => true
  | .binary, .bytes _ => true
  | _, _ => false

/-- The key of a stored value that must fit the declared type, if there is one. -/
def ofStored (name : String) (declared : Option AttributeType) (v : Value) :
    Except QueryError (Option Key) := do
  match ← ofValue name v with
  | none => return none
  | some k =>
    match declared with
    | some t => if k.fits t then return some k else throw (unsupportedValue name v.unaliased)
    | none => return some k

/-- The key of an attribute of a record; an absent attribute has none. -/
def ofColumn (r : Record) (column : String) (declared : Option AttributeType) :
    Except QueryError (Option Key) :=
  match r.get? column with
  | some v => ofStored column declared v
  | none => .ok none

/-! ## Parts of a key -/

/-- The option code that a number is. -/
def code? : Key → Option Int32
  | .number d => d.toInt32?
  | _ => none

/-- The instant of a date. -/
def instant? : Key → Option Instant
  | .instant i => some i
  | _ => none

/-! ## Order -/

/-- The text that stands for a text in comparisons. -/
def folded (caseSensitive : Bool) (s : String) : String :=
  if caseSensitive then s else lowercase s

/-- The order of two keys of one kind. -/
def compare? (caseSensitive : Bool) : Key → Key → Option Ordering
  | .bool a, .bool b => some (compare a b)
  | .number a, .number b => some (compare a b)
  | .text a, .text b => some (compare (folded caseSensitive a) (folded caseSensitive b))
  | .instant a, .instant b => some (compare a b)
  | .recordId a, .recordId b => some (compare a b)
  | .bytes a, .bytes b => some (compare a b)
  | .codes a, .codes b => some (compare a b)
  | _, _ => none

/-- The keys are of one kind and equal. -/
def equal (caseSensitive : Bool) (a b : Key) : Bool :=
  compare? caseSensitive a b = some .eq

/-- The order for sorting: no key first, keys of different kinds equal. -/
def compareForSort (caseSensitive : Bool) : Option Key → Option Key → Ordering
  | none, none => .eq
  | none, some _ => .lt
  | some _, none => .gt
  | some a, some b => (compare? caseSensitive a b).getD .eq

end Key

end RecordQuery
