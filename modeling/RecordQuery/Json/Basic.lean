import RecordQuery.Number.Double

/-!
# JSON values

A JSON value as it stands in a text: the members of an object keep their order, and a name may
occur twice.  Numbers come in two sorts.  A number written without point and power of ten that 64
bits can hold is an integer; every other number is a double, and so is `-0`.

Some tokens have the right form and no value: a number too large for a double, or a string with
half of a surrogate pair.  They are kept as `unreadable`, because a reader that skips the member
they stand in does not look at them.

One name is a mark: an object whose one member has the name `numberName` may stand for a number.
The mark counts only where the text shows it letter by letter.  Spelled with escapes it is a name
like any other, and an object of that one member is kept apart as `respelled`.
-/

namespace RecordQuery

/-- A JSON value. -/
inductive Json where
  | null
  | bool (b : Bool)
  | integer (n : Int)
  | double (d : Double)
  | string (s : String)
  | array (items : List Json)
  | object (members : List (String × Json))
  /-- The object with one member, whose name spells `numberName` with escapes. -/
  | respelled (j : Json)
  | unreadable
deriving Inhabited

namespace Json

/-- The name of the one member of an object that stands for a number. -/
def numberName : String := "$serde_json::private::Number"

/-! ## Looking at a value -/

/-- The text of a string. -/
def string? : Json → Option String
  | .string s => some s
  | _ => none

/-- A truth value. -/
def bool? : Json → Option Bool
  | .bool b => some b
  | _ => none

/-- An integer that a signed number of some bits can hold. -/
def signed? (bits : Nat) : Json → Option Int
  | .integer n => if fitsSigned bits n then some n else none
  | _ => none

/-- An integer that an unsigned number of some bits can hold. -/
def unsigned? (bits : Nat) : Json → Option Nat
  | .integer n => if fitsUnsigned bits n then some n.toNat else none
  | _ => none

/-- A 32-bit integer. -/
def int32? (j : Json) : Option Int32 :=
  (j.signed? 32).map Int32.ofInt

/-- A 64-bit integer. -/
def int64? (j : Json) : Option Int64 :=
  (j.signed? 64).map Int64.ofInt

/-- A 32-bit natural number. -/
def uint32? (j : Json) : Option UInt32 :=
  (j.unsigned? 32).map UInt32.ofNat

/-- A 64-bit natural number. -/
def uint64? (j : Json) : Option UInt64 :=
  (j.unsigned? 64).map UInt64.ofNat

/-- A number of either sort, as a double. -/
def double? : Json → Option Double
  | .double d => some d
  | .integer n =>
    let size := Double.ofNat n.natAbs
    some (if n < 0 then size.neg else size)
  | _ => none

/-- The items of an array. -/
def items? : Json → Option (List Json)
  | .array js => some js
  | _ => none

/-- Nothing for `null`, otherwise what `read` makes of the value. -/
def optional? (read : Json → Option α) : Json → Option (Option α)
  | .null => some none
  | j => (read j).map some

/-! ## Members of an object -/

/-- The members of an object. -/
def members? : Json → Option (List (String × Json))
  | .object ms => some ms
  | .respelled j => some [(numberName, j)]
  | _ => none

/-- The members of a value of fixed shape, which is an object or the array of its members in the
order of their names, with none left out. -/
def shape? (names : List String) : Json → Option (List (String × Json))
  | .array js => if js.length = names.length then some (names.zip js) else none
  | j => j.members?

/-- The values that stand under a name. -/
def valuesOf (members : List (String × Json)) (name : String) : List Json :=
  (members.filter (·.1 = name)).map (·.2)

/-- The one value that must stand under a name. -/
def field? (members : List (String × Json)) (name : String) : Option Json :=
  match valuesOf members name with
  | [j] => some j
  | _ => none

/-- The value under a name, `null` when there is none; two are refused. -/
def fieldOrNull? (members : List (String × Json)) (name : String) : Option Json :=
  match valuesOf members name with
  | [] => some .null
  | [j] => some j
  | _ => none

/-! ## Writing values -/

/-- A value or `null`. -/
def ofOption (write : α → Json) : Option α → Json
  | none => .null
  | some a => write a

end Json

end RecordQuery
