/-!
# Declared types of attributes

Every attribute of an entity type declares one of nineteen types.  They fall into families:
numbers, texts, references, option sets, and a few of their own.
-/

namespace RecordQuery

/-- The declared type of an attribute. -/
inductive AttributeType where
  | boolean
  /-- A 32-bit whole number. -/
  | integer
  /-- A 64-bit whole number. -/
  | bigInt
  | double
  | decimal
  | money
  /-- A single line of text. -/
  | string
  /-- Several lines of text. -/
  | memo
  | dateTime
  | uniqueIdentifier
  /-- A reference to a record. -/
  | lookup
  /-- A reference to an account or a contact. -/
  | customer
  /-- A reference to a user or a team. -/
  | owner
  /-- A code of an option set. -/
  | picklist
  /-- The state of a record, an option set. -/
  | state
  /-- The status of a record, an option set. -/
  | status
  /-- Codes of a multi-select option set. -/
  | multiSelect
  /-- The content of an image or a file. -/
  | binary
  /-- A list of parties of an activity. -/
  | partyList
deriving DecidableEq, Repr

namespace AttributeType

/-- All types, in the order of their declaration. -/
def all : List AttributeType :=
  [boolean, integer, bigInt, double, decimal, money, string, memo, dateTime, uniqueIdentifier,
   lookup, customer, owner, picklist, state, status, multiSelect, binary, partyList]

/-- The written name of a type. -/
def name : AttributeType → String
  | boolean => "Boolean"
  | integer => "Integer"
  | bigInt => "BigInt"
  | double => "Double"
  | decimal => "Decimal"
  | money => "Money"
  | string => "String"
  | memo => "Memo"
  | dateTime => "DateTime"
  | uniqueIdentifier => "Uniqueidentifier"
  | lookup => "Lookup"
  | customer => "Customer"
  | owner => "Owner"
  | picklist => "Picklist"
  | state => "State"
  | status => "Status"
  | multiSelect => "MultiSelectPicklist"
  | binary => "Binary"
  | partyList => "PartyList"

/-- The type with a written name. -/
def ofName? (s : String) : Option AttributeType := all.find? (·.name = s)

/-- The type holds numbers that are no option codes. -/
def isNumeric : AttributeType → Bool
  | integer | bigInt | double | decimal | money => true
  | _ => false

/-- The type holds text. -/
def isText : AttributeType → Bool
  | string | memo => true
  | _ => false

/-- The type holds a reference to a record. -/
def isReference : AttributeType → Bool
  | lookup | customer | owner => true
  | _ => false

/-- The type holds one option code. -/
def isOptionSet : AttributeType → Bool
  | picklist | state | status => true
  | _ => false

/-- The type holds instants. -/
def isDate : AttributeType → Bool
  | dateTime => true
  | _ => false

/-- The type holds an identifier, its own or that of a referenced record. -/
def isIdentifier (t : AttributeType) : Bool :=
  t.isReference || t = uniqueIdentifier

/-- Values of the type are displayed by labels of their options. -/
def hasLabels (t : AttributeType) : Bool :=
  t.isOptionSet || t = boolean || t = multiSelect

example : ∀ t ∈ all, ofName? t.name = some t := by decide +kernel

end AttributeType

end RecordQuery
