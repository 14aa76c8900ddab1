import RecordQuery.NameMap
import RecordQuery.Record
import RecordQuery.Schema.AttributeType
import RecordQuery.Text.Lowercase

/-!
# Entity types

An entity type declares attributes under their names in lower case.  One of them, declared from
the start as a unique identifier, is the primary identifier; one may be the primary name, which is
declared as text if nothing else declares it.
-/

namespace RecordQuery

open Text

/-- An option of an option set or of a truth value, whose codes are 0 and 1. -/
structure OptionLabel where
  code : Int32
  label : String
deriving DecidableEq, Repr

/-- An attribute of an entity type. -/
structure Attribute where
  name : String
  type : AttributeType
  /-- Entity types that a reference may point at. -/
  targets : List String
  options : List OptionLabel
deriving DecidableEq, Repr

namespace Attribute

/-- An attribute without targets and options. -/
def new (name : String) (type : AttributeType) : Attribute :=
  ⟨lowercase name, type, [], []⟩

/-- Sets the entity types that a reference may point at. -/
def withTargets (a : Attribute) (targets : List String) : Attribute :=
  { a with targets := targets.map lowercase }

/-- A reference to records of the given entity types. -/
def lookup (name : String) (targets : List String) : Attribute :=
  (new name .lookup).withTargets targets

/-- Adds an option behind the others. -/
def withOption (a : Attribute) (code : Int32) (label : String) : Attribute :=
  { a with options := a.options ++ [⟨code, label⟩] }

/-- The label of the first option with a code. -/
def label? (a : Attribute) (code : Int32) : Option String :=
  (a.options.find? (·.code = code)).map (·.label)

end Attribute

/-- An entity type. -/
structure Entity where
  name : String
  /-- The attribute that holds the identifier of a record. -/
  primaryId : String
  /-- The attribute that names a record for display. -/
  primaryName : Option String
  attributes : NameMap Attribute
deriving DecidableEq, Repr

namespace Entity

/-- An entity type that declares its primary identifier only. -/
def new (name primaryId : String) : Entity :=
  let idName := lowercase primaryId
  ⟨lowercase name, idName, none, [(idName, Attribute.new idName .uniqueIdentifier)]⟩

/-- Sets the primary name and declares it as text if it is not declared. -/
def withPrimaryName (e : Entity) (name : String) : Entity :=
  let name := lowercase name
  { e with
    primaryName := some name
    attributes := NameMap.insertNew e.attributes name (Attribute.new name .string) }

/-- Declares an attribute under its own name, replacing what was declared there. -/
def withAttribute (e : Entity) (a : Attribute) : Entity :=
  { e with attributes := NameMap.insert e.attributes a.name a }

/-- Declares an attribute by name and type. -/
def declare (e : Entity) (name : String) (type : AttributeType) : Entity :=
  e.withAttribute (Attribute.new name type)

/-- Declares attributes one after another. -/
def withAttributes (e : Entity) (as : List Attribute) : Entity :=
  as.foldl withAttribute e

/-- The attribute with a name as it is written, else with its lower case. -/
def attribute? (e : Entity) (name : String) : Option Attribute :=
  NameMap.lookup? e.attributes name

/-- An attribute is declared. -/
def declares (e : Entity) (name : String) : Bool := (e.attribute? name).isSome

/-- The declared type of an attribute. -/
def typeOf? (e : Entity) (name : String) : Option AttributeType :=
  (e.attribute? name).map (·.type)

end Entity

end RecordQuery
