import RecordQuery.Calendar.Fiscal
import RecordQuery.Json.Parser
import RecordQuery.Json.Printer
import RecordQuery.Schema.Catalog
import RecordQuery.Wire.Value

/-!
# JSON form of schemas and fiscal settings

A choice without content is written as its name.  It is read from its name, and also from an
object whose one member has that name and is null.

The naming of fiscal years may be missing, also at the end of an array, in which case a year is
named for its start; every other member must be present.
-/

namespace RecordQuery

/-! ## Choices -/

/-- A choice by its name. -/
def Json.choice? (ofName? : String → Option α) : (depth : Nat) → Json → Option α
  | _, .string s => ofName? s
  | _ + 1, .object [(s, .null)] => ofName? s
  | _, _ => none

/-- The list of texts of an array. -/
def Json.strings? : (depth : Nat) → Json → Option (List String) :=
  Json.list? fun _ => Json.string?

/-! ## Attributes and entity types -/

namespace OptionLabel

/-- The JSON form of an option. -/
def toJson (o : OptionLabel) : Json :=
  .object [("value", .integer o.code.toInt), ("label", .string o.label)]

/-- The option of a JSON form. -/
def ofJson? : (depth : Nat) → Json → Option OptionLabel :=
  Json.fields? ["value", "label"] fun _ ms => do
    let code ← (← Json.field? ms "value").int32?
    let label ← (← Json.field? ms "label").string?
    some ⟨code, label⟩

end OptionLabel

namespace Attribute

/-- The JSON form of an attribute. -/
def toJson (a : Attribute) : Json :=
  .object
    [("name", .string a.name), ("attribute_type", .string a.type.name),
     ("targets", .ofList .string a.targets), ("options", .ofList OptionLabel.toJson a.options)]

/-- The attribute of a JSON form. -/
def ofJson? : (depth : Nat) → Json → Option Attribute :=
  Json.fields? ["name", "attribute_type", "targets", "options"] fun depth ms => do
    let name ← (← Json.field? ms "name").string?
    let type ← Json.choice? AttributeType.ofName? depth (← Json.field? ms "attribute_type")
    let targets ← Json.strings? depth (← Json.field? ms "targets")
    let options ← Json.list? OptionLabel.ofJson? depth (← Json.field? ms "options")
    some ⟨name, type, targets, options⟩

end Attribute

namespace Entity

/-- The JSON form of an entity type. -/
def toJson (e : Entity) : Json :=
  .object
    [("logical_name", .string e.name), ("primary_id_attribute", .string e.primaryId),
     ("primary_name_attribute", .ofOption .string e.primaryName),
     ("attributes", .ofMap Attribute.toJson e.attributes)]

/-- The entity type of a JSON form. -/
def ofJson? : (depth : Nat) → Json → Option Entity :=
  Json.fields? ["logical_name", "primary_id_attribute", "primary_name_attribute", "attributes"]
    fun depth ms => do
      let name ← (← Json.field? ms "logical_name").string?
      let primaryId ← (← Json.field? ms "primary_id_attribute").string?
      let primaryName ← (← Json.fieldOrNull? ms "primary_name_attribute").optional? Json.string?
      let attributes ← Json.map? Attribute.ofJson? depth (← Json.field? ms "attributes")
      some ⟨name, primaryId, primaryName, attributes⟩

end Entity

/-! ## Schemas -/

namespace Schema

/-- The JSON form of a schema. -/
def toJson (s : Schema) : Json :=
  .object
    [("version", .integer s.version.toNat), ("created_at", s.createdAt.toJson),
     ("entities", .ofMap Entity.toJson s.entities)]

/-- The schema of a JSON form. -/
def ofJson? : (depth : Nat) → Json → Option Schema :=
  Json.fields? ["version", "created_at", "entities"] fun depth ms => do
    let version ← (← Json.field? ms "version").uint64?
    let createdAt ← Instant.ofJson? (← Json.field? ms "created_at")
    let entities ← Json.map? Entity.ofJson? depth (← Json.field? ms "entities")
    some ⟨version, createdAt, entities⟩

/-- The JSON text of a schema. -/
def text (s : Schema) : String := s.toJson.text

/-- The schema of a JSON text. -/
def ofText? (s : String) : Option Schema :=
  (Json.ofText? s).bind (ofJson? Json.maxDepth)

end Schema

/-! ## Fiscal settings -/

/-- The written name of a template. -/
def FiscalTemplate.name : FiscalTemplate → String
  | annual => "Annual"
  | semiAnnual => "SemiAnnual"
  | quarterly => "Quarterly"
  | monthly => "Monthly"
  | fourWeek => "FourWeek"

/-- The template with a written name. -/
def FiscalTemplate.ofName? (s : String) : Option FiscalTemplate :=
  [annual, semiAnnual, quarterly, monthly, fourWeek].find? (·.name = s)

/-- The written name of a naming. -/
def FiscalNaming.name : FiscalNaming → String
  | startYear => "StartYear"
  | endYear => "EndYear"

/-- The naming with a written name. -/
def FiscalNaming.ofName? (s : String) : Option FiscalNaming :=
  [startYear, endYear].find? (·.name = s)

namespace FiscalSettings

/-- The JSON form of fiscal settings. -/
def toJson (s : FiscalSettings) : Json :=
  .object
    [("start_month", .integer s.startMonth), ("start_day", .integer s.startDay),
     ("template", .string s.template.name), ("year_naming", .string s.naming.name)]

/-- The fiscal settings of a JSON form. -/
def ofJson? (depth : Nat) (j : Json) : Option FiscalSettings :=
  let names := match j with
    | .array [_, _, _] => ["start_month", "start_day", "template"]
    | _ => ["start_month", "start_day", "template", "year_naming"]
  Json.fields? names
    (fun depth ms => do
      let month ← (← Json.field? ms "start_month").uint32?
      let day ← (← Json.field? ms "start_day").uint32?
      let template ← Json.choice? FiscalTemplate.ofName? depth (← Json.field? ms "template")
      let naming ← match Json.valuesOf ms "year_naming" with
        | [] => some .startYear
        | [j] => Json.choice? FiscalNaming.ofName? depth j
        | _ => none
      some ⟨month.toNat, day.toNat, template, naming⟩)
    depth j

/-- The fiscal settings of a JSON text, which must be valid. -/
def ofText (s : String) : Except QueryError FiscalSettings :=
  match (Json.ofText? s).bind (ofJson? Json.maxDepth) with
  | some settings => settings.validate.map fun _ => settings
  | none => .error .undecodable

end FiscalSettings

end RecordQuery
