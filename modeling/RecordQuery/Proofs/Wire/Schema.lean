import RecordQuery.Proofs.Sample
import RecordQuery.Proofs.Wire.Parts

/-!
# Schemas survive their JSON text

A schema is read back from its text: every entity type with its attributes, their targets and their
options, under whatever names and with whatever labels (`Schema.ofText?_textIn`).

*Order.*  Entity types stand in a map, and a writer may list the entries of a map in any order.  The
reader puts them in order again, so the text of every listing is read as the same schema.

*Nesting.*  The form of a schema has a fixed number of levels, with the options of attributes at the
bottom, so the reader's bound on levels is never met (`Schema.depth_toJsonIn_le`).
-/

namespace RecordQuery

open Json (Gives)

/-! ## Nesting of parts -/

namespace Json

theorem depth_object_le_succ {ms : List (String × Json)} {n : Nat} (h : ∀ m ∈ ms, m.2.depth ≤ n) :
    (object ms).depth ≤ n + 1 :=
  Nat.succ_le_succ (membersDepth_le_iff.mpr h)

theorem depth_ofList_le_succ {write : α → Json} {as : List α} {n : Nat}
    (h : ∀ a ∈ as, (write a).depth ≤ n) : (ofList write as).depth ≤ n + 1 :=
  Nat.succ_le_succ (itemsDepth_le_iff.mpr (List.forall_mem_map.mpr h))

theorem depth_ofMap_le_succ {write : α → Json} {m : NameMap α} {n : Nat}
    (h : ∀ e ∈ m, (write e.2).depth ≤ n) : (ofMap write m).depth ≤ n + 1 :=
  depth_object_le_succ (List.forall_mem_map.mpr h)

end Json

/-! ## Attributes -/

theorem AttributeType.mem_all (t : AttributeType) : t ∈ all := by
  cases t <;> decide

theorem AttributeType.ofName?_name (t : AttributeType) : ofName? t.name = some t := by
  have hall : ∀ t ∈ all, ofName? t.name = some t := by decide +kernel
  exact hall t t.mem_all

namespace OptionLabel

theorem gives_toJson (o : OptionLabel) : Gives ofJson? o.toJson o := by
  have hcode := Json.gives_int32 o.code
  have hlabel := Json.gives_string o.label
  refine .fields ?_ fun depth _ => ?_
  · simp [hcode.readable, hlabel.readable]
  · rw [Json.field?_then (by simp [Json.valuesOf]) hcode.eq_some,
      Json.field?_then (by simp [Json.valuesOf]) hlabel.eq_some]

theorem depth_toJson_le (o : OptionLabel) : o.toJson.depth ≤ 1 :=
  Json.depth_object_le_succ (by simp [Json.depth])

end OptionLabel

namespace Attribute

theorem gives_toJson (a : Attribute) : Gives ofJson? a.toJson a := by
  have hname := Json.gives_string a.name
  have htype := Json.gives_choice a.type.ofName?_name
  have htargets : Gives Json.strings? (.ofList .string a.targets) (a.targets.map fun t => t) :=
    .list fun t _ => Json.gives_string t
  have hoptions : Gives (Json.list? OptionLabel.ofJson?) (.ofList OptionLabel.toJson a.options)
      (a.options.map fun o => o) := .list fun o _ => o.gives_toJson
  rw [List.map_id'] at htargets hoptions
  refine .fields ?_ fun depth hdepth => ?_
  · simp [hname.readable, htype.readable, htargets.readable, hoptions.readable]
  · have htargets := htargets.read_eq depth
      (hdepth ("targets", .ofList .string a.targets) (by simp))
    have hoptions := hoptions.read_eq depth
      (hdepth ("options", .ofList OptionLabel.toJson a.options) (by simp))
    rw [Json.field?_then (by simp [Json.valuesOf]) hname.eq_some,
      Json.field?_then (by simp [Json.valuesOf]) (htype.read_eq depth (Nat.zero_le _)),
      Json.field?_then (by simp [Json.valuesOf]) htargets,
      Json.field?_then (by simp [Json.valuesOf]) hoptions]

theorem depth_toJson_le (a : Attribute) : a.toJson.depth ≤ 3 := by
  have htargets : (Json.ofList .string a.targets).depth ≤ 2 :=
    Json.depth_ofList_le_succ fun t _ => Nat.zero_le _
  have hoptions : (Json.ofList OptionLabel.toJson a.options).depth ≤ 2 :=
    Json.depth_ofList_le_succ fun o _ => o.depth_toJson_le
  exact Json.depth_object_le_succ (by simp [Json.depth, htargets, hoptions])

end Attribute

/-! ## Entity types -/

namespace Entity

theorem gives_toJson {e : Entity} (h : NameMap.Sorted e.attributes) :
    Gives ofJson? e.toJson e := by
  have hname := Json.gives_string e.name
  have hprimaryId := Json.gives_string e.primaryId
  have hprimaryName := Json.gives_optionalString e.primaryName
  have hattributes : Gives (Json.map? Attribute.ofJson?) (.ofMap Attribute.toJson e.attributes)
      (e.attributes.map fun a => (a.1, id a.2)) := .map h fun a _ => a.2.gives_toJson
  simp only [id, List.map_id'] at hattributes
  refine .fields ?_ fun depth hdepth => ?_
  · simp [hname.readable, hprimaryId.readable, hprimaryName.readable, hattributes.readable]
  · have hattributes := hattributes.read_eq depth
      (hdepth ("attributes", .ofMap Attribute.toJson e.attributes) (by simp))
    rw [Json.field?_then (by simp [Json.valuesOf]) hname.eq_some,
      Json.field?_then (by simp [Json.valuesOf]) hprimaryId.eq_some,
      Json.fieldOrNull?_then (by simp [Json.valuesOf]) hprimaryName.eq_some,
      Json.field?_then (by simp [Json.valuesOf]) hattributes]

theorem depth_toJson_le (e : Entity) : e.toJson.depth ≤ 5 := by
  have hprimaryName : (Json.ofOption .string e.primaryName).depth ≤ 4 := by
    cases e.primaryName <;> exact Nat.zero_le _
  have hattributes : (Json.ofMap Attribute.toJson e.attributes).depth ≤ 4 :=
    Json.depth_ofMap_le_succ fun a _ => a.2.depth_toJson_le
  exact Json.depth_object_le_succ (by simp [Json.depth, hprimaryName, hattributes])

end Entity

/-! ## Schemas -/

namespace Schema

/-- Entity types and attributes stand in the order of maps. -/
structure Ordered (s : Schema) : Prop where
  entities : NameMap.Sorted s.entities
  attributes : ∀ e ∈ s.entities, NameMap.Sorted e.2.attributes

instance (s : Schema) : Decidable s.Ordered :=
  decidable_of_iff
    (NameMap.Sorted s.entities ∧ ∀ e ∈ s.entities, NameMap.Sorted e.2.attributes)
    ⟨fun h => ⟨h.1, h.2⟩, fun h => ⟨h.entities, h.attributes⟩⟩

end Schema

/-- A schema whose entity types and attributes stand in order. -/
structure OrderedSchema extends Schema where
  ordered : toSchema.Ordered

namespace Schema

/-- The JSON form of a schema with its entity types as they are listed. -/
def toJsonIn (s : Schema) (listed : List (String × Entity)) : Json :=
  toJson { s with entities := listed }

/-- The JSON text of a schema with its entity types as they are listed. -/
def textIn (s : Schema) (listed : List (String × Entity)) : String := (s.toJsonIn listed).text

variable {s : Schema} {listed : List (String × Entity)}

theorem gives_toJsonIn (h : s.Ordered) (hlisted : listed.Perm s.entities) :
    Gives ofJson? (s.toJsonIn listed) s := by
  have hversion := Json.gives_uint64 s.version.toNat_lt
  have hcreated := s.createdAt.gives_toJson
  have hentities : Gives (Json.map? Entity.ofJson?) (.ofMap Entity.toJson listed)
      (s.entities.map fun e => (e.1, id e.2)) :=
    .entries h.entities hlisted fun e he => Entity.gives_toJson (h.attributes e he)
  rw [UInt64.ofNat_toNat] at hversion
  simp only [id, List.map_id'] at hentities
  refine .fields ?_ fun depth hdepth => ?_
  · simp [hversion.readable, hcreated.readable, hentities.readable]
  · have hentities := hentities.read_eq depth
      (hdepth ("entities", .ofMap Entity.toJson listed) (by simp))
    rw [Json.field?_then (by simp [Json.valuesOf]) hversion.eq_some,
      Json.field?_then (by simp [Json.valuesOf]) hcreated.eq_some,
      Json.field?_then (by simp [Json.valuesOf]) hentities]

theorem depth_toJsonIn_le (s : Schema) (listed : List (String × Entity)) :
    (s.toJsonIn listed).depth ≤ 7 := by
  have hcreated : s.createdAt.toJson.depth ≤ 6 := Nat.zero_le _
  have hentities : (Json.ofMap Entity.toJson listed).depth ≤ 6 :=
    Json.depth_ofMap_le_succ fun e _ => e.2.depth_toJson_le
  exact Json.depth_object_le_succ (by simp [Json.depth, hcreated, hentities])

/-- **Schemas survive their JSON text**, whatever order it lists their entity types in. -/
theorem ofText?_textIn (s : OrderedSchema) :
    ofText? s.text = some s.toSchema ∧
      ∀ listed : List (String × Entity), listed.Perm s.entities →
        ofText? (s.textIn listed) = some s.toSchema := by
  have hread : ∀ listed : List (String × Entity), listed.Perm s.entities →
      ofText? (s.textIn listed) = some s.toSchema := fun listed hlisted =>
    (gives_toJsonIn s.ordered hlisted).of_text
      (Nat.le_trans (s.depth_toJsonIn_le listed) (by decide))
  exact ⟨hread s.entities (.refl _), hread⟩

end Schema

namespace Sample

/-- A code with a label that has to be escaped. -/
def mood : Attribute :=
  ⟨"Mood", .multiSelect, ["Account", "contact"], [⟨-2147483648, "so \"so\"\n\\ é 🦀"⟩, ⟨0, ""⟩]⟩

/-- The last version of a schema, made within a leap second, with an entity type that is not in
lower case. -/
def lastSchema : Schema where
  version := 18446744073709551615
  createdAt :=
    ⟨default, 86399, 1999999999, Nat.lt_succ_self _, Nat.lt_succ_self _, fun _ => rfl⟩
  entities := [("Contact", contact.withAttribute mood), ("account", account)]

/-- The text that lists the entity types in the other order is another text of the schema. -/
theorem ofText?_textIn_lastSchema :
    lastSchema.Ordered ∧ lastSchema.entities.reverse.Perm lastSchema.entities ∧
      lastSchema.textIn lastSchema.entities.reverse ≠ lastSchema.text ∧
      Schema.ofText? lastSchema.text = some lastSchema ∧
      Schema.ofText? (lastSchema.textIn lastSchema.entities.reverse) = some lastSchema := by
  have hordered : lastSchema.Ordered := by decide +kernel
  have hlisted : lastSchema.entities.reverse.Perm lastSchema.entities := List.reverse_perm _
  have hchars : (lastSchema.toJsonIn lastSchema.entities.reverse).chars ≠
      lastSchema.toJson.chars := by decide +kernel
  obtain ⟨htext, hlistings⟩ := Schema.ofText?_textIn ⟨lastSchema, hordered⟩
  exact ⟨hordered, hlisted, fun heq => hchars (String.ofList_injective heq), htext,
    hlistings _ hlisted⟩

end Sample

end RecordQuery
