import RecordQuery.Proofs.Store
import RecordQuery.Proofs.Text.LetterCase
import RecordQuery.Query.Plan

/-!
# Names are stored in lower case

The functions that build records, entity types and schemas store every name in lower case.  So a
lookup, which tries a name as it is written and then its lower case, finds what stands under the
lower case (`NameMap.Lower.lookup?_eq`), and names that are alike find the same
(`NameMap.Lower.lookup?_congr`).

`Record.Canonical`, `Entity.Canonical` and `Schema.Canonical` say this of what is stored, and they
are kept by every function that builds; `Database.Canonical` is what queries rely on.  A
`CanonicalSchema` and a `CanonicalDatabase` carry it.
-/

namespace RecordQuery

open Text

/-! ## Maps -/

namespace NameMap

/-- All names are in lower case. -/
def Lower (m : NameMap α) : Prop := ∀ e ∈ m, lowercase e.1 = e.1

instance (m : NameMap α) : Decidable (Lower m) :=
  inferInstanceAs (Decidable (∀ e ∈ m, lowercase e.1 = e.1))

namespace Lower

variable {m : NameMap α}

theorem insert (h : Lower m) {n : String} (hn : lowercase n = n) (a : α) :
    Lower (NameMap.insert m n a) := by
  intro e he
  rcases mem_insert he with rfl | hold
  · exact hn
  · exact h e hold

theorem insertNew (h : Lower m) {n : String} (hn : lowercase n = n) (a : α) :
    Lower (NameMap.insertNew m n a) := by
  intro e he
  rcases mem_insertNew he with rfl | hold
  · exact hn
  · exact h e hold

theorem erase (h : Lower m) (n : String) : Lower (NameMap.erase m n) :=
  fun e he => h e ((erase_sublist n m).mem he)

/-- A lookup finds what stands under the lower case of a name. -/
theorem lookup?_eq (h : Lower m) (n : String) : lookup? m n = get? m (lowercase n) := by
  unfold lookup?
  cases hfound : get? m n with
  | none => rfl
  | some a =>
      have hn : lowercase n = n := h _ (mem_of_get? hfound)
      rw [hn, hfound]
      rfl

/-- Names that are alike find the same. -/
theorem lookup?_congr (h : Lower m) {n n' : String} (hn : asciiLower n = asciiLower n') :
    lookup? m n = lookup? m n' := by
  rw [h.lookup?_eq, h.lookup?_eq, lowercase_congr hn]

end Lower

end NameMap

/-! ## Records -/

/-- The attributes and display texts stand in the order of maps and under names in lower case. -/
structure Record.Canonical (r : Record) : Prop extends r.Sorted where
  lowerAttributes : NameMap.Lower r.attributes
  lowerFormatted : NameMap.Lower r.formatted

instance (r : Record) : Decidable r.Canonical :=
  decidable_of_iff (r.Sorted ∧ NameMap.Lower r.attributes ∧ NameMap.Lower r.formatted)
    ⟨fun h => ⟨h.1, h.2.1, h.2.2⟩, fun h => ⟨h.toSorted, h.lowerAttributes, h.lowerFormatted⟩⟩

namespace Record

variable {r : Record}

theorem canonical_new (entity : String) (id : RecordId) : (new entity id).Canonical where
  toSorted := sorted_new entity id
  lowerAttributes _ he := nomatch he
  lowerFormatted _ he := nomatch he

namespace Canonical

variable (h : r.Canonical)

include h

theorem set (name : String) (v : Value) : (r.set name v).Canonical where
  toSorted := h.toSorted.set name v
  lowerAttributes := h.lowerAttributes.insert (lowercase_lowercase name) v
  lowerFormatted := h.lowerFormatted

theorem erase (name : String) : (r.erase name).Canonical where
  toSorted := h.toSorted.erase name
  lowerAttributes := h.lowerAttributes.erase _
  lowerFormatted := h.lowerFormatted

theorem setFormatted (name text : String) : (r.setFormatted name text).Canonical where
  toSorted := h.toSorted.setFormatted name text
  lowerAttributes := h.lowerAttributes
  lowerFormatted := h.lowerFormatted.insert (lowercase_lowercase name) text

theorem get?_congr {n n' : String} (hn : asciiLower n = asciiLower n') : r.get? n = r.get? n' :=
  h.lowerAttributes.lookup?_congr hn

theorem formatted?_congr {n n' : String} (hn : asciiLower n = asciiLower n') :
    r.formatted? n = r.formatted? n' :=
  h.lowerFormatted.lookup?_congr hn

end Canonical

end Record

/-! ## Entity types -/

/-- All names of the entity type are in lower case. -/
structure Entity.Canonical (e : Entity) : Prop where
  name : lowercase e.name = e.name
  primaryId : lowercase e.primaryId = e.primaryId
  attributes : NameMap.Lower e.attributes

instance (e : Entity) : Decidable e.Canonical :=
  decidable_of_iff (lowercase e.name = e.name ∧ lowercase e.primaryId = e.primaryId ∧
      NameMap.Lower e.attributes)
    ⟨fun h => ⟨h.1, h.2.1, h.2.2⟩, fun h => ⟨h.name, h.primaryId, h.attributes⟩⟩

/-- An attribute is named in lower case; targets and options do not change its name. -/
theorem Attribute.lowercase_name_new (name : String) (type : AttributeType) :
    lowercase (new name type).name = (new name type).name :=
  lowercase_lowercase name

namespace Entity

variable {e : Entity}

theorem canonical_new (name primaryId : String) : (new name primaryId).Canonical where
  name := lowercase_lowercase name
  primaryId := lowercase_lowercase primaryId
  attributes := List.forall_mem_singleton.mpr (lowercase_lowercase primaryId)

namespace Canonical

variable (h : e.Canonical)

include h

theorem withPrimaryName (name : String) : (e.withPrimaryName name).Canonical where
  name := h.name
  primaryId := h.primaryId
  attributes := h.attributes.insertNew (lowercase_lowercase name) _

theorem withAttribute {a : Attribute} (ha : lowercase a.name = a.name) :
    (e.withAttribute a).Canonical where
  name := h.name
  primaryId := h.primaryId
  attributes := h.attributes.insert ha a

theorem attribute?_congr {n n' : String} (hn : asciiLower n = asciiLower n') :
    e.attribute? n = e.attribute? n' :=
  h.attributes.lookup?_congr hn

theorem declares_congr {n n' : String} (hn : asciiLower n = asciiLower n') :
    e.declares n = e.declares n' := by
  rw [declares, declares, h.attribute?_congr hn]

end Canonical

end Entity

/-! ## Schemas -/

/-- The entity types stand under names in lower case, and their own names are in lower case. -/
structure Schema.Canonical (s : Schema) : Prop where
  names : NameMap.Lower s.entities
  entities : ∀ p ∈ s.entities, p.2.Canonical

instance (s : Schema) : Decidable s.Canonical :=
  decidable_of_iff (NameMap.Lower s.entities ∧ ∀ p ∈ s.entities, p.2.Canonical)
    ⟨fun h => ⟨h.1, h.2⟩, fun h => ⟨h.names, h.entities⟩⟩

namespace Schema

theorem canonical_empty (version : UInt64) (createdAt : Instant) :
    (empty version createdAt).Canonical :=
  ⟨fun _ he => (nomatch he), fun _ he => (nomatch he)⟩

theorem Canonical.addEntity {s : Schema} (h : s.Canonical) {e : Entity} (he : e.Canonical) :
    (s.addEntity e).Canonical where
  names := h.names.insert he.name e
  entities p hp := by
    rcases NameMap.mem_insert hp with rfl | hold
    · exact he
    · exact h.entities p hold

theorem canonical_ofEntities (version : UInt64) (createdAt : Instant) {es : List Entity}
    (hes : ∀ e ∈ es, e.Canonical) : (ofEntities version createdAt es).Canonical := by
  suffices h : ∀ s : Schema, s.Canonical → (es.foldl Schema.addEntity s).Canonical from
    h _ (canonical_empty version createdAt)
  induction es with
  | nil => exact fun s hs => hs
  | cons e es ih =>
      obtain ⟨hfirst, hrest⟩ := List.forall_mem_cons.mp hes
      exact fun s hs => ih hrest _ (hs.addEntity hfirst)

theorem Canonical.entity? {s : Schema} (h : s.Canonical) {name : String} {e : Entity}
    (he : s.entity? name = some e) : e.Canonical := by
  rw [Schema.entity?, h.names.lookup?_eq] at he
  exact h.entities _ (NameMap.mem_of_get? he)

end Schema

/-- A schema of names in lower case, as `Schema.empty` and `Schema.addEntity` build it from entity
types. -/
structure CanonicalSchema extends Schema where
  canonical : toSchema.Canonical

instance : Coe CanonicalSchema Schema := ⟨CanonicalSchema.toSchema⟩

/-! ## Stores and databases -/

/-- All records of the store are canonical. -/
def Store.Canonical (s : Store) : Prop := ∀ entity, ∀ r ∈ s.records entity, r.Canonical

namespace Store

variable {s : Store}

theorem canonical_empty : empty.Canonical := by
  intro entity r hr
  cases hr

theorem Canonical.insert (h : s.Canonical) {r : Record} (hr : r.Canonical) :
    (s.insert r).2.Canonical :=
  forall_records_insert h hr

theorem Canonical.erase (h : s.Canonical) (entity : String) (id : RecordId) :
    (s.erase entity id).2.Canonical :=
  forall_records_erase h entity id

/-- Records are read under names in lower case, their primary identifiers included. -/
theorem Canonical.snapshot (h : s.Canonical) {e : Entity} (he : e.Canonical) :
    ∀ r ∈ s.snapshot e, r.Canonical := by
  intro r hr
  obtain ⟨stored, hstored, rfl⟩ := List.mem_map.mp hr
  have hcanonical := h e.name stored hstored
  exact
    { attributes := hcanonical.attributes.insertNew _ _
      formatted := hcanonical.formatted
      lowerAttributes := hcanonical.lowerAttributes.insertNew he.primaryId _
      lowerFormatted := hcanonical.lowerFormatted }

end Store

/-- The names of a database are in lower case, as all that is built by its constructors. -/
structure Database.Canonical (db : Database) : Prop where
  store : db.store.Canonical
  schema : db.schema.Canonical

/-- A database of names in lower case. -/
structure CanonicalDatabase extends Database where
  canonical : toDatabase.Canonical

instance : Coe CanonicalDatabase Database := ⟨CanonicalDatabase.toDatabase⟩

end RecordQuery
