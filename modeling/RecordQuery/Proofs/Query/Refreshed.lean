import RecordQuery.Proofs.Canonical
import RecordQuery.Query.Projection

/-!
# Values with current names

A value is shown with the current names of the references in it and is otherwise the value that is
stored.  `Database.Refreshed` says so part by part: what has no part is the same, a wrapper keeps
where its value came from, and records keep their identifiers, the names of their attributes and
their display texts.

*Names.*  A reference is named by the primary name of its record (`Database.Names`), if its entity
type has one, the record is stored and has a text there.  Otherwise it keeps the name it has.

*Once.*  Where entity types stand under names in lower case, a reference and its refreshed form find
one entity type and one record.  So what is refreshed has current names and is not changed by
refreshing it again (`Database.refresh_refresh`).
-/

namespace RecordQuery

open Text

/-! ## References -/

namespace Database

/-- The record that a reference points at is stored and has the text as its primary name.  A store
that changes made finds it just when it stands among the records of the entity type, with the
identifier of the reference (`Store.ordered_map_after`). -/
def Names (db : Database) (r : Reference) (text : String) : Prop :=
  ∃ e name record v, db.schema.entity? r.entity = some e ∧ e.primaryName = some name ∧
    db.store.find? r.entity r.id = some record ∧ record.get? name = some v ∧
      v.unaliased = .text text

theorem currentName?_eq_some_iff {db : Database} {r : Reference} {text : String} :
    db.currentName? r = some text ↔ db.Names r text := by
  have htext : ∀ v : Value, v.text? = some text ↔ v.unaliased = .text text := by
    intro v
    rw [Value.text?]
    cases v.unaliased <;> simp
  simp only [currentName?, Names, Option.bind_eq_bind, Option.bind_eq_some_iff, htext,
    exists_and_left]

end Database

/-! ## Values -/

/-- The value is no reference and has none in it. -/
def Value.HasNoParts (v : Value) : Prop :=
  v.kind ≠ .reference ∧ v.kind ≠ .collection ∧ v.kind ≠ .aliased

namespace Database

mutual

/-- The second value is the first with current names, and with entity types in lower case. -/
inductive Refreshed (db : Database) : Value → Value → Prop
  | named {r : Reference} {text : String} : db.Names r text →
      Refreshed db (.reference r) (.reference ⟨lowercase r.entity, r.id, some text, r.keys⟩)
  | unnamed {r : Reference} : (∀ text, ¬db.Names r text) →
      Refreshed db (.reference r) (.reference ⟨lowercase r.entity, r.id, r.name, r.keys⟩)
  | records {rs ss : List Record} : RefreshedRecords db rs ss →
      Refreshed db (.records rs) (.records ss)
  | aliased (entity name : String) {v w : Value} : Refreshed db v w →
      Refreshed db (.aliased ⟨entity, name, v⟩) (.aliased ⟨entity, name, w⟩)
  | same {v : Value} : v.HasNoParts → Refreshed db v v

/-- Records are refreshed one by one. -/
inductive RefreshedRecords (db : Database) : List Record → List Record → Prop
  | nil : RefreshedRecords db [] []
  | cons (entity : String) (id : RecordId) {as bs : List (String × Value)}
      (formatted : List (String × String)) {rs ss : List Record} :
      RefreshedAttributes db as bs → RefreshedRecords db rs ss →
        RefreshedRecords db (⟨entity, id, as, formatted⟩ :: rs)
          (⟨lowercase entity, id, bs, formatted⟩ :: ss)

/-- Attributes are refreshed one by one under their names. -/
inductive RefreshedAttributes (db : Database) :
    List (String × Value) → List (String × Value) → Prop
  | nil : RefreshedAttributes db [] []
  | cons (name : String) {v w : Value} {as bs : List (String × Value)} : Refreshed db v w →
      RefreshedAttributes db as bs → RefreshedAttributes db ((name, v) :: as) ((name, w) :: bs)

end

theorem refreshed_reference (db : Database) (r : Reference) :
    db.Refreshed (.reference r) (.reference (db.refreshReference r)) := by
  rw [refreshReference]
  cases hname : db.currentName? r with
  | some text => exact .named (currentName?_eq_some_iff.mp hname)
  | none =>
      refine .unnamed fun text htext => ?_
      rw [currentName?_eq_some_iff.mpr htext] at hname
      cases hname

mutual

/-- A value is shown refreshed. -/
theorem refreshed_refresh (db : Database) : ∀ v, db.Refreshed v (db.refresh v)
  | .reference r => by
      rw [refresh]
      exact db.refreshed_reference r
  | .records rs => by
      rw [refresh]
      exact .records (refreshedRecords_refreshRecords db rs)
  | .aliased ⟨entity, name, v⟩ => by
      rw [refresh]
      exact .aliased entity name (refreshed_refresh db v)
  | .null | .bool _ | .int _ | .bigint _ | .double _ | .decimal _ | .text _ | .instant _
  | .recordId _ | .bytes _ | .option _ | .money _ | .options _ =>
      .same ⟨nofun, nofun, nofun⟩

theorem refreshedRecords_refreshRecords (db : Database) :
    ∀ rs, db.RefreshedRecords rs (db.refreshRecords rs)
  | [] => .nil
  | ⟨entity, id, attributes, formatted⟩ :: rs =>
      .cons entity id formatted (refreshedAttributes_refreshAttributes db attributes)
        (refreshedRecords_refreshRecords db rs)

theorem refreshedAttributes_refreshAttributes (db : Database) :
    ∀ as, db.RefreshedAttributes as (db.refreshAttributes as)
  | [] => .nil
  | (name, v) :: as =>
      .cons name (refreshed_refresh db v) (refreshedAttributes_refreshAttributes db as)

end

/-! ## Once -/

section Once

variable {db : Database}

/-- A reference and its refreshed form have one current name. -/
theorem currentName?_lowercase (h : db.schema.Canonical) (r : Reference)
    (name : Option String) :
    db.currentName? ⟨lowercase r.entity, r.id, name, r.keys⟩ = db.currentName? r := by
  have hentity : db.schema.entity? (lowercase r.entity) = db.schema.entity? r.entity := by
    rw [Schema.entity?, Schema.entity?, h.names.lookup?_eq, h.names.lookup?_eq,
      lowercase_lowercase]
  have hrecord : db.store.find? (lowercase r.entity) r.id = db.store.find? r.entity r.id := by
    rw [Store.find?, Store.find?, Store.table, Store.table, lowercase_lowercase]
  rw [currentName?, currentName?, hentity, hrecord]

theorem refreshReference_refreshReference (h : db.schema.Canonical) (r : Reference) :
    db.refreshReference (db.refreshReference r) = db.refreshReference r := by
  simp only [refreshReference, currentName?_lowercase h, lowercase_lowercase]
  cases db.currentName? r <;> rfl

mutual

/-- **Refreshing once is enough.** -/
theorem refresh_refresh (h : db.schema.Canonical) : ∀ v, db.refresh (db.refresh v) = db.refresh v
  | .reference r => by
      rw [refresh, refresh, refreshReference_refreshReference h]
  | .records rs => by
      rw [refresh, refresh, refreshRecords_refreshRecords h rs]
  | .aliased ⟨entity, name, v⟩ => by
      rw [refresh, refresh, refresh_refresh h v]
  | .null | .bool _ | .int _ | .bigint _ | .double _ | .decimal _ | .text _ | .instant _
  | .recordId _ | .bytes _ | .option _ | .money _ | .options _ => rfl

theorem refreshRecords_refreshRecords (h : db.schema.Canonical) :
    ∀ rs, db.refreshRecords (db.refreshRecords rs) = db.refreshRecords rs
  | [] => rfl
  | ⟨entity, id, attributes, formatted⟩ :: rs => by
      rw [refreshRecords, refreshRecords, lowercase_lowercase,
        refreshAttributes_refreshAttributes h attributes, refreshRecords_refreshRecords h rs]

theorem refreshAttributes_refreshAttributes (h : db.schema.Canonical) :
    ∀ as, db.refreshAttributes (db.refreshAttributes as) = db.refreshAttributes as
  | [] => rfl
  | (name, v) :: as => by
      rw [refreshAttributes, refreshAttributes, refresh_refresh h v,
        refreshAttributes_refreshAttributes h as]

end

end Once

end Database

end RecordQuery
