import Mathlib.Data.List.Forall2
import RecordQuery.Proofs.Query.Refreshed

/-!
# What refreshing changes

Refreshing goes through the wrappers and the nested records of a value and changes two kinds of
parts on its way: the references, those in alternate keys apart, and the entity types of records
(`Database.refresh_eq_mapParts`).

*Parts.*  `Value.parts` lists them in order, and `Value.bare` is what is left of a value without
them.  Both together are the value (`Value.eq_of_mapParts`).

*Refreshing.*  What is left is not changed by refreshing, a reference keeps everything but its name
and the letter case of its entity type, and entity types are put in lower case.  No other value is
related to the first one in this way (`Database.refresh_eq_iff`).
-/

namespace RecordQuery

open Text

/-! ## Parts -/

mutual

/-- The references in a value and the entity types of the records in it, in order; nothing that
stands in alternate keys. -/
def Value.parts : Value → List (Reference ⊕ String)
  | .reference r => [.inl r]
  | .records rs => recordsParts rs
  | .aliased ⟨_, _, v⟩ => v.parts
  | _ => []

def recordsParts : List Record → List (Reference ⊕ String)
  | [] => []
  | ⟨entity, _, attributes, _⟩ :: rs => .inr entity :: (attributesParts attributes ++ recordsParts rs)

def attributesParts : List (String × Value) → List (Reference ⊕ String)
  | [] => []
  | (_, v) :: as => v.parts ++ attributesParts as

end

mutual

/-- Changes every reference in a value and every entity type of a record in it. -/
def Value.mapParts (f : Reference → Reference) (g : String → String) : Value → Value
  | .reference r => .reference (f r)
  | .records rs => .records (recordsMapParts f g rs)
  | .aliased ⟨entity, name, v⟩ => .aliased ⟨entity, name, v.mapParts f g⟩
  | v => v

def recordsMapParts (f : Reference → Reference) (g : String → String) : List Record → List Record
  | [] => []
  | ⟨entity, id, attributes, formatted⟩ :: rs =>
    ⟨g entity, id, attributesMapParts f g attributes, formatted⟩ :: recordsMapParts f g rs

def attributesMapParts (f : Reference → Reference) (g : String → String) :
    List (String × Value) → List (String × Value)
  | [] => []
  | (name, v) :: as => (name, v.mapParts f g) :: attributesMapParts f g as

end

/-- What is left of a value without the entity types and names of its references and without the
entity types of its records. -/
def Value.bare (v : Value) : Value :=
  v.mapParts (fun r => ⟨"", r.id, none, r.keys⟩) fun _ => ""

section Maps

variable {f f' : Reference → Reference} {g g' : String → String}

theorem Value.HasNoParts.mapParts_eq {v : Value} (h : v.HasNoParts) : v.mapParts f g = v := by
  cases v with
  | reference r => exact absurd rfl h.1
  | records rs => exact absurd rfl h.2.1
  | aliased c => exact absurd rfl h.2.2
  | _ => rfl

/-- Changing parts does not change the kind of a value. -/
theorem Value.kind_mapParts : ∀ v : Value, (v.mapParts f g).kind = v.kind
  | .aliased ⟨_, _, _⟩ => rfl
  | .null | .bool _ | .int _ | .bigint _ | .double _ | .decimal _ | .text _ | .instant _
  | .recordId _ | .bytes _ | .reference _ | .option _ | .money _ | .options _ | .records _ => rfl

mutual

/-- The parts of a changed value are the changed parts. -/
theorem Value.parts_mapParts : ∀ v : Value, (v.mapParts f g).parts = v.parts.map (Sum.map f g)
  | .reference _ => rfl
  | .records rs => recordsParts_mapParts rs
  | .aliased ⟨_, _, v⟩ => v.parts_mapParts
  | .null | .bool _ | .int _ | .bigint _ | .double _ | .decimal _ | .text _ | .instant _
  | .recordId _ | .bytes _ | .option _ | .money _ | .options _ => rfl

theorem recordsParts_mapParts : ∀ rs : List Record,
    recordsParts (recordsMapParts f g rs) = (recordsParts rs).map (Sum.map f g)
  | [] => rfl
  | ⟨entity, id, attributes, formatted⟩ :: rs => by
      rw [recordsMapParts, recordsParts, recordsParts, attributesParts_mapParts attributes,
        recordsParts_mapParts rs, List.map_cons, List.map_append, Sum.map_inr]

theorem attributesParts_mapParts : ∀ as : List (String × Value),
    attributesParts (attributesMapParts f g as) = (attributesParts as).map (Sum.map f g)
  | [] => rfl
  | (name, v) :: as => by
      rw [attributesMapParts, attributesParts, attributesParts, v.parts_mapParts,
        attributesParts_mapParts as, List.map_append]

end

mutual

/-- Changing parts twice is changing them once. -/
theorem Value.mapParts_mapParts : ∀ v : Value,
    (v.mapParts f g).mapParts f' g' = v.mapParts (f' ∘ f) (g' ∘ g)
  | .reference _ => rfl
  | .records rs => by
      rw [Value.mapParts, Value.mapParts, Value.mapParts, recordsMapParts_mapParts rs]
  | .aliased ⟨entity, name, v⟩ => by
      rw [Value.mapParts, Value.mapParts, Value.mapParts, v.mapParts_mapParts]
  | .null | .bool _ | .int _ | .bigint _ | .double _ | .decimal _ | .text _ | .instant _
  | .recordId _ | .bytes _ | .option _ | .money _ | .options _ => rfl

theorem recordsMapParts_mapParts : ∀ rs : List Record,
    recordsMapParts f' g' (recordsMapParts f g rs) = recordsMapParts (f' ∘ f) (g' ∘ g) rs
  | [] => rfl
  | ⟨entity, id, attributes, formatted⟩ :: rs => by
      rw [recordsMapParts, recordsMapParts, recordsMapParts, attributesMapParts_mapParts attributes,
        recordsMapParts_mapParts rs, Function.comp_apply]

theorem attributesMapParts_mapParts : ∀ as : List (String × Value),
    attributesMapParts f' g' (attributesMapParts f g as) = attributesMapParts (f' ∘ f) (g' ∘ g) as
  | [] => rfl
  | (name, v) :: as => by
      rw [attributesMapParts, attributesMapParts, attributesMapParts, v.mapParts_mapParts,
        attributesMapParts_mapParts as]

end

end Maps

/-! ## Bare values -/

section Bare

variable {f : Reference → Reference} {g : String → String}

theorem Value.kind_congr {v w : Value} (h : v.mapParts f g = w.mapParts f g) :
    v.kind = w.kind := by
  rw [← v.kind_mapParts, h, w.kind_mapParts]

theorem Value.length_parts_congr {v w : Value} (h : v.mapParts f g = w.mapParts f g) :
    v.parts.length = w.parts.length := by
  simpa only [parts_mapParts, List.length_map] using congrArg (fun v => v.parts.length) h

theorem length_attributesParts_congr {as bs : List (String × Value)}
    (h : attributesMapParts f g as = attributesMapParts f g bs) :
    (attributesParts as).length = (attributesParts bs).length := by
  simpa only [attributesParts_mapParts, List.length_map] using
    congrArg (fun as => (attributesParts as).length) h

theorem Value.HasNoParts.eq_of_mapParts {v w : Value} (hv : v.HasNoParts)
    (h : v.mapParts f g = w.mapParts f g) : v = w := by
  have hw : w.HasNoParts := by rwa [HasNoParts, ← kind_congr h]
  rwa [hv.mapParts_eq, hw.mapParts_eq] at h

mutual

/-- Values that have the same parts, and are the same when these are changed, are the same. -/
theorem Value.eq_of_mapParts : ∀ {v w : Value}, v.mapParts f g = w.mapParts f g →
    v.parts = w.parts → v = w
  | .reference r, w, h, hparts => by
      have hkind := Value.kind_congr h
      cases w with
      | reference s =>
          cases hparts
          rfl
      | _ => cases hkind
  | .records rs, w, h, hparts => by
      have hkind := Value.kind_congr h
      cases w with
      | records ss =>
          injection h with h
          rw [recordsEq_of_mapParts h hparts]
      | _ => cases hkind
  | .aliased ⟨entity, name, v⟩, w, h, hparts => by
      have hkind := Value.kind_congr h
      cases w with
      | aliased c =>
          obtain ⟨entity', name', w⟩ := c
          injection h with h
          injection h with hentity hname h
          rw [hentity, hname, v.eq_of_mapParts h hparts]
      | _ => cases hkind
  | .null, w, h, _ | .bool _, w, h, _ | .int _, w, h, _ | .bigint _, w, h, _ | .double _, w, h, _
  | .decimal _, w, h, _ | .text _, w, h, _ | .instant _, w, h, _ | .recordId _, w, h, _
  | .bytes _, w, h, _ | .option _, w, h, _ | .money _, w, h, _ | .options _, w, h, _ =>
      Value.HasNoParts.eq_of_mapParts ⟨nofun, nofun, nofun⟩ h

theorem recordsEq_of_mapParts : ∀ {rs ss : List Record},
    recordsMapParts f g rs = recordsMapParts f g ss → recordsParts rs = recordsParts ss → rs = ss
  | [], [], _, _ => rfl
  | [], ⟨_, _, _, _⟩ :: _, h, _ => nomatch h
  | ⟨_, _, _, _⟩ :: _, [], h, _ => nomatch h
  | ⟨entity, id, as, formatted⟩ :: rs, ⟨entity', id', bs, formatted'⟩ :: ss, h, hparts => by
      rw [recordsMapParts, recordsMapParts, List.cons.injEq, Record.mk.injEq] at h
      obtain ⟨⟨-, hid, has, hformatted⟩, hrs⟩ := h
      rw [recordsParts, recordsParts, List.cons.injEq, Sum.inr.injEq] at hparts
      obtain ⟨hentity, hparts⟩ := hparts
      -- equally many parts are those of the first record
      obtain ⟨hfirst, hrest⟩ := List.append_inj hparts (length_attributesParts_congr has)
      rw [hentity, hid, hformatted, attributesEq_of_mapParts has hfirst,
        recordsEq_of_mapParts hrs hrest]

theorem attributesEq_of_mapParts : ∀ {as bs : List (String × Value)},
    attributesMapParts f g as = attributesMapParts f g bs →
      attributesParts as = attributesParts bs → as = bs
  | [], [], _, _ => rfl
  | [], (_, _) :: _, h, _ => nomatch h
  | (_, _) :: _, [], h, _ => nomatch h
  | (name, v) :: as, (name', w) :: bs, h, hparts => by
      rw [attributesMapParts, attributesMapParts, List.cons.injEq, Prod.mk.injEq] at h
      obtain ⟨⟨hname, hv⟩, has⟩ := h
      obtain ⟨hfirst, hrest⟩ := List.append_inj hparts (Value.length_parts_congr hv)
      rw [hname, Value.eq_of_mapParts hv hfirst, attributesEq_of_mapParts has hrest]

end

end Bare

namespace Database

variable {db : Database}

/-! ## Refreshing -/

mutual

/-- Refreshing changes the parts of a value. -/
theorem refresh_eq_mapParts (db : Database) : ∀ v : Value,
    db.refresh v = v.mapParts db.refreshReference lowercase
  | .reference _ => rfl
  | .records rs => by
      rw [refresh, Value.mapParts, refreshRecords_eq_mapParts db rs]
  | .aliased ⟨entity, name, v⟩ => by
      rw [refresh, Value.mapParts, refresh_eq_mapParts db v]
  | .null | .bool _ | .int _ | .bigint _ | .double _ | .decimal _ | .text _ | .instant _
  | .recordId _ | .bytes _ | .option _ | .money _ | .options _ => rfl

theorem refreshRecords_eq_mapParts (db : Database) : ∀ rs : List Record,
    db.refreshRecords rs = recordsMapParts db.refreshReference lowercase rs
  | [] => rfl
  | ⟨entity, id, attributes, formatted⟩ :: rs => by
      rw [refreshRecords, recordsMapParts, refreshAttributes_eq_mapParts db attributes,
        refreshRecords_eq_mapParts db rs]

theorem refreshAttributes_eq_mapParts (db : Database) : ∀ as : List (String × Value),
    db.refreshAttributes as = attributesMapParts db.refreshReference lowercase as
  | [] => rfl
  | (name, v) :: as => by
      rw [refreshAttributes, attributesMapParts, refresh_eq_mapParts db v,
        refreshAttributes_eq_mapParts db as]

end

/-- What is left without its parts is not changed. -/
theorem bare_refresh (db : Database) (v : Value) : (db.refresh v).bare = v.bare := by
  rw [refresh_eq_mapParts, Value.bare, Value.mapParts_mapParts]
  rfl

/-- The parts are changed one by one. -/
theorem parts_refresh (db : Database) (v : Value) :
    (db.refresh v).parts = v.parts.map (Sum.map db.refreshReference lowercase) := by
  rw [refresh_eq_mapParts, Value.parts_mapParts]

/-- The second reference is the first with its current name. -/
structure Renamed (db : Database) (r s : Reference) : Prop where
  entity : s.entity = lowercase r.entity
  id : s.id = r.id
  keys : s.keys = r.keys
  /-- It is named by the record that it points at, -/
  current : ∀ text, db.Names r text → s.name = some text
  /-- and keeps its name where that is not stored or has no name. -/
  kept : (∀ text, ¬ db.Names r text) → s.name = r.name

theorem renamed_iff {r s : Reference} : db.Renamed r s ↔ s = db.refreshReference r := by
  constructor
  · rintro ⟨hentity, hid, hkeys, hcurrent, hkept⟩
    have hname : s.name = (db.currentName? r).orElse fun _ => r.name := by
      cases hfound : db.currentName? r with
      | some text => exact hcurrent text (currentName?_eq_some_iff.mp hfound)
      | none =>
          refine hkept fun text htext => ?_
          rw [currentName?_eq_some_iff.mpr htext] at hfound
          cases hfound
    obtain ⟨entity, id, name, keys⟩ := s
    cases hentity
    cases hid
    cases hkeys
    cases hname
    rfl
  · rintro rfl
    refine ⟨rfl, rfl, rfl, fun text htext => ?_, fun hnone => ?_⟩
    · rw [refreshReference, currentName?_eq_some_iff.mpr htext]
      rfl
    · have hfound : db.currentName? r = none :=
        Option.eq_none_iff_forall_ne_some.mpr fun text h =>
          hnone text (currentName?_eq_some_iff.mp h)
      rw [refreshReference, hfound]
      rfl

/-- The second value is the first with current names, and else the first. -/
structure UpToDate (db : Database) (v w : Value) : Prop where
  /-- It is built alike at every depth and has the same data, identifiers, alternate keys, names of
  attributes and display texts. -/
  bare : w.bare = v.bare
  /-- References are renamed, and the entity types of records are in lower case. -/
  parts : List.Forall₂ (Sum.LiftRel db.Renamed fun old new => new = lowercase old) v.parts w.parts

theorem forall₂_parts_iff {ps qs : List (Reference ⊕ String)} :
    List.Forall₂ (Sum.LiftRel db.Renamed fun old new => new = lowercase old) ps qs ↔
      qs = ps.map (Sum.map db.refreshReference lowercase) := by
  have hpart : Sum.LiftRel db.Renamed (fun old new => new = lowercase old) =
      fun p q => Sum.map db.refreshReference lowercase p = q := by
    funext p q
    rcases p with r | old <;> rcases q with s | new <;> simp [renamed_iff, eq_comm]
  rw [hpart, eq_comm, ← List.forall₂_eq_eq_eq, List.forall₂_map_left_iff]

/-- **Refreshing brings names up to date and changes nothing else**, and that is all it does. -/
theorem refresh_eq_iff (db : Database) (v w : Value) : db.refresh v = w ↔ db.UpToDate v w := by
  constructor
  · rintro rfl
    exact ⟨db.bare_refresh v, forall₂_parts_iff.mpr (db.parts_refresh v)⟩
  · rintro ⟨hbare, hparts⟩
    refine Value.eq_of_mapParts ((db.bare_refresh v).trans hbare.symm) ?_
    rw [parts_refresh, forall₂_parts_iff.mp hparts]

end Database

end RecordQuery
