import RecordQuery.Proofs.NameMap
import RecordQuery.Query.Plan

/-!
# Records stay in order

Attributes and display texts are maps, so they stand in the order of their names.  Every way to
build a record keeps this order, and every operation of a store keeps it for all its records.

*Carriers.*  Values hold records and records hold values, so the maps inside of them are lists that
do not carry their order.  An `OrderedRecord` and an `OrderedDatabase` carry it for all of theirs.
-/

namespace RecordQuery

open Text

/-! ## Records -/

/-- The attributes and the display texts stand in the order of maps. -/
structure Record.Sorted (r : Record) : Prop where
  attributes : NameMap.Sorted r.attributes
  formatted : NameMap.Sorted r.formatted

instance (r : Record) : Decidable r.Sorted :=
  decidable_of_iff (NameMap.Sorted r.attributes ∧ NameMap.Sorted r.formatted)
    ⟨fun h => ⟨h.1, h.2⟩, fun h => ⟨h.attributes, h.formatted⟩⟩

namespace Record

variable {r : Record}

theorem sorted_new (entity : String) (id : RecordId) : (new entity id).Sorted :=
  ⟨.nil, .nil⟩

theorem Sorted.set (h : r.Sorted) (name : String) (v : Value) : (r.set name v).Sorted :=
  ⟨h.attributes.insert, h.formatted⟩

theorem Sorted.erase (h : r.Sorted) (name : String) : (r.erase name).Sorted :=
  ⟨h.attributes.erase _, h.formatted⟩

theorem Sorted.setFormatted (h : r.Sorted) (name text : String) : (r.setFormatted name text).Sorted :=
  ⟨h.attributes, h.formatted.insert⟩

end Record

/-- A record that stands in order, as `Record.new`, `Record.set`, `Record.erase` and
`Record.setFormatted` build it. -/
structure OrderedRecord extends Record where
  sorted : toRecord.Sorted

instance : Coe OrderedRecord Record := ⟨OrderedRecord.toRecord⟩

/-! ## Stores -/

namespace Table

theorem mem_insert {t : Table} {r r' : Record} (h : r' ∈ (t.insert r).2.rows.toList) :
    r' = r ∨ r' ∈ t.rows.toList := by
  unfold insert at h
  split at h
  next i hposition =>
    rw [Array.toList_setIfInBounds] at h
    exact (List.mem_or_eq_of_mem_set h).symm
  next hposition =>
    rw [Array.toList_push, List.mem_append, List.mem_singleton] at h
    exact h.symm

theorem mem_erase {t : Table} {id : RecordId} {r : Record} (h : r ∈ (t.erase id).2.rows.toList) :
    r ∈ t.rows.toList := by
  unfold erase at h
  split at h
  next i hposition =>
    rw [Array.toList_eraseIdxIfInBounds] at h
    exact List.mem_of_mem_eraseIdx h
  next hposition => exact h

end Table

/-- All records of the store stand in order. -/
def Store.Sorted (s : Store) : Prop := ∀ entity, ∀ r ∈ s.records entity, r.Sorted

namespace Store

variable {s : Store}

/-- Records of a store are rows of its tables. -/
theorem forall_records {P : Record → Prop} (h : ∀ t ∈ s.tables, ∀ r ∈ t.2.rows.toList, P r)
    (entity : String) : ∀ r ∈ s.records entity, P r := by
  intro r hr
  cases htable : NameMap.get? s.tables (lowercase entity) with
  | none =>
      rw [records, table, htable] at hr
      cases hr
  | some t =>
      rw [records, table, htable] at hr
      exact h _ (NameMap.mem_of_get? htable) r hr

theorem sorted_empty : empty.Sorted := by
  intro entity r hr
  cases hr

/-- What holds of all records and of a new one holds of all when that one is inserted. -/
theorem forall_records_insert {P : Record → Prop} (h : ∀ entity, ∀ r ∈ s.records entity, P r)
    {r : Record} (hr : P r) : ∀ entity, ∀ r' ∈ (s.insert r).2.records entity, P r' := by
  intro entity r' hr'
  simp only [Store.insert, records, table, NameMap.get?_insert] at hr'
  split at hr'
  next hsame =>
    rcases Table.mem_insert hr' with rfl | hold
    · exact hr
    · exact h r.entity r' hold
  next hother => exact h entity r' hr'

/-- What holds of all records holds of those that an erasure leaves. -/
theorem forall_records_erase {P : Record → Prop} (h : ∀ entity, ∀ r ∈ s.records entity, P r)
    (entity : String) (id : RecordId) :
    ∀ entity', ∀ r ∈ (s.erase entity id).2.records entity', P r := by
  unfold Store.erase
  split
  next t ht =>
    intro entity' r hr
    simp only [records, table, NameMap.get?_insert] at hr
    split at hr
    next hsame =>
      refine h entity r ?_
      rw [records, table, ht]
      exact Table.mem_erase hr
    next hother => exact h entity' r hr
  next hnone => exact h

theorem Sorted.insert (h : s.Sorted) {r : Record} (hr : r.Sorted) : (s.insert r).2.Sorted :=
  forall_records_insert h hr

theorem Sorted.insertAll {rs : List Record} (hrs : ∀ r ∈ rs, r.Sorted) :
    ∀ {s : Store}, s.Sorted → (s.insertAll rs).Sorted := by
  induction rs with
  | nil => exact fun h => h
  | cons r rs ih =>
      intro s h
      obtain ⟨hfirst, hrest⟩ := List.forall_mem_cons.mp hrs
      exact ih hrest (h.insert hfirst)

theorem Sorted.erase (h : s.Sorted) (entity : String) (id : RecordId) :
    (s.erase entity id).2.Sorted :=
  forall_records_erase h entity id

/-- Records are read in order, their primary identifiers included. -/
theorem Sorted.snapshot (h : s.Sorted) (e : Entity) : ∀ r ∈ s.snapshot e, r.Sorted := by
  intro r hr
  obtain ⟨stored, hstored, rfl⟩ := List.mem_map.mp hr
  have hsorted := h e.name stored hstored
  exact ⟨hsorted.attributes.insertNew _ _, hsorted.formatted⟩

end Store

/-- A database whose records stand in order, as insertions and erasures leave them
(`Store.Sorted.insert`, `Store.Sorted.erase`). -/
structure OrderedDatabase extends Database where
  sorted : store.Sorted

instance : Coe OrderedDatabase Database := ⟨OrderedDatabase.toDatabase⟩

end RecordQuery
