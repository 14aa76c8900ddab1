import RecordQuery.Proofs.Query.Projection
import RecordQuery.Proofs.Query.Refreshed
import RecordQuery.Proofs.Sample

/-!
# Projected rows are settled

A projected row is a row without nulls that has its primary identifier, all else taken from the row
that was projected (`Projector.mem_attributes_project_iff`).  The display text that the row has for
an attribute goes before the labels of its codes, and there are none for what is not in the result
(`Projector.mem_formatted_project_iff`).

*Again.*  What is kept would be kept again, as it is: it is selected, it is not null and its names
are current (`Projector.kept?_kept?`).  So another projection finds nothing to do
(`Projector.project_project`).
-/

namespace RecordQuery

open Text

namespace Projector

variable {p : Projector} {name text : String} {row : Record} {v w : Value}

/-! ## Attributes and display texts -/

/-- What a projected row holds: what is kept of the row, and its identifier where the row has none
for the primary identifier. -/
theorem mem_attributes_project_iff (h : row.Sorted) :
    (name, v) ∈ (p.project row).attributes ↔
      (∃ w, (name, w) ∈ row.attributes ∧ p.kept? name w = some v) ∨
        name = p.entity.primaryId ∧ v = .recordId row.id ∧
          ∀ w, (name, w) ∈ row.attributes → p.kept? name w = none := by
  rw [← (sorted_project h).attributes.get?_eq_some_iff, get?_attributes_project h,
    Option.or_eq_some_iff, Option.bind_eq_some_iff, Option.bind_eq_none_iff,
    Option.ite_none_right_eq_some, Option.some.injEq]
  simp only [h.attributes.get?_eq_some_iff]
  exact or_congr_right ⟨fun ⟨hnone, hname, hv⟩ => ⟨hname.symm, hv.symm, hnone⟩,
    fun ⟨hname, hv, hnone⟩ => ⟨hnone, hname.symm, hv.symm⟩⟩

/-- The display texts of a projected row. -/
theorem mem_formatted_project_iff (h : row.Sorted) :
    (name, text) ∈ (p.project row).formatted ↔
      ∃ w v, (name, w) ∈ row.attributes ∧ p.kept? name w = some v ∧
        p.displayText? row name v = some text := by
  rw [← (sorted_project h).formatted.get?_eq_some_iff, get?_formatted_project h,
    Option.bind_eq_some_iff]
  simp only [Option.bind_eq_some_iff, h.attributes.get?_eq_some_iff]
  constructor
  · rintro ⟨v, ⟨w, hw, hkept⟩, htext⟩
    exact ⟨w, v, hw, hkept, htext⟩
  · rintro ⟨w, v, hw, hkept, htext⟩
    exact ⟨v, ⟨w, hw, hkept⟩, htext⟩

/-- Current names change no code. -/
theorem labelCodes_refresh (db : Database) (v : Value) :
    labelCodes (db.refresh v).unaliased = labelCodes v.unaliased := by
  rw [db.unaliased_refresh]
  cases v.unaliased with
  | aliased c =>
      cases c
      rfl
  | _ => rfl

theorem labels?_refresh (p : Projector) (name : String) (v : Value) :
    p.labels? name (p.db.refresh v) = p.labels? name v := by
  rw [labels?, labels?, labelCodes_refresh]

/-! ## Projecting again -/

theorem selects_primaryId (p : Projector) : p.selects p.entity.primaryId = true :=
  selects_iff.mpr (.inr (.inl rfl))

/-- What is kept is kept again. -/
theorem kept?_kept? (hschema : p.db.schema.Canonical) (h : p.kept? name w = some v) :
    p.kept? name v = some v := by
  obtain ⟨hselected, hnull, rfl⟩ := kept?_eq_some_iff.mp h
  refine kept?_eq_some_iff.mpr ⟨hselected, ?_, (Database.refresh_refresh hschema w).symm⟩
  rw [Database.isNull_refresh, hnull]

theorem kept?_primaryId (p : Projector) (id : RecordId) :
    p.kept? p.entity.primaryId (.recordId id) = some (.recordId id) :=
  kept?_eq_some_iff.mpr ⟨p.selects_primaryId, rfl, rfl⟩

/-- An identifier has no label. -/
theorem labels?_recordId (p : Projector) (name : String) (id : RecordId) :
    p.labels? name (.recordId id) = none := by
  rw [labels?]
  cases p.attribute? name with
  | none => rfl
  | some a => exact if_neg (by simp [labelCodes, Value.unaliased])

theorem attributes_project_project (hschema : p.db.schema.Canonical) (h : row.Sorted) :
    (p.project (p.project row)).attributes = (p.project row).attributes := by
  have hsorted := sorted_project (p := p) h
  -- what stands under a name in the projected row is kept, or it is the identifier put in last
  refine (sorted_project hsorted).attributes.ext hsorted.attributes fun name => ?_
  rw [get?_attributes_project hsorted, get?_attributes_project h]
  cases hkept : (NameMap.get? row.attributes name).bind (p.kept? name) with
  | some v =>
      obtain ⟨w, -, hw⟩ := Option.bind_eq_some_iff.mp hkept
      rw [Option.some_or, Option.bind_some, kept?_kept? hschema hw, Option.some_or]
  | none =>
      by_cases hname : p.entity.primaryId = name
      · rw [if_pos hname, ← hname, Option.none_or, Option.bind_some, p.kept?_primaryId]
        rfl
      · simp only [if_neg hname]
        rfl

theorem formatted_project_project (hschema : p.db.schema.Canonical) (h : row.Sorted) :
    (p.project (p.project row)).formatted = (p.project row).formatted := by
  have hsorted := sorted_project (p := p) h
  refine (sorted_project hsorted).formatted.ext hsorted.formatted fun name => ?_
  rw [get?_formatted_project hsorted, get?_attributes_project h, get?_formatted_project h]
  cases hkept : (NameMap.get? row.attributes name).bind (p.kept? name) with
  | some v =>
      obtain ⟨w, -, hw⟩ := Option.bind_eq_some_iff.mp hkept
      rw [Option.some_or, Option.bind_some, kept?_kept? hschema hw, Option.bind_some,
        Option.bind_some, displayText?, get?_formatted_project h, hkept, Option.bind_some,
        displayText?]
      cases NameMap.get? row.formatted name with
      | some text => rfl
      | none => cases p.labels? name v <;> rfl
  | none =>
      by_cases hname : p.entity.primaryId = name
      · rw [if_pos hname, ← hname, Option.none_or, Option.bind_some, p.kept?_primaryId,
          Option.bind_some, displayText?, get?_formatted_project h, hname, hkept,
          labels?_recordId]
        rfl
      · rw [if_neg hname]
        rfl

/-- **Projecting once is enough.** -/
theorem project_project (hschema : p.db.schema.Canonical) (h : row.Sorted) :
    p.project (p.project row) = p.project row := by
  have hentity : (p.project (p.project row)).entity = (p.project row).entity :=
    lowercase_lowercase row.entity
  let again := p.project (p.project row)
  calc p.project (p.project row)
      = ⟨again.entity, again.id, again.attributes, again.formatted⟩ := rfl
    _ = ⟨(p.project row).entity, again.id, (p.project row).attributes,
          (p.project row).formatted⟩ := by
        rw [hentity, attributes_project_project hschema h, formatted_project_project hschema h]
    _ = p.project row := rfl

/-! ## Settled rows -/

/-- How a projected row comes from the row. -/
structure Settles (p : Projector) (row : Record) : Prop where
  entity : (p.project row).entity = lowercase row.entity
  id : (p.project row).id = row.id
  /-- The primary identifier is there. -/
  primaryId : NameMap.contains (p.project row).attributes p.entity.primaryId = true
  /-- Nothing is null, also not inside of wrappers. -/
  notNull : ∀ name v, (name, v) ∈ (p.project row).attributes → v.isNull = false
  /-- What is there was selected and taken from the row, with current names; the primary identifier
  is that of the row where the row has none or null. -/
  taken : ∀ name v, (name, v) ∈ (p.project row).attributes →
    (∃ w, (name, w) ∈ row.attributes ∧ p.selects name = true ∧ p.db.Refreshed w v) ∨
      name = p.entity.primaryId ∧ v = .recordId row.id ∧
        ∀ w, (name, w) ∈ row.attributes → w.isNull = true
  /-- All that is selected and not null is there. -/
  kept : ∀ name w, (name, w) ∈ row.attributes → p.selects name = true → w.isNull = false →
    ∃ v, (name, v) ∈ (p.project row).attributes ∧ p.db.Refreshed w v
  /-- There are display texts of attributes only. -/
  formatted : ∀ name text, (name, text) ∈ (p.project row).formatted →
    NameMap.contains (p.project row).attributes name = true
  /-- The display text of the row goes before the labels. -/
  shown : ∀ name w, (name, w) ∈ row.attributes → p.selects name = true → w.isNull = false →
    NameMap.get? (p.project row).formatted name =
      (NameMap.get? row.formatted name).or (p.labels? name w)
  /-- Another projection changes nothing. -/
  again : p.project (p.project row) = p.project row

section Row

variable (h : row.Sorted)

include h

theorem isNull_of_mem_project (hv : (name, v) ∈ (p.project row).attributes) : v.isNull = false := by
  rcases (mem_attributes_project_iff h).mp hv with ⟨w, -, hkept⟩ | ⟨-, rfl, -⟩
  · obtain ⟨-, hnull, rfl⟩ := kept?_eq_some_iff.mp hkept
    rw [Database.isNull_refresh, hnull]
  · rfl

/-- Where the identifier is put in, nothing else was kept under its name. -/
theorem taken_of_mem_project (hv : (name, v) ∈ (p.project row).attributes) :
    (∃ w, (name, w) ∈ row.attributes ∧ p.selects name = true ∧ p.db.Refreshed w v) ∨
      name = p.entity.primaryId ∧ v = .recordId row.id ∧
        ∀ w, (name, w) ∈ row.attributes → w.isNull = true := by
  rcases (mem_attributes_project_iff h).mp hv with ⟨w, hw, hkept⟩ | ⟨rfl, hid, hnone⟩
  · obtain ⟨hselected, -, rfl⟩ := kept?_eq_some_iff.mp hkept
    exact .inl ⟨w, hw, hselected, p.db.refreshed_refresh w⟩
  · refine .inr ⟨rfl, hid, fun w hw => Bool.of_not_eq_false fun hnull => ?_⟩
    have hkept := kept?_eq_some_iff.mpr ⟨p.selects_primaryId, hnull, rfl⟩
    rw [hnone w hw] at hkept
    cases hkept

theorem exists_mem_project (hw : (name, w) ∈ row.attributes) (hselected : p.selects name = true)
    (hnull : w.isNull = false) :
    ∃ v, (name, v) ∈ (p.project row).attributes ∧ p.db.Refreshed w v := by
  have hkept := kept?_eq_some_iff.mpr ⟨hselected, hnull, rfl⟩
  exact ⟨_, (mem_attributes_project_iff h).mpr (.inl ⟨w, hw, hkept⟩), p.db.refreshed_refresh w⟩

theorem contains_of_mem_formatted (htext : (name, text) ∈ (p.project row).formatted) :
    NameMap.contains (p.project row).attributes name = true := by
  obtain ⟨w, v, hw, hkept, -⟩ := (mem_formatted_project_iff h).mp htext
  have hv := (mem_attributes_project_iff h).mpr (.inl ⟨w, hw, hkept⟩)
  exact NameMap.contains_iff.mpr (NameMap.mem_names_iff.mpr ⟨v, hv⟩)

theorem get?_formatted_of_selects (hw : (name, w) ∈ row.attributes)
    (hselected : p.selects name = true) (hnull : w.isNull = false) :
    NameMap.get? (p.project row).formatted name =
      (NameMap.get? row.formatted name).or (p.labels? name w) := by
  have hrow := h.attributes.get?_eq_some_iff.mpr hw
  have hkept := kept?_eq_some_iff.mpr ⟨hselected, hnull, rfl⟩
  rw [get?_formatted_project h, hrow, Option.bind_some, hkept, Option.bind_some, displayText?,
    labels?_refresh]
  cases NameMap.get? row.formatted name <;> rfl

end Row

/-- **A projected row is clean and settled**, for any store and any row in the order of maps, under
a schema whose entity types stand under names in lower case. -/
theorem project_settles (store : Store) (schema : CanonicalSchema) (e : Entity)
    (aliases : NameMap Entity) (columns : ColumnSet) (row : OrderedRecord) :
    Settles ⟨⟨store, schema⟩, e, aliases, columns⟩ row where
  entity := rfl
  id := rfl
  primaryId := NameMap.contains_iff.mpr (mem_names_project_iff.mpr (.inl rfl))
  notNull _ _ := isNull_of_mem_project row.sorted
  taken _ _ := taken_of_mem_project row.sorted
  kept _ _ := exists_mem_project row.sorted
  formatted _ _ := contains_of_mem_formatted row.sorted
  shown _ _ := get?_formatted_of_selects row.sorted
  again := project_project schema.canonical row.sorted

end Projector

namespace Sample

/-- The sample database, in which contacts are named by their full names. -/
def namedDb : Database :=
  { db with
    schema := Schema.ofEntities 1 default [account, contact.withPrimaryName "fullname", task] }

/-- All columns of tasks. -/
def taskProjector : Projector := ⟨namedDb, task, [], .all⟩

/-- A contact under an old name. -/
def staleContact : Reference := ⟨"Contact", ⟨2⟩, some "A.", []⟩

/-- A task without its identifier, about that contact. -/
def staleCall : Record :=
  (call.set "taskid" .null).set "regarding" (.reference staleContact)

/-- The task is shown with its identifier and with the current name of the contact. -/
theorem project_settles_call :
    taskProjector.db.schema.Canonical ∧ staleCall.Sorted ∧ taskProjector.Settles staleCall ∧
      NameMap.get? (taskProjector.project staleCall).attributes "taskid" =
        some (.recordId ⟨5⟩) ∧
      NameMap.get? (taskProjector.project staleCall).attributes "regarding" =
        some (.reference ⟨"contact", ⟨2⟩, some "Ada", []⟩) := by
  have hschema : taskProjector.db.schema.Canonical := by decide +kernel
  have hrow : staleCall.Sorted := by decide +kernel
  have hentity : lowercase staleContact.entity = "contact" := by decide +kernel
  have hposition : (Table.ofRecords [ada, grace, linus]).position? ⟨2⟩ = some 0 := by
    have hdistinct : ([(⟨2⟩, 0), (⟨3⟩, 1), (⟨4⟩, 2)] : List (RecordId × Nat)).Pairwise
        fun a b => (a.1 == b.1) = false := by decide
    exact Std.HashMap.getElem?_ofList_of_mem (beq_self_eq_true _) hdistinct (.head _)
  have hstored : namedDb.store.find? staleContact.entity staleContact.id = some ada := by
    rw [Store.find?, Store.table, hentity]
    exact (congrArg (Option.bind · _) hposition).trans rfl
  have hname : namedDb.Names staleContact "Ada" :=
    ⟨contact.withPrimaryName "fullname", "fullname", ada, .text "Ada", rfl, rfl, hstored, rfl, rfl⟩
  have hregarding : NameMap.get? (taskProjector.project staleCall).attributes "regarding" =
      some (.reference (namedDb.refreshReference staleContact)) := rfl
  refine ⟨hschema, hrow,
    Projector.project_settles namedDb.store ⟨_, hschema⟩ task [] .all ⟨_, hrow⟩, rfl, ?_⟩
  rw [hregarding, Database.refreshReference, Database.currentName?_eq_some_iff.mpr hname,
    hentity]
  rfl

end Sample

end RecordQuery
