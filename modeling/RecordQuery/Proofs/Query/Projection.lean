import RecordQuery.Proofs.Failure
import RecordQuery.Proofs.Store
import RecordQuery.Query.Projection

/-!
# What a projection keeps

A projection keeps the columns that it selects and that are not null, and it always has the primary
identifier.  Current names of references change no null, so a name is in the result just when the
row has a value under it that is kept (`Projector.mem_names_project_iff`).
-/

namespace RecordQuery

namespace Database

/-- Wrappers are kept around a value with current names. -/
theorem unaliased_refresh (db : Database) (v : Value) :
    (db.refresh v).unaliased = db.refresh v.unaliased := by
  induction v using Value.unaliased.induct with
  | case1 entity name v ih =>
      rw [refresh, Value.unaliased, Value.unaliased]
      exact ih
  | case2 v hplain =>
      cases v with
      | aliased c =>
          obtain ⟨entity, name, w⟩ := c
          exact absurd rfl (hplain entity name w)
      | _ => rfl

/-- Current names make nothing null, and nothing else of what was null. -/
theorem isNull_refresh (db : Database) (v : Value) : (db.refresh v).isNull = v.isNull := by
  rw [Value.isNull, Value.isNull, unaliased_refresh]
  cases v.unaliased with
  | aliased c =>
      cases c
      rfl
  | _ => rfl

end Database

namespace Projector

variable {p : Projector} {name : String} {row : Record}

theorem new_eq_ok {db : Database} {e : Entity} {aliases : NameMap Entity} {columns : ColumnSet}
    {strict : Bool} (h : Projector.new db e aliases columns strict = .ok p) :
    p = ⟨db, e, aliases, columns⟩ := by
  obtain ⟨-, h⟩ := check_eq_ok_iff.mp h
  cases h
  rfl

/-- The columns of links are selected, the primary identifier, and what is asked for. -/
theorem selects_iff : p.selects name = true ↔
    (∃ aliasName rest, splitName? name = some (aliasName, rest) ∧
        NameMap.contains p.aliases aliasName = true) ∨
      name = p.entity.primaryId ∨ p.columns.contains name = true := by
  simp [selects, Option.any_eq_true, or_assoc]

theorem mem_keptAttributes {v : Value} : (name, v) ∈ p.keptAttributes row ↔
    ∃ w, (name, w) ∈ row.attributes ∧ p.selects name = true ∧ w.isNull = false ∧
      v = p.db.refresh w := by
  unfold keptAttributes
  rw [List.mem_filterMap]
  constructor
  · rintro ⟨⟨k, w⟩, hw, hkept⟩
    simp only [Database.isNull_refresh] at hkept
    split at hkept
    next hselected =>
      cases hkept
      rw [Bool.and_eq_true, Bool.not_eq_true'] at hselected
      exact ⟨w, hw, hselected.1, hselected.2, rfl⟩
    next => cases hkept
  · rintro ⟨w, hw, hselected, hnull, rfl⟩
    exact ⟨(name, w), hw, by simp [Database.isNull_refresh, hselected, hnull]⟩

/-- A projected row has the primary identifier, and what is selected and not null. -/
theorem mem_names_project_iff : name ∈ NameMap.names (p.project row).attributes ↔
    name = p.entity.primaryId ∨
      ∃ v, (name, v) ∈ row.attributes ∧ p.selects name = true ∧ v.isNull = false := by
  rw [project, ← NameMap.contains_iff, NameMap.contains_insertNew, NameMap.contains_iff,
    NameMap.mem_names_iff, @eq_comm _ name]
  simp only [mem_keptAttributes]
  refine or_congr_right ⟨?_, ?_⟩
  · rintro ⟨v, w, hw, hselected, hnull, -⟩
    exact ⟨w, hw, hselected, hnull⟩
  · rintro ⟨w, hw, hselected, hnull⟩
    exact ⟨_, w, hw, hselected, hnull, rfl⟩

/-! ## Lookups -/

/-- A value as the result has it, if it is selected and not null. -/
def kept? (p : Projector) (name : String) (v : Value) : Option Value :=
  if p.selects name && !(p.db.refresh v).isNull then some (p.db.refresh v) else none

theorem kept?_eq_some_iff {v w : Value} : p.kept? name w = some v ↔
    p.selects name = true ∧ w.isNull = false ∧ v = p.db.refresh w := by
  rw [kept?, Database.isNull_refresh, Option.ite_none_right_eq_some, Bool.and_eq_true,
    Bool.not_eq_true', Option.some.injEq, and_assoc, @eq_comm _ v]

theorem keptAttributes_eq (p : Projector) (row : Record) :
    p.keptAttributes row = row.attributes.filterMap fun e => (p.kept? e.1 e.2).map (e.1, ·) := by
  refine congrArg (List.filterMap · row.attributes) (funext fun ⟨name, v⟩ => ?_)
  change (if p.selects name && !(p.db.refresh v).isNull then some (name, p.db.refresh v)
    else none) = (p.kept? name v).map (name, ·)
  rw [kept?]
  split <;> rfl

section Sorted

variable (h : row.Sorted)

include h

theorem sorted_keptAttributes : NameMap.Sorted (p.keptAttributes row) := by
  rw [keptAttributes_eq]
  exact h.attributes.filterMap p.kept?

theorem sorted_project : (p.project row).Sorted where
  attributes := (sorted_keptAttributes h).insertNew _ _
  formatted := (sorted_keptAttributes h).filterMap (p.displayText? row)

theorem get?_keptAttributes : NameMap.get? (p.keptAttributes row) name =
    (NameMap.get? row.attributes name).bind (p.kept? name) := by
  rw [keptAttributes_eq, NameMap.get?_filterMap h.attributes.names_ne]

theorem get?_attributes_project : NameMap.get? (p.project row).attributes name =
    ((NameMap.get? row.attributes name).bind (p.kept? name)).or
      (if p.entity.primaryId = name then some (.recordId row.id) else none) := by
  rw [project, NameMap.get?_insertNew, get?_keptAttributes h]

theorem get?_formatted_project : NameMap.get? (p.project row).formatted name =
    ((NameMap.get? row.attributes name).bind (p.kept? name)).bind (p.displayText? row name) := by
  rw [← get?_keptAttributes h]
  exact NameMap.get?_filterMap (sorted_keptAttributes h).names_ne _ _

end Sorted

end Projector

end RecordQuery
