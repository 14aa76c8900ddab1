import RecordQuery.Execute
import RecordQuery.Proofs.Failure
import RecordQuery.Proofs.Query.Sorting

/-!
# Queries that succeed

What a result says of the phases that led to it: `Database.execute_eq_ok` takes an execution apart
into its checks, the compiled query and its run, `Database.compile_eq_ok` a compilation into its
parts, and `CompiledQuery.run_eq_ok` a run into the rows of the records and the sorted rows.  What
a record becomes depends on where the criteria are tested (`CompiledQuery.rowsOf_record`,
`CompiledQuery.rowsOf_joined`), and a run returns all that the records become
(`CompiledQuery.mem_run_iff`).
-/

namespace RecordQuery

variable {db : Database} {ctx : Context} {q : Query}

/-- Sorting keeps all rows. -/
theorem CompiledOrder.sortRows_perm {os : List CompiledOrder} {rows sorted : List Record}
    (h : sortRows os ctx rows = .ok sorted) : sorted.Perm rows := by
  obtain ⟨keyed, hkeyed, h⟩ := bind_eq_ok_iff.mp h
  cases h
  have hrows : keyed.map (·.2) = rows := map_of_mapM hkeyed fun row p hp => by
    obtain ⟨keys, -, rfl⟩ := map_eq_ok_iff.mp hp
    rfl
  rw [← hrows]
  exact (stableSort_perm _ keyed).map _

namespace CompiledQuery

variable {c : CompiledQuery} {r : Record} {rows : List Record}

/-- Criteria that are tested on a record decide whether it becomes rows. -/
theorem rowsOf_record (hc : c.filtersJoined = false) (h : c.rowsOf ctx r = .ok rows) :
    ∃ passed, c.criteria.evaluate ctx r = .ok passed ∧
      (if passed then resolve c.joins r r else .ok []) = .ok rows := by
  rw [rowsOf, hc] at h
  exact bind_eq_ok_iff.mp h

/-- Criteria that are tested on joined rows decide which of them are kept. -/
theorem rowsOf_joined (hc : c.filtersJoined = true) (h : c.rowsOf ctx r = .ok rows) :
    ∃ all, resolve c.joins r r = .ok all ∧
      rows = all.filter fun row => (c.criteria.evaluate ctx row).toOption.any (· = true) := by
  rw [rowsOf, hc] at h
  obtain ⟨all, hall, h⟩ := bind_eq_ok_iff.mp h
  obtain ⟨kept, hkept, h⟩ := bind_eq_ok_iff.mp h
  cases h
  exact ⟨all, hall, kept_of_test hkept⟩

/-- What a record becomes are rows that the joins make of it. -/
theorem exists_resolve_of_rowsOf (h : c.rowsOf ctx r = .ok rows) :
    ∀ row ∈ rows, ∃ all, resolve c.joins r r = .ok all ∧ row ∈ all := by
  intro row hrow
  cases hc : c.filtersJoined with
  | false =>
      obtain ⟨passed, -, h⟩ := rowsOf_record hc h
      cases passed with
      | false =>
          cases h
          cases hrow
      | true => exact ⟨rows, h, hrow⟩
  | true =>
      obtain ⟨all, hall, rfl⟩ := rowsOf_joined hc h
      exact ⟨all, hall, (List.mem_filter.mp hrow).1⟩

theorem run_eq_ok {records rows : List Record}
    (h : c.run ctx records = .ok rows) :
    ∃ parts sorted, records.mapM (c.rowsOf ctx) = .ok parts ∧
      CompiledOrder.sortRows c.orders ctx parts.flatten = .ok sorted ∧
      rows = sorted.map c.projector.project := by
  obtain ⟨parts, hparts, h⟩ := bind_eq_ok_iff.mp h
  obtain ⟨sorted, hsorted, h⟩ := bind_eq_ok_iff.mp h
  cases h
  exact ⟨parts, sorted, hparts, hsorted, rfl⟩

/-- The rows of a run are those that the records become, projected. -/
theorem mem_run_iff {records : List Record} (h : c.run ctx records = .ok rows) {row : Record} :
    row ∈ rows ↔ ∃ r ∈ records, ∃ part, c.rowsOf ctx r = .ok part ∧
      ∃ row' ∈ part, c.projector.project row' = row := by
  obtain ⟨parts, sorted, hparts, hsorted, rfl⟩ := run_eq_ok h
  have hsame : ∀ row', row' ∈ sorted ↔ ∃ part ∈ parts, row' ∈ part := fun row' =>
    (CompiledOrder.sortRows_perm hsorted).mem_iff.trans List.mem_flatten
  rw [List.mem_map]
  constructor
  · rintro ⟨row', hrow', rfl⟩
    obtain ⟨part, hpart, hrow'⟩ := (hsame row').mp hrow'
    obtain ⟨r, hr, hpart⟩ := mem_of_mapM hparts hpart
    exact ⟨r, hr, part, hpart, row', hrow', rfl⟩
  · rintro ⟨r, hr, part, hpart, row', hrow', rfl⟩
    exact ⟨row', (hsame row').mpr ⟨part, (mem_mapM_iff hparts).mpr ⟨r, hr, hpart⟩, hrow'⟩, rfl⟩

end CompiledQuery

/-! ## Repeated rows -/

theorem firstByKey_sublist [BEq κ] (key : α → κ) (seen : List κ) (as : List α) :
    (firstByKey key seen as).Sublist as := by
  induction as generalizing seen with
  | nil => exact .slnil
  | cons a as ih =>
      rw [firstByKey]
      split
      · exact (ih seen).cons a
      · exact (ih _).cons_cons a

namespace Database

theorem compile_eq_ok {e : Entity} {n : Nat} {c : CompiledQuery}
    (h : db.compile ctx q e n = .ok c) :
    ∃ joins aliases criteria orders projector,
      db.plan ctx n e q.links = .ok (joins, aliases) ∧
      q.criteria.compile (.root e aliases) ctx = .ok criteria ∧
      q.orders.mapM (·.compile (.root e aliases) ctx) = .ok orders ∧
      Projector.new db e aliases q.columns ctx.strict = .ok projector ∧
      c = ⟨e, joins, criteria, q.criteria.referencesAliases, orders, projector⟩ := by
  obtain ⟨⟨joins, aliases⟩, hplan, h⟩ := bind_eq_ok_iff.mp h
  obtain ⟨criteria, hcriteria, h⟩ := bind_eq_ok_iff.mp h
  obtain ⟨orders, horders, h⟩ := bind_eq_ok_iff.mp h
  obtain ⟨projector, hprojector, h⟩ := bind_eq_ok_iff.mp h
  cases h
  exact ⟨joins, aliases, criteria, orders, projector, hplan, hcriteria, horders, hprojector, rfl⟩

theorem execute_eq_ok {result : ResultSet} (h : db.execute ctx q = .ok result) :
    q.validate ctx = .ok () ∧ ∃ e c rows, db.schema.find q.entity = .ok e ∧
      db.compile ctx q e (db.store.snapshot e).length = .ok c ∧
      c.run ctx (db.store.snapshot e) = .ok rows ∧
      q.window e.name (if q.distinct then distinctRows rows else rows) = .ok result := by
  obtain ⟨⟨⟩, hvalid, h⟩ := bind_eq_ok_iff.mp h
  obtain ⟨e, he, h⟩ := bind_eq_ok_iff.mp h
  obtain ⟨all, hall, h⟩ := bind_eq_ok_iff.mp h
  obtain ⟨c, hc, hall⟩ := bind_eq_ok_iff.mp hall
  obtain ⟨rows, hrows, hall⟩ := bind_eq_ok_iff.mp hall
  cases hall
  exact ⟨hvalid, e, c, rows, he, hc, hrows, h⟩

end Database

end RecordQuery
