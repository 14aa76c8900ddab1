import RecordQuery.Proofs.ColumnChoice
import RecordQuery.Proofs.Join.Frame

/-!
# Early filters

Criteria that name no alias are tested on a record before it is joined, others on every joined row.
The early test saves joins and changes nothing else: criteria that read names without a point answer
of a joined row what they answer of the record, because joins leave these names alone
(`Join/Frame`).  So the rows of a record are the same either way, and so is every run
(`CompiledQuery.filters_early_or_late`).
-/

namespace RecordQuery

open Text

/-! ## What criteria without aliases read -/

section Reading

variable {f : Filter Condition} {e : Entity} {aliases : NameMap Entity} {ctx : Context}
  {criteria : Filter CompiledCondition}

/-- Conditions without an alias read names in lower case. -/
theorem Filter.lowercase_column_of_root (hf : f.referencesAliases = false)
    (h : f.compile (.root e aliases) ctx = .ok criteria) :
    ∀ c ∈ criteria.allConditions, lowercase c.column = c.column := by
  intro c hc
  obtain ⟨written, hwritten, hc⟩ := mem_of_mapM (Filter.mapM_allConditions h) hc
  have hnone : written.aliasName = none := by
    simpa using List.any_eq_false.mp hf written hwritten
  rw [Condition.column_of_compileIn hc, hnone, rowColumn, lowercase_lowercase]

/-- Criteria without aliases answer alike of a record and of all rows that it becomes, if they read
names without a point. -/
theorem Filter.evaluate_joined (hf : f.referencesAliases = false)
    (hcompile : f.compile (.root e aliases) ctx = .ok criteria)
    (hread : ∀ c ∈ criteria.allConditions, PointFree c.column) {joins : List (Tree Join)}
    {r source : Record} {rows : List Record} (h : resolve joins r source = .ok rows)
    (ctx' : Context) :
    ∀ row ∈ rows, SameValue (criteria.evaluate ctx' r) (criteria.evaluate ctx' row) := by
  let names := criteria.allConditions.map (·.column)
  have hnames : ∀ n ∈ names, PointFree n := by
    intro n hn
    obtain ⟨c, hc, rfl⟩ := List.mem_map.mp hn
    exact hread c hc
  have hcovers : ∀ c ∈ criteria.allConditions, Covers names c.column := by
    intro c hc
    have hcolumn : c.column ∈ names := List.mem_map_of_mem hc
    refine ⟨hcolumn, ?_⟩
    rwa [lowercase_column_of_root hf hcompile c hc]
  intro row hrow
  exact Filter.evaluate_agree (resolve_agreeOn hnames h row hrow) hcovers

end Reading

/-! ## Both times of testing -/

namespace CompiledQuery

/-- The query with its criteria tested on joined rows, or on records before they are joined. -/
def testing (c : CompiledQuery) (joined : Bool) : CompiledQuery :=
  { c with filtersJoined := joined }

section Testing

variable {f : Filter Condition} {e : Entity} {aliases : NameMap Entity} {ctx : Context}
  {c : CompiledQuery} (hf : f.referencesAliases = false)
  (hcompile : f.compile (.root e aliases) ctx = .ok c.criteria)
  (hread : ∀ d ∈ c.criteria.allConditions, PointFree d.column)

include hf hcompile hread

/-- A record becomes the same rows whether it is tested or the rows are. -/
theorem rowsOf_testing {ctx' : Context} {r : Record} {early late : List Record}
    (hearly : (c.testing false).rowsOf ctx' r = .ok early)
    (hlate : (c.testing true).rowsOf ctx' r = .ok late) : early = late := by
  obtain ⟨passed, hpassed, hearly⟩ := rowsOf_record rfl hearly
  obtain ⟨all, hall, rfl⟩ := rowsOf_joined rfl hlate
  change c.criteria.evaluate ctx' r = .ok passed at hpassed
  -- the rows answer what the record answers, so all of them are kept or none
  have hsame : ∀ row ∈ all, (c.criteria.evaluate ctx' row).toOption.any (· = true) = passed := by
    intro row hrow
    have hrow := Filter.evaluate_joined hf hcompile hread hall ctx' row hrow
    rw [hpassed] at hrow
    rw [← hrow]
    simp [Except.toOption]
  cases passed with
  | false =>
      cases hearly
      exact (List.filter_eq_nil_iff.mpr fun row hrow => Bool.eq_false_iff.mp (hsame row hrow)).symm
  | true =>
      cases Except.ok.inj (hearly.symm.trans hall)
      exact (List.filter_eq_self.mpr hsame).symm

/-- **It does not matter when criteria are tested that name no alias.**  For any joins, and criteria
that read names without a point, a record becomes the same rows whether it is tested and then
joined or joined first and every row tested, if neither fails.  Nor does it matter to a run. -/
theorem filters_early_or_late (ctx' : Context) :
    (∀ (r : Record) (early late : List Record), (c.testing false).rowsOf ctx' r = .ok early →
      (c.testing true).rowsOf ctx' r = .ok late → early = late) ∧
    ∀ records early late : List Record, (c.testing false).run ctx' records = .ok early →
      (c.testing true).run ctx' records = .ok late → early = late := by
  refine ⟨fun r early late => rowsOf_testing hf hcompile hread, ?_⟩
  intro records early late hearly hlate
  obtain ⟨parts, sorted, hparts, hsorted, rfl⟩ := run_eq_ok hearly
  obtain ⟨parts', sorted', hparts', hsorted', rfl⟩ := run_eq_ok hlate
  have heq : parts = parts' := mapM_eq_of_ok hparts hparts' fun r _ early late =>
    rowsOf_testing hf hcompile hread
  subst heq
  cases Except.ok.inj (hsorted.symm.trans hsorted')
  rfl

end Testing

end CompiledQuery

namespace Sample

/-- The accounts of a code with their contacts. -/
def codedAccounts : Query :=
  { accountsWithContacts with criteria := .node .and [.eq "code" (.decimal ⟨15, 1⟩)] [] }

/-- The account has the code and two contacts, so it becomes two rows. -/
theorem codedAccounts_early_or_late : ∃ c early late,
    codedAccounts.criteria.referencesAliases = false ∧
      db.compile ctx codedAccounts account 1 = .ok c ∧
      (∀ d ∈ c.criteria.allConditions, PointFree d.column) ∧
      (c.testing false).run ctx (db.store.snapshot account) = .ok early ∧
      (c.testing true).run ctx (db.store.snapshot account) = .ok late ∧
      early.length = 2 ∧ early = late := by
  have hf : codedAccounts.criteria.referencesAliases = false := by decide +kernel
  obtain ⟨c, hc, hread⟩ := exists_eq_ok_of_map (x := db.compile ctx codedAccounts account 1)
    (f := fun c => (decide (∀ d ∈ c.criteria.allConditions, PointFree d.column),
      ((c.testing false).run ctx (db.store.snapshot account)).toOption.map (·.length),
      ((c.testing true).run ctx (db.store.snapshot account)).isOk))
    (b := (true, some 2, true)) (by decide +kernel)
  obtain ⟨hread, hboth⟩ := Prod.ext_iff.mp hread
  obtain ⟨hearly, hlate⟩ := Prod.ext_iff.mp hboth
  obtain ⟨early, hearly, hlength⟩ := exists_eq_ok_of_map hearly
  obtain ⟨late, hlate⟩ := exists_eq_ok_of_isOk hlate
  obtain ⟨joins, aliases, criteria, orders, projector, -, hcompile, -, -, rfl⟩ :=
    Database.compile_eq_ok hc
  have hread := of_decide_eq_true hread
  obtain ⟨-, hrun⟩ := CompiledQuery.filters_early_or_late hf hcompile hread ctx
  exact ⟨_, early, late, hf, hc, hread, hearly, hlate, hlength, hrun _ _ _ hearly hlate⟩

end Sample

end RecordQuery
