import RecordQuery.Proofs.Execution
import RecordQuery.Proofs.Ordering
import RecordQuery.Proofs.Query.Evaluation
import RecordQuery.Proofs.Query.Filter
import RecordQuery.Proofs.StrictMode
import RecordQuery.Proofs.Together
import RecordQuery.Proofs.Windowing

/-!
# Narrowing

A condition that is added to a conjunction drops rows and does nothing else.  Which of the other
rows are there does not matter to joins and projections, which look at one record or row at a time.
It does not matter to the sort either, as long as its keys are in order: rows are sorted among fewer
as they are among more (`CompiledOrder.sortRows_sublist`).  Keys of declared attributes are
(`CompiledOrder.exists_kinds`).

`CompiledQuery.Narrows` says that a compiled query is another one with criteria that let less
pass, and `Database.execute_narrowed` that adding a condition gives such a query.
-/

namespace RecordQuery

open Text

/-! ## Sorting fewer rows -/

theorem Order.declared_of_compile {o : Order} {s : Scope} {ctx : Context} {compiled : CompiledOrder}
    (h : o.compile s ctx = .ok compiled)
    (hdeclared : ∀ column e, s.locate? o.aliasName (lowercase o.name) = some (column, e) →
      e.declares (lowercase o.name) = true) : ∃ t, compiled.declared = some t := by
  simp only [compile] at h
  split at h
  next => cases h
  next column e hlocate =>
    obtain ⟨-, heq⟩ := refuse_eq_ok_iff.mp h
    cases heq
    have hsome := hdeclared column e hlocate
    rw [← e.isSome_typeOf?] at hsome
    exact Option.isSome_iff_exists.mp hsome

namespace CompiledOrder

variable {os : List CompiledOrder} {ctx : Context}

/-- Fewer rows are sorted as they are among more. -/
theorem sortRows_sublist (hos : ∀ o ∈ os, ∃ t, o.declared = some t)
    {rows rows' sorted sorted' : List Record} (hsub : rows'.Sublist rows)
    (h : sortRows os ctx rows = .ok sorted) (h' : sortRows os ctx rows' = .ok sorted') :
    sorted'.Sublist sorted := by
  obtain ⟨hkeys, rfl⟩ := sortRows_eq_ok_iff.mp h
  obtain ⟨-, rfl⟩ := sortRows_eq_ok_iff.mp h'
  obtain ⟨kind, hkind⟩ := exists_kinds hos
  exact stableSort_sublist (weakOrderOn_rowBefore kind os ctx)
    (fun row hrow => hkind row (hkeys row hrow)) hsub

end CompiledOrder

/-! ## Criteria that let less pass -/

/-- A compiled query is another one with criteria that let nothing pass which the others stop. -/
structure CompiledQuery.Narrows (c' c : CompiledQuery) : Prop where
  joins : c'.joins = c.joins
  filtersJoined : c'.filtersJoined = c.filtersJoined
  orders : c'.orders = c.orders
  projector : c'.projector = c.projector
  criteria : ∀ ctx row, c'.criteria.evaluate ctx row = .ok true →
    c.criteria.evaluate ctx row = .ok true

theorem flatten_sublist {parts parts' : List (List α)}
    (h : List.Forall₂ List.Sublist parts' parts) : parts'.flatten.Sublist parts.flatten := by
  induction h with
  | nil => exact .refl []
  | cons hfirst _ ih => exact hfirst.append ih

namespace CompiledQuery.Narrows

variable {c c' : CompiledQuery} {ctx : Context}

/-- A record becomes fewer rows. -/
theorem rowsOf_sublist (hc : c'.Narrows c) {r : Record} {rows rows' : List Record}
    (h : c.rowsOf ctx r = .ok rows) (h' : c'.rowsOf ctx r = .ok rows') : rows'.Sublist rows := by
  cases hfilters : c.filtersJoined with
  | false =>
      obtain ⟨passed, hpassed, h⟩ := rowsOf_record hfilters h
      obtain ⟨passed', hpassed', h'⟩ := rowsOf_record (hc.filtersJoined.trans hfilters) h'
      cases passed' with
      | false =>
          cases h'
          exact List.nil_sublist rows
      | true =>
          cases Except.ok.inj ((hc.criteria ctx r hpassed').symm.trans hpassed)
          rw [hc.joins] at h'
          cases Except.ok.inj (h.symm.trans h')
          exact .refl rows
  | true =>
      obtain ⟨all, hall, rfl⟩ := rowsOf_joined hfilters h
      obtain ⟨all', hall', rfl⟩ := rowsOf_joined (hc.filtersJoined.trans hfilters) h'
      rw [hc.joins] at hall'
      cases Except.ok.inj (hall.symm.trans hall')
      refine List.monotone_filter_right all fun row hrow => ?_
      exact toOption_holds_iff.mpr (hc.criteria ctx row (toOption_holds_iff.mp hrow))

/-- A run gives fewer rows, in the same order. -/
theorem run_sublist (hc : c'.Narrows c) (hos : ∀ o ∈ c.orders, ∃ t, o.declared = some t)
    {records rows rows' : List Record} (h : c.run ctx records = .ok rows)
    (h' : c'.run ctx records = .ok rows') : rows'.Sublist rows := by
  obtain ⟨parts, sorted, hparts, hsorted, rfl⟩ := run_eq_ok h
  obtain ⟨parts', sorted', hparts', hsorted', rfl⟩ := run_eq_ok h'
  have heach : List.Forall₂ List.Sublist parts' parts :=
    forall₂_of_mapM_same hparts' hparts fun r _ part' part hpart' hpart =>
      hc.rowsOf_sublist hpart hpart'
  rw [hc.orders] at hsorted'
  rw [hc.projector]
  exact (CompiledOrder.sortRows_sublist hos (flatten_sublist heach) hsorted hsorted').map _

end CompiledQuery.Narrows

/-! ## Execution -/

/-- The query with one more condition at the top of its criteria. -/
def Query.narrowed (q : Query) (c : Condition) : Query :=
  { q with criteria := q.criteria.withConditions [c] }

theorem Filter.referencesAliases_withConditions (f : Filter Condition) {c : Condition}
    (hc : c.aliasName = none) :
    (f.withConditions [c]).referencesAliases = f.referencesAliases := by
  cases f with
  | node k cs fs => simp [withConditions, referencesAliases, allConditions, hc]

namespace Database

variable {db : Database} {ctx : Context} {q : Query} {c : Condition}

theorem compile_narrowed (hand : q.criteria.connective = .and) (hc : c.aliasName = none)
    {e : Entity} {n : Nat} {compiled compiled' : CompiledQuery}
    (h : db.compile ctx q e n = .ok compiled)
    (h' : db.compile ctx (q.narrowed c) e n = .ok compiled') : compiled'.Narrows compiled := by
  obtain ⟨joins, aliases, criteria, orders, projector, hplan, hcriteria, horders, hprojector,
    rfl⟩ := compile_eq_ok h
  obtain ⟨joins', aliases', criteria', orders', projector', hplan', hcriteria', horders',
    hprojector', rfl⟩ := compile_eq_ok h'
  cases Except.ok.inj (hplan.symm.trans hplan')
  cases Except.ok.inj (horders.symm.trans horders')
  cases Except.ok.inj (hprojector.symm.trans hprojector')
  obtain ⟨more, -, rfl⟩ := Filter.mapM_withConditions hcriteria hcriteria'
  have hsame : (q.narrowed c).criteria.referencesAliases = q.criteria.referencesAliases :=
    q.criteria.referencesAliases_withConditions hc
  refine ⟨rfl, hsame, rfl, rfl, fun ctx' row hrow => ?_⟩
  exact Filter.holds_of_withConditions ((Filter.connective_of_mapM hcriteria).trans hand) hrow

/-- **Adding a condition to a conjunction only narrows.**  For a query without repeated rows to drop
and without a window, whose orders are by declared attributes, the rows with one more condition
are some of the rows without it, in the same order. -/
theorem execute_narrowed (hand : q.criteria.connective = .and) (hdistinct : q.distinct = false)
    (htop : q.top = none) (hpage : q.page = none)
    (horders : ∀ o ∈ q.orders, ∀ e, q.Means db.schema e o.aliasName →
      e.declares (lowercase o.name) = true)
    (hc : c.aliasName = none) {result narrowed : ResultSet} (h : db.execute ctx q = .ok result)
    (h' : db.execute ctx (q.narrowed c) = .ok narrowed) : narrowed.rows.Sublist result.rows := by
  obtain ⟨e, compiled, he, hcompiled, hrun⟩ := execute_whole_eq_ok hdistinct htop hpage h
  obtain ⟨e', compiled', he', hcompiled', hrun'⟩ :=
    execute_whole_eq_ok (q := q.narrowed c) hdistinct htop hpage h'
  cases Except.ok.inj (he.symm.trans he')
  have hdeclared : ∀ o ∈ compiled.orders, ∃ t, o.declared = some t := by
    obtain ⟨joins, aliases, criteria, orders, projector, hplan, -, hcompiles, -, rfl⟩ :=
      compile_eq_ok hcompiled
    intro o ho
    obtain ⟨written, hwritten, ho⟩ := mem_of_mapM hcompiles ho
    have hmeans :=
      (declared_means_iff (Schema.find_eq_ok_iff.mp he) hplan).mpr (horders written hwritten)
    exact Order.declared_of_compile ho hmeans
  exact (compile_narrowed hand hc hcompiled hcompiled').run_sublist hdeclared hrun hrun'

end Database

namespace Sample

/-- The contacts with a code, the largest code first. -/
def codedContacts : Query :=
  { Query.new "contact" with
    criteria := .node .and [.new "code" (.null false) []] []
    orders := [.new "code" .descending] }

/-- One of the two contacts with a code has the name. -/
theorem codedContacts_narrowed : ∃ result narrowed,
    db.execute ctx codedContacts = .ok result ∧
      db.execute ctx (codedContacts.narrowed (.eq "fullname" (.text "Grace"))) = .ok narrowed ∧
      result.rows.length = 2 ∧ narrowed.rows.length = 1 ∧
      narrowed.rows.Sublist result.rows := by
  have horders : ∀ o ∈ codedContacts.orders, ∀ e, codedContacts.Means db.schema e o.aliasName →
      e.declares (lowercase o.name) = true := by
    intro o ho e he
    cases List.mem_singleton.mp ho
    have hcontact : db.schema.entity? "contact" = some contact := by decide +kernel
    have hentity : contact = e := Option.some.inj (hcontact.symm.trans he)
    subst hentity
    decide +kernel
  obtain ⟨result, hresult, hlength⟩ := exists_eq_ok_of_map
    (x := db.execute ctx codedContacts) (f := (·.rows.length)) (b := 2) (by decide +kernel)
  obtain ⟨narrowed, hnarrowed, hlength'⟩ := exists_eq_ok_of_map
    (x := db.execute ctx (codedContacts.narrowed (.eq "fullname" (.text "Grace"))))
    (f := (·.rows.length)) (b := 1) (by decide +kernel)
  exact ⟨result, narrowed, hresult, hnarrowed, hlength, hlength',
    Database.execute_narrowed rfl rfl rfl rfl horders rfl hresult hnarrowed⟩

end Sample

end RecordQuery
