import RecordQuery.Proofs.Execution
import RecordQuery.Proofs.Join.Columns
import RecordQuery.Proofs.Join.Meaning
import RecordQuery.Proofs.Query.Filter
import RecordQuery.Proofs.Store

/-!
# Where a filter stands

A query with one inner join can filter the joined records in two places: in the criteria of the
link, where records are dropped before they are joined, and in its own criteria, where the joined
rows are dropped, under the alias of the link.  Both give the same result, as long as no stored
attribute and no primary identifier has a point in its name.

*Records.*  The records that the first form joins to a row are those that the second form joins
and that pass the filter (`map_found_filtered`).

*Rows.*  A row passes the filter under the alias when its joined record passes the filter
(`evaluate_placed`), so both forms keep the same rows (`rows_placed`).

*Points.*  A primary identifier with a point can stand under the name of a joined column, and then
the two forms differ (`Sample.placement_observable`).
-/

namespace RecordQuery

open Text

/-! ## The two places -/

/-- The query has one link: an inner join of all columns under an alias.  Nothing is filtered. -/
structure Query.JoinsOnce (q : Query) (l : LinkSpec) (aliasName : String) : Prop where
  links : q.links = [.node l []]
  kind : l.kind = .inner
  columns : l.columns = .all
  aliasName : l.aliasName = some aliasName
  linkCriteria : l.criteria.isEmpty = true
  criteria : q.criteria.isEmpty = true

/-- The link with a filter as its criteria. -/
def LinkSpec.filtered (l : LinkSpec) (f : Filter Condition) : LinkSpec := { l with criteria := f }

/-- The filter with every condition under an alias. -/
def Filter.under (f : Filter Condition) (aliasName : String) : Filter Condition :=
  f.map (·.withAlias aliasName)

/-- The query that joins the records that pass a filter. -/
def Query.filterLink (q : Query) (l : LinkSpec) (f : Filter Condition) : Query :=
  { q with links := [.node (l.filtered f) []] }

/-- The query that keeps the joined rows that pass a filter. -/
def Query.filterRows (q : Query) (aliasName : String) (f : Filter Condition) : Query :=
  { q with criteria := f.under aliasName }

/-- No stored attribute and no primary identifier has a point in its name. -/
structure Database.PointFree (db : Database) : Prop where
  stored : ∀ entity, ∀ r ∈ db.store.records entity, ∀ e ∈ r.attributes, RecordQuery.PointFree e.1
  primaryId : ∀ name e, db.schema.entity? name = some e → RecordQuery.PointFree e.primaryId

section Placement

variable {db : Database} {ctx : Context}

theorem OrderedDatabase.plain_of_mem_snapshot (db : OrderedDatabase) (hpoints : db.PointFree)
    {name : String} {e : Entity} (he : db.schema.find name = .ok e) {r : Record}
    (hr : r ∈ db.store.snapshot e) : r.Plain := by
  have hprimary : RecordQuery.PointFree e.primaryId := by
    refine hpoints.primaryId name e ?_
    unfold Schema.find at he
    split at he
    next e' hentity =>
      cases he
      exact hentity
    next hnone => cases he
  refine ⟨(db.sorted.snapshot e r hr).attributes, fun entry hentry => ?_⟩
  obtain ⟨stored, hstored, rfl⟩ := List.mem_map.mp hr
  rcases NameMap.mem_insertNew hentry with rfl | hold
  · exact hprimary
  · exact hpoints.stored e.name stored hstored entry hold

/-! ## Conditions -/

/-- Under the alias a condition on the joined entity type compiles to the condition that it is in
the link, on another column. -/
theorem Condition.compileIn_under {c : Condition} (hc : c.aliasName = none) (aliasName : String)
    (root joined : Entity) (ctx : Context) :
    (c.withAlias aliasName).compileIn (.root root [(aliasName, joined)]) ctx =
      (c.compileIn (.link joined aliasName) ctx).map (CompiledCondition.under aliasName) := by
  have hroot : (Scope.root root [(aliasName, joined)]).locate? (c.withAlias aliasName).aliasName
      (lowercase (c.withAlias aliasName).name) =
        some (mergedName aliasName (lowercase c.name), joined) := by
    simp [Scope.locate?, Scope.root, NameMap.get?, withAlias]
  have hlink : (Scope.link joined aliasName).locate? c.aliasName (lowercase c.name) =
      some (lowercase c.name, joined) := by rw [hc]; rfl
  rw [compileIn, compileIn, hroot, hlink]
  exact compileFor_under c aliasName (lowercase c.name) joined ctx

theorem Filter.compile_under {f : Filter Condition} (hf : ∀ c ∈ f.allConditions, c.aliasName = none)
    (aliasName : String) (root joined : Entity) (ctx : Context) :
    (f.under aliasName).compile (.root root [(aliasName, joined)]) ctx =
      (f.compile (.link joined aliasName) ctx).map (Filter.map (CompiledCondition.under aliasName)) :=
  Filter.mapM_map fun c hc => c.compileIn_under (hf c hc) aliasName root joined ctx

theorem Filter.lowercase_column {f : Filter Condition}
    (hf : ∀ c ∈ f.allConditions, c.aliasName = none) {e : Entity} {aliasName : String}
    {compiled : Filter CompiledCondition} (h : f.compile (.link e aliasName) ctx = .ok compiled) :
    ∀ c ∈ compiled.allConditions, lowercase c.column = c.column := by
  intro c hc
  obtain ⟨written, hwritten, hcompiled⟩ := mem_of_mapM (Filter.mapM_allConditions h) hc
  rw [Condition.compileIn, hf written hwritten] at hcompiled
  rw [Condition.column_of_compileFor hcompiled, lowercase_lowercase]

theorem Filter.referencesAliases_of_isEmpty {f : Filter Condition} (h : f.isEmpty = true) :
    f.referencesAliases = false := by
  rw [isEmpty_eq, List.isEmpty_iff] at h
  rw [referencesAliases, h]
  rfl

theorem Filter.referencesAliases_under (f : Filter Condition) (aliasName : String) :
    (f.under aliasName).referencesAliases = !f.isEmpty := by
  rw [referencesAliases, under, allConditions_map, isEmpty_eq]
  cases f.allConditions with
  | nil => rfl
  | cons c cs => rfl

/-- A joined row passes the filter under the alias when its joined record passes the filter. -/
theorem evaluate_placed {j : Join} {row joined : Record} (hcolumns : j.columns = .all)
    (hrow : row.Plain) (hjoined : joined.Plain) {compiled : Filter CompiledCondition}
    (hlower : ∀ c ∈ compiled.allConditions, lowercase c.column = c.column) :
    SameValue ((compiled.map (CompiledCondition.under j.aliasName)).evaluate ctx
      (j.merge row joined)) (compiled.evaluate ctx joined) := by
  rw [Filter.evaluate, Filter.holds_map]
  exact Filter.holds_congr fun c hc =>
    CompiledCondition.evaluate_under hcolumns hrow hjoined (hlower c hc) ctx

/-! ## Records -/

theorem resolve_single {j : Join} (hkind : j.kind = .inner) (row source : Record) :
    resolve [.node j []] row source = (j.matchesOf source).map (List.map (j.merge row)) := by
  have hexpand : expand row source (.node j []) =
      (j.matchesOf source).map (List.map (j.merge row)) := by
    have hmerge : ∀ found : List Record,
        (found.mapM fun joined => resolveFrom joined [] [j.merge row joined]) =
          .ok (found.map fun joined => [j.merge row joined]) :=
      fun found => mapM_eq_ok_map fun _ _ => rfl
    rw [expand]
    cases j.matchesOf source with
    | error failure => rfl
    | ok found =>
        rw [ok_bind, hmerge, ok_bind, ← List.flatMap_def, ← List.map_eq_flatMap, hkind]
        simp
  rw [resolve, resolveFrom, List.mapM_cons, List.mapM_nil, hexpand]
  cases j.matchesOf source with
  | error failure => rfl
  | ok found => simp [resolveFrom]

/-- An inner join makes a row of every record that it finds. -/
theorem rows_of_single {l : LinkSpec} {j : Join} {n : Nat} (hplanned : l.Planned db ctx n j)
    (hkind : l.kind = .inner) {source : Record} {rows : List Record}
    (h : resolve [.node j []] source source = .ok rows) :
    (∃ key, joinKey? (lowercase l.fromAttribute) source = .ok key) ∧
      rows = ((found db ctx l j source).map (·.1)).map (j.merge source) := by
  rw [resolve_single (hplanned.kind.trans hkind)] at h
  obtain ⟨matched, hmatched, rfl⟩ := map_eq_ok_iff.mp h
  obtain ⟨key, hkey, hkeys⟩ := keys_of_matchesOf hplanned hmatched
  rw [matchesOf_planned hplanned hkey hkeys] at hmatched
  cases hmatched
  exact ⟨⟨key, hkey⟩, rfl⟩

/-- With a filter a link finds, of the records that it finds without criteria, those that pass. -/
theorem map_found_filtered {l : LinkSpec} {i j : Join} (hentity : i.entity = j.entity) {n : Nat}
    (hplanned : l.Planned db ctx n j) (hempty : l.criteria.isEmpty = true) {f : Filter Condition}
    {compiled : Filter CompiledCondition}
    (hcompiled : f.compile (.link i.entity i.aliasName) ctx = .ok compiled) {source : Record}
    {key : Option Key} (hkey : joinKey? (lowercase l.fromAttribute) source = .ok key) :
    (found db ctx (l.filtered f) i source).map (·.1) =
      ((found db ctx l j source).map (·.1)).filter fun r =>
        (compiled.evaluate ctx r).toOption.any (· = true) := by
  cases key with
  | none => rw [found_eq_nil (l := l.filtered f) hkey, found_eq_nil hkey]; rfl
  | some k =>
      obtain ⟨criteria, records, hcriteria, -, -⟩ := hplanned.candidates
      have hpass : ∀ r : Record, (criteria.evaluate ctx r).toOption.any (· = true) = true := by
        intro r
        have hcriteriaEmpty := (Filter.isEmpty_of_mapM hcriteria).trans hempty
        rw [Filter.evaluate, Filter.holds_of_isEmpty hcriteriaEmpty]
        rfl
      rw [map_found (l := l.filtered f) hcompiled hkey, map_found hcriteria hkey, hentity]
      simp only [hpass, List.filter_true, List.filter_filter, Bool.and_comm]
      rfl

/-! ## Rows -/

/-- The rows of the join with the filter are those of the join without criteria that pass the
filter under the alias. -/
theorem rows_placed {l : LinkSpec} {f : Filter Condition} {i j : Join} {n : Nat}
    (hi : (l.filtered f).Planned db ctx n i) (hj : l.Planned db ctx n j)
    (halias : i.aliasName = j.aliasName) (hkind : l.kind = .inner) (hcolumns : l.columns = .all)
    (hempty : l.criteria.isEmpty = true) {compiled : Filter CompiledCondition}
    (hcompiled : f.compile (.link i.entity i.aliasName) ctx = .ok compiled)
    (hlower : ∀ c ∈ compiled.allConditions, lowercase c.column = c.column)
    (hstored : ∀ r ∈ db.store.snapshot j.entity, r.Plain) {row : Record} (hrow : row.Plain)
    {rows rows' : List Record} (hrows : resolve [.node i []] row row = .ok rows)
    (hrows' : resolve [.node j []] row row = .ok rows') :
    rows = rows'.filter fun r =>
      ((compiled.map (CompiledCondition.under j.aliasName)).evaluate ctx r).toOption.any
        (· = true) := by
  have hentity : i.entity = j.entity := Except.ok.inj (hi.entity.symm.trans hj.entity)
  obtain ⟨⟨key, hkey⟩, rfl⟩ := rows_of_single hi hkind hrows
  obtain ⟨-, rfl⟩ := rows_of_single hj hkind hrows'
  rw [map_found_filtered hentity hj hempty hcompiled hkey, List.filter_map (f := j.merge row)]
  have hmerge : i.merge row = j.merge row :=
    funext (Join.merge_congr halias hentity (hi.columns.trans hj.columns.symm) row)
  rw [hmerge]
  refine congrArg _ (List.filter_congr fun joined hjoined => ?_)
  obtain ⟨⟨r, position⟩, hfound, rfl⟩ := List.mem_map.mp hjoined
  obtain ⟨⟨hposition, -⟩, -⟩ := mem_found.mp hfound
  have hplain : r.Plain := hstored r (List.mem_of_getElem? hposition)
  have hsame : SameValue _ (compiled.evaluate ctx r) :=
    evaluate_placed (hj.columns.trans hcolumns) hrow hplain hlower
  exact congrArg (Option.any (· = true)) hsame.symm

/-- Criteria that are tested on joined rows, unless they say nothing, filter the joined rows. -/
theorem CompiledQuery.rowsOf_eq_ok {c : CompiledQuery} (hjoined : c.filtersJoined = !c.criteria.isEmpty)
    {r : Record} {rows : List Record} (h : c.rowsOf ctx r = .ok rows) :
    ∃ all, resolve c.joins r r = .ok all ∧
      rows = all.filter fun row => (c.criteria.evaluate ctx row).toOption.any (· = true) := by
  cases hempty : c.criteria.isEmpty with
  | true =>
      have hpass : ∀ row : Record, c.criteria.evaluate ctx row = .ok true :=
        fun row => Filter.holds_of_isEmpty hempty
      rw [rowsOf, hjoined, hempty, hpass] at h
      refine ⟨rows, h, ?_⟩
      simp [hpass, Except.toOption]
  | false =>
      rw [hempty] at hjoined
      exact rowsOf_joined hjoined h

/-! ## The two compiled queries -/

/-- What the two forms of a query compile to: `c` filters the records that it joins, `c'` the rows
after joining. -/
structure Placed (db : Database) (ctx : Context) (l : LinkSpec) (f : Filter Condition) (n : Nat)
    (i j : Join) (compiled : Filter CompiledCondition) (c c' : CompiledQuery) : Prop where
  joins : c.joins = [.node i []]
  joins' : c'.joins = [.node j []]
  planned : (l.filtered f).Planned db ctx n i
  planned' : l.Planned db ctx n j
  aliasName : i.aliasName = j.aliasName
  compiles : f.compile (.link i.entity i.aliasName) ctx = .ok compiled
  criteria : c.criteria.isEmpty = true
  criteria' : c'.criteria = compiled.map (CompiledCondition.under j.aliasName)
  filtersJoined : c.filtersJoined = !c.criteria.isEmpty
  filtersJoined' : c'.filtersJoined = !c'.criteria.isEmpty
  orders : c.orders = c'.orders
  projector : c.projector = c'.projector

theorem Database.compile_placed {q : Query} {l : LinkSpec} {aliasName : String}
    (honce : q.JoinsOnce l aliasName) {f : Filter Condition}
    (hf : ∀ c ∈ f.allConditions, c.aliasName = none) {e : Entity} {n : Nat} {c c' : CompiledQuery}
    (hc : db.compile ctx (q.filterLink l f) e n = .ok c)
    (hc' : db.compile ctx (q.filterRows aliasName f) e n = .ok c') :
    ∃ i j compiled, Placed db ctx l f n i j compiled c c' := by
  obtain ⟨joins, aliases, criteria, orders, projector, hplan, hcriteria, horders, hprojector, rfl⟩ :=
    compile_eq_ok hc
  obtain ⟨joins', aliases', criteria', orders', projector', hplan', hcriteria', horders', hprojector',
    rfl⟩ := compile_eq_ok hc'
  obtain ⟨i, rfl, hi, hialias, rfl⟩ := plan_single hplan
  change db.plan ctx n e q.links = _ at hplan'
  rw [honce.links] at hplan'
  obtain ⟨j, rfl, hj, hjalias, rfl⟩ := plan_single hplan'
  have halias : i.aliasName = j.aliasName := hialias.trans hjalias.symm
  have hentity : i.entity = j.entity := Except.ok.inj (hi.entity.symm.trans hj.entity)
  have hgiven : j.aliasName = aliasName := by
    rw [hjalias, LinkSpec.aliasAt, honce.aliasName, Option.getD_some]
  -- orders and columns are compiled in the same scope
  rw [halias, hentity] at horders hprojector
  cases Except.ok.inj (horders.symm.trans horders')
  cases Except.ok.inj (hprojector.symm.trans hprojector')
  obtain ⟨compiled, -, hcompiled, -, -⟩ := hi.candidates
  change f.compile _ ctx = _ at hcompiled
  change (f.under aliasName).compile _ ctx = _ at hcriteria'
  have hempty : criteria.isEmpty = true := (Filter.isEmpty_of_mapM hcriteria).trans honce.criteria
  have hempty' : criteria'.isEmpty = f.isEmpty :=
    (Filter.isEmpty_of_mapM hcriteria').trans (Filter.isEmpty_map _ f)
  rw [← hgiven, Filter.compile_under hf, ← halias, ← hentity, hcompiled] at hcriteria'
  refine ⟨i, j, compiled, rfl, rfl, hi, hj, halias, hcompiled, hempty, ?_, ?_, ?_, rfl, rfl⟩
  · rw [← halias]
    exact (Except.ok.inj hcriteria').symm
  · change q.criteria.referencesAliases = !criteria.isEmpty
    rw [hempty, Filter.referencesAliases_of_isEmpty honce.criteria]
    rfl
  · change (f.under aliasName).referencesAliases = !criteria'.isEmpty
    rw [hempty', Filter.referencesAliases_under]

/-- Both forms make the same rows of every record. -/
theorem Placed.rowsOf_eq {q : Query} {l : LinkSpec} {aliasName : String}
    (honce : q.JoinsOnce l aliasName) {f : Filter Condition}
    (hf : ∀ c ∈ f.allConditions, c.aliasName = none) {n : Nat} {i j : Join}
    {compiled : Filter CompiledCondition} {c c' : CompiledQuery}
    (h : Placed db ctx l f n i j compiled c c')
    (hstored : ∀ r ∈ db.store.snapshot j.entity, r.Plain) {r : Record} (hr : r.Plain)
    {rows rows' : List Record} (hrows : c.rowsOf ctx r = .ok rows)
    (hrows' : c'.rowsOf ctx r = .ok rows') : rows = rows' := by
  obtain ⟨all, hall, rfl⟩ := CompiledQuery.rowsOf_eq_ok h.filtersJoined hrows
  obtain ⟨all', hall', rfl⟩ := CompiledQuery.rowsOf_eq_ok h.filtersJoined' hrows'
  rw [h.joins] at hall
  rw [h.joins'] at hall'
  have hpass : ∀ row : Record, c.criteria.evaluate ctx row = .ok true :=
    fun row => Filter.holds_of_isEmpty h.criteria
  have hplaced := rows_placed h.planned h.planned' h.aliasName honce.kind honce.columns
    honce.linkCriteria h.compiles (Filter.lowercase_column hf h.compiles) hstored hr hall hall'
  simpa [hpass, Except.toOption, h.criteria'] using hplaced

/-! ## Results -/

/-- **The place of a filter cannot be observed.**  In a database without points in the names of
attributes, a query with one inner join gives one result, whether a filter on the joined entity
type is the criteria of the link or, under the alias of the link, those of the query. -/
theorem Database.execute_eq_of_placements (db : OrderedDatabase) (hpoints : db.PointFree)
    {q : Query} {l : LinkSpec} {aliasName : String} (honce : q.JoinsOnce l aliasName)
    {f : Filter Condition} (hf : ∀ c ∈ f.allConditions, c.aliasName = none)
    {result result' : ResultSet} (hlink : db.execute ctx (q.filterLink l f) = .ok result)
    (hrows : db.execute ctx (q.filterRows aliasName f) = .ok result') : result = result' := by
  obtain ⟨-, e, c, rows, he, hc, hrun, hwindow⟩ := execute_eq_ok hlink
  obtain ⟨-, e', c', rows', he', hc', hrun', hwindow'⟩ := execute_eq_ok hrows
  cases Except.ok.inj (he.symm.trans he')
  obtain ⟨i, j, compiled, hplaced⟩ := compile_placed honce hf hc hc'
  obtain ⟨parts, sorted, hparts, hsort, rfl⟩ := CompiledQuery.run_eq_ok hrun
  obtain ⟨parts', sorted', hparts', hsort', rfl⟩ := CompiledQuery.run_eq_ok hrun'
  have hstored : ∀ r ∈ db.store.snapshot j.entity, r.Plain :=
    fun r hr => db.plain_of_mem_snapshot hpoints hplaced.planned'.entity hr
  have hsame : parts = parts' := mapM_eq_of_ok hparts hparts' fun r hr _ _ hrows hrows' =>
    hplaced.rowsOf_eq honce hf hstored (db.plain_of_mem_snapshot hpoints he hr) hrows hrows'
  rw [hsame, hplaced.orders] at hsort
  cases Except.ok.inj (hsort.symm.trans hsort')
  rw [hplaced.projector] at hwindow
  exact Except.ok.inj (hwindow.symm.trans hwindow')

end Placement

theorem Schema.forall_entities {s : Schema} {P : Entity → Prop} (h : ∀ p ∈ s.entities, P p.2) :
    ∀ name e, s.entity? name = some e → P e := by
  intro name e he
  rw [Schema.entity?, NameMap.lookup?] at he
  cases hwritten : NameMap.get? s.entities name with
  | some e' =>
      rw [hwritten] at he
      cases he
      exact h _ (NameMap.mem_of_get? hwritten)
  | none =>
      rw [hwritten] at he
      exact h _ (NameMap.mem_of_get? he)

namespace Sample

/-- From accounts to the contacts of their code. -/
def contactLink : LinkSpec :=
  ⟨"account", "code", "contact", "code", .inner, some "c", .all, .empty⟩

def accountsWithContacts : Query :=
  { Query.new "account" with columns := .all, links := [.node contactLink []] }

theorem joinsOnce : accountsWithContacts.JoinsOnce contactLink "c" :=
  ⟨rfl, rfl, rfl, rfl, rfl, rfl⟩

/-- The contacts of a name. -/
def namedAda : Filter Condition := .node .and [.eq "fullname" (.text "Ada")] []

/-- Of the two contacts with the code of the account one has the name. -/
theorem execute_eq_of_sample_placements : ∃ result result',
    db.execute ctx (accountsWithContacts.filterLink contactLink namedAda) = .ok result ∧
      db.execute ctx (accountsWithContacts.filterRows "c" namedAda) = .ok result' ∧
        result.rows.length = 1 ∧ result = result' := by
  have hlink : (db.execute ctx (accountsWithContacts.filterLink contactLink namedAda)).toOption.map
      (·.rows.length) = some 1 := by decide +kernel
  obtain ⟨result, hresult⟩ := exists_eq_ok_of_isOk
    (x := db.execute ctx (accountsWithContacts.filterLink contactLink namedAda)) (by decide +kernel)
  obtain ⟨result', hresult'⟩ := exists_eq_ok_of_isOk
    (x := db.execute ctx (accountsWithContacts.filterRows "c" namedAda)) (by decide +kernel)
  have hpoints : db.PointFree :=
    ⟨Store.forall_records (by decide +kernel), Schema.forall_entities (by decide +kernel)⟩
  rw [hresult] at hlink
  exact ⟨result, result', hresult, hresult', Option.some.inj hlink,
    Database.execute_eq_of_placements ordered hpoints joinsOnce (by decide +kernel) hresult hresult'⟩

/-! ## Points -/

/-- An account and a contact of its code.  The primary identifier of accounts has the name of a
column of contacts that are joined under the alias `c`. -/
def pointed : Database where
  store := ⟨[("account", .ofRecords [contoso]), ("contact", .ofRecords [ada])]⟩
  schema := Schema.ofEntities 1 default
    [(Entity.new "account" "c.x").declare "code" .decimal, contact.declare "x" .uniqueIdentifier]

/-- The contacts without an `x`. -/
def withoutX : Filter Condition := .node .and [.new "x" (.null true) []] []

/-- The contact has no `x`, but the row has the identifier of the account in that place, although
no stored attribute has a point in its name. -/
theorem placement_observable :
    (∀ entity, ∀ r ∈ pointed.store.records entity, ∀ e ∈ r.attributes, PointFree e.1) ∧
      pointed.store.Sorted ∧ accountsWithContacts.JoinsOnce contactLink "c" ∧
      (∀ c ∈ withoutX.allConditions, c.aliasName = none) ∧
      ∃ result result',
        pointed.execute ctx (accountsWithContacts.filterLink contactLink withoutX) = .ok result ∧
        pointed.execute ctx (accountsWithContacts.filterRows "c" withoutX) = .ok result' ∧
        result ≠ result' := by
  refine ⟨Store.forall_records (by decide +kernel), Store.forall_records (by decide +kernel),
    joinsOnce, by decide +kernel, ?_⟩
  have hlink : (pointed.execute ctx
      (accountsWithContacts.filterLink contactLink withoutX)).toOption.map (·.rows.length) =
        some 1 := by decide +kernel
  have hrows : (pointed.execute ctx
      (accountsWithContacts.filterRows "c" withoutX)).toOption.map (·.rows.length) =
        some 0 := by decide +kernel
  obtain ⟨result, hresult⟩ := exists_eq_ok_of_isOk
    (x := pointed.execute ctx (accountsWithContacts.filterLink contactLink withoutX))
    (by decide +kernel)
  obtain ⟨result', hresult'⟩ := exists_eq_ok_of_isOk
    (x := pointed.execute ctx (accountsWithContacts.filterRows "c" withoutX)) (by decide +kernel)
  refine ⟨result, result', hresult, hresult', ?_⟩
  rintro rfl
  rw [hresult] at hlink
  rw [hresult'] at hrows
  exact absurd (hlink.symm.trans hrows) (by decide)

end Sample

end RecordQuery
