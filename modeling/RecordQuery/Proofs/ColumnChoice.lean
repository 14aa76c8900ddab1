import RecordQuery.Proofs.Join.Placement
import RecordQuery.Proofs.Join.Recolumned
import RecordQuery.Proofs.Query.Related
import RecordQuery.Proofs.Windowing

/-!
# Which columns matter

The columns that a query asks for decide what its rows hold.  They also decide which rows there are,
but in one way only: the criteria that name an alias and the orders are evaluated on the joined row,
which holds no column that the link was not asked for.  So columns that neither of them reads can be
changed at will (`Database.ids_eq_of_recolumned`), and those that they read cannot
(`Sample.columns_observable`).

*Reads.*  `Query.readNames` are the names under which a query looks up attributes in joined rows.

*Rows.*  Rows that agree on these names pass the same tests (`Filter.evaluate_agree`) and have the
same keys (`CompiledOrder.keysOf_agree`), so two queries whose joins agree keep rows in agreement
(`CompiledQuery.Agrees.keeps`).
-/

namespace RecordQuery

open Text

/-! ## What a query reads -/

/-- The name under which joined rows hold an attribute that the root scope names. -/
def rowColumn (aliasName : Option String) (name : String) : String :=
  match aliasName with
  | none => name
  | some a => mergedName a name

/-- The columns of joined rows that the orders of a query read, and its criteria if they name an
alias. -/
def Query.rowColumns (q : Query) : List String :=
  q.orders.map (fun o => rowColumn o.aliasName (lowercase o.name)) ++
    if q.criteria.referencesAliases then
      q.criteria.allConditions.map fun c => rowColumn c.aliasName (lowercase c.name)
    else []

/-- The names that a query looks up in joined rows: those of the columns it reads, and their lower
case. -/
def Query.readNames (q : Query) : List String := q.rowColumns ++ q.rowColumns.map lowercase

/-- A column is looked up under names of a list only. -/
def Covers (names : List String) (column : String) : Prop :=
  column ∈ names ∧ lowercase column ∈ names

theorem Query.covers_of_mem {q : Query} {column : String} (h : column ∈ q.rowColumns) :
    Covers q.readNames column :=
  ⟨List.mem_append_left _ h, List.mem_append_right _ (List.mem_map_of_mem h)⟩

section Compiling

variable {e : Entity} {aliases : NameMap Entity} {ctx : Context}

theorem Scope.column_of_locate? {aliasName : Option String} {name column : String} {e' : Entity}
    (h : (Scope.root e aliases).locate? aliasName name = some (column, e')) :
    column = rowColumn aliasName name := by
  cases aliasName with
  | none =>
      cases h
      rfl
  | some a =>
      obtain ⟨found, -, heq⟩ := Option.map_eq_some_iff.mp h
      cases heq
      rfl

theorem Condition.column_of_compileIn {c : Condition} {compiled : CompiledCondition}
    (h : c.compileIn (.root e aliases) ctx = .ok compiled) :
    compiled.column = rowColumn c.aliasName (lowercase c.name) := by
  unfold compileIn at h
  split at h
  next column e' hlocate =>
    rw [column_of_compileFor h]
    exact Scope.column_of_locate? hlocate
  next => cases h

theorem Order.column_of_compile {o : Order} {compiled : CompiledOrder}
    (h : o.compile (.root e aliases) ctx = .ok compiled) :
    compiled.column = rowColumn o.aliasName (lowercase o.name) := by
  simp only [compile] at h
  split at h
  next => cases h
  next column e' hlocate =>
    obtain ⟨-, heq⟩ := refuse_eq_ok_iff.mp h
    cases heq
    exact Scope.column_of_locate? hlocate

end Compiling

/-! ## Rows that agree -/

section Rows

variable {names : List String} {ctx : Context} {row row' : Record}

theorem Key.ofColumn_agree (h : row.AgreeOn names row') {column : String}
    (hcolumn : Covers names column) (declared : Option AttributeType) :
    Key.ofColumn row column declared = Key.ofColumn row' column declared := by
  rw [Key.ofColumn, Key.ofColumn, h.get?_eq hcolumn.1 hcolumn.2]

/-- Rows that agree on all columns of a filter pass it alike. -/
theorem Filter.evaluate_agree (h : row.AgreeOn names row') {f : Filter CompiledCondition}
    (hf : ∀ c ∈ f.allConditions, Covers names c.column) :
    SameValue (f.evaluate ctx row) (f.evaluate ctx row') := by
  refine Filter.holds_congr fun c hc => ?_
  have hkey : c.keyOf row = c.keyOf row' := by
    unfold CompiledCondition.keyOf
    split
    next t hdeclared => exact Key.ofColumn_agree h (hf c hc) (some t)
    next hnone => rfl
  rw [CompiledCondition.evaluate, CompiledCondition.evaluate, hkey]
  exact .refl _

/-- Rows that agree on all columns they are ordered by have the same keys. -/
theorem CompiledOrder.keysOf_agree (h : row.AgreeOn names row') {os : List CompiledOrder}
    (hos : ∀ o ∈ os, Covers names o.column) : keysOf os row = keysOf os row' := by
  induction os with
  | nil => rfl
  | cons o os ih =>
      obtain ⟨hfirst, hrest⟩ := List.forall_mem_cons.mp hos
      simp only [keysOf, List.mapM_cons] at ih ⊢
      rw [Key.ofColumn_agree h hfirst, ih hrest]

end Rows

/-! ## Queries that agree -/

/-- Two compiled queries differ in nothing but their projections and in joins that agree on the
names under which rows are read. -/
structure CompiledQuery.Agrees (names : List String) (c c' : CompiledQuery) : Prop where
  joins : Tree.ForestRel (Join.Agrees names) c.joins c'.joins
  criteria : c.criteria = c'.criteria
  filtersJoined : c.filtersJoined = c'.filtersJoined
  orders : c.orders = c'.orders
  /-- Criteria that are tested on joined rows read the names only. -/
  readsCriteria : c.filtersJoined = true → ∀ d ∈ c.criteria.allConditions, Covers names d.column
  readsOrders : ∀ o ∈ c.orders, Covers names o.column

namespace CompiledQuery.Agrees

variable {names : List String} {ctx : Context} {c c' : CompiledQuery}

/-- Queries that agree keep rows in agreement. -/
theorem keeps (hc : Agrees names c c') (ctx : Context) :
    Keeps ctx (Record.AgreeOn names) c c' where
  joins := hc.joins.mono fun _ _ => Join.Agrees.keeps
  criteria := hc.criteria
  filtersJoined := hc.filtersJoined
  orders := hc.orders
  tests hjoined _ _ hrow := Filter.evaluate_agree hrow (hc.readsCriteria hjoined)
  keys hrow := CompiledOrder.keysOf_agree hrow hc.readsOrders

/-- Running queries that agree gives rows of the same records in the same order. -/
theorem run_agree (hc : Agrees names c c') {records rows rows' : List Record}
    (h : c.run ctx records = .ok rows) (h' : c'.run ctx records = .ok rows') :
    rows.map (·.id) = rows'.map (·.id) := by
  have hrun : Together (List.Forall₂ fun row row' => row.id = row'.id) (c.run ctx records)
      (c'.run ctx records) :=
    (hc.keeps ctx).run_together (fun r _ => .refl names r) fun hrow => hrow.id
  have hids := hrun.of_ok h h'
  rw [← List.forall₂_eq_eq_eq, List.forall₂_map_left_iff, List.forall₂_map_right_iff]
  exact hids

end CompiledQuery.Agrees

/-! ## Execution -/

namespace Query

/-- A window cuts the same records out of rows of the same records. -/
theorem window_ids {q : Query} {e : String} {rows rows' : List Record} {result result' : ResultSet}
    (hrows : rows.map (·.id) = rows'.map (·.id)) (h : q.window e rows = .ok result)
    (h' : q.window e rows' = .ok result') :
    result.rows.map (·.id) = result'.rows.map (·.id) := by
  rw [rows_of_window h, rows_of_window h', map_inWindow, map_inWindow, hrows]

/-- The query with other columns and other links. -/
def withColumns (q : Query) (columns : ColumnSet) (links : List Link) : Query :=
  { q with columns := columns, links := links }

end Query

namespace Database

variable {db : Database} {ctx : Context} {q : Query} {columns : ColumnSet} {links : List Link}
  {last : Nat}

/-- Criteria that are tested on joined rows, and orders, read what the query reads. -/
theorem compile_reads {e : Entity} {n : Nat} {c : CompiledQuery}
    (h : db.compile ctx q e n = .ok c) :
    (c.filtersJoined = true → ∀ d ∈ c.criteria.allConditions, Covers q.readNames d.column) ∧
      ∀ o ∈ c.orders, Covers q.readNames o.column := by
  obtain ⟨joins, aliases, criteria, orders, projector, -, hcriteria, horders, -, rfl⟩ :=
    compile_eq_ok h
  constructor
  · intro hjoined d hd
    obtain ⟨written, hwritten, hd⟩ := mem_of_mapM (Filter.mapM_allConditions hcriteria) hd
    rw [Condition.column_of_compileIn hd]
    refine Query.covers_of_mem (List.mem_append_right _ ?_)
    change q.criteria.referencesAliases = true at hjoined
    rw [if_pos hjoined]
    exact List.mem_map_of_mem hwritten
  · intro o ho
    obtain ⟨written, hwritten, ho⟩ := mem_of_mapM horders ho
    rw [Order.column_of_compile ho]
    exact Query.covers_of_mem (List.mem_append_left _ (List.mem_map_of_mem hwritten))

/-- Links that fill in alike what the query reads give compiled queries that agree. -/
theorem compile_agrees
    (hlinks : Tree.ForestRelAt (LinkSpec.FillsAlike db q.readNames) 0 q.links links last)
    {e : Entity} {n : Nat} {c c' : CompiledQuery} (h : db.compile ctx q e n = .ok c)
    (h' : db.compile ctx (q.withColumns columns links) e n = .ok c') : c.Agrees q.readNames c' := by
  obtain ⟨hcriteria, horders⟩ := compile_reads h
  obtain ⟨joins, aliases, criteria, orders, projector, hplan, hcompiled, hcompiles, -, rfl⟩ :=
    compile_eq_ok h
  obtain ⟨joins', aliases', criteria', orders', projector', hplan', hcompiled', hcompiles', -,
    rfl⟩ := compile_eq_ok h'
  obtain ⟨⟨forest, state⟩, hforest, heq⟩ := map_eq_ok_iff.mp hplan
  cases heq
  obtain ⟨⟨forest', state'⟩, hforest', heq⟩ := map_eq_ok_iff.mp hplan'
  cases heq
  obtain ⟨hjoins, rfl, -⟩ := planForest_agrees hlinks hforest hforest'
  cases Except.ok.inj (hcompiled.symm.trans hcompiled')
  cases Except.ok.inj (hcompiles.symm.trans hcompiles')
  exact ⟨hjoins, rfl, rfl, rfl, hcriteria, horders⟩

/-- **Only the columns that are read matter.**  A query that drops no repeated rows returns rows of
the same records, in the same order, when it asks for other columns of its own entity type, and when
its links, at any depth, ask for other columns that fill in alike whatever the orders read, and
the criteria if they name an alias. -/
theorem ids_eq_of_recolumned (hdistinct : q.distinct = false)
    (hlinks : Tree.ForestRelAt (LinkSpec.FillsAlike db q.readNames) 0 q.links links last)
    {result result' : ResultSet} (h : db.execute ctx q = .ok result)
    (h' : db.execute ctx (q.withColumns columns links) = .ok result') :
    result.rows.map (·.id) = result'.rows.map (·.id) := by
  obtain ⟨-, e, c, rows, he, hc, hrun, hwindow⟩ := execute_eq_ok h
  obtain ⟨-, e', c', rows', he', hc', hrun', hwindow'⟩ := execute_eq_ok h'
  cases Except.ok.inj (he.symm.trans he')
  have hids := (compile_agrees hlinks hc hc').run_agree hrun hrun'
  have hdistinct' : (q.withColumns columns links).distinct = false := hdistinct
  rw [hdistinct] at hwindow
  rw [hdistinct'] at hwindow'
  exact Query.window_ids hids hwindow hwindow'

end Database

namespace Sample

/-- The accounts of contacts named Ada, with some columns of the contacts. -/
def accountsOfAda (columns : ColumnSet) : Query :=
  { accountsWithContacts.filterRows "c" namedAda with
    links := [.node { contactLink with columns := columns } []] }

/-- All columns fill in the name that the criteria read, as does the name alone. -/
theorem fillsAlike_fullname :
    Tree.ForestRelAt (LinkSpec.FillsAlike db (accountsOfAda (.listed ["fullname"])).readNames) 0
      (accountsOfAda (.listed ["fullname"])).links (accountsOfAda .all).links 1 := by
  have hstored : db.store.snapshot contact =
      [Store.withPrimaryId contact ada, Store.withPrimaryId contact grace,
        Store.withPrimaryId contact linus] := rfl
  have hnames : (accountsOfAda (.listed ["fullname"])).readNames = ["c.fullname", "c.fullname"] := by
    rfl
  refine .cons (.node (.columns .all ?_) .nil) .nil
  intro e he joined hjoined n hn
  have hentity : contact = e := Except.ok.inj he
  subst hentity
  rw [hstored] at hjoined
  rw [hnames] at hn
  simp only [List.mem_cons, List.not_mem_nil, or_false, or_self] at hjoined hn
  subst hn
  rcases hjoined with rfl | rfl | rfl
  · rfl
  · rfl
  · rfl

/-- Asking for all columns of the contacts, and for none of the accounts, changes nothing. -/
theorem ids_eq_of_all_columns : ∃ result result',
    db.execute ctx (accountsOfAda (.listed ["fullname"])) = .ok result ∧
      db.execute ctx ((accountsOfAda (.listed ["fullname"])).withColumns .empty
        (accountsOfAda .all).links) = .ok result' ∧
        result.rows.length = 1 ∧ result.rows.map (·.id) = result'.rows.map (·.id) := by
  obtain ⟨result, hresult, hlength⟩ := exists_eq_ok_of_map
    (x := db.execute ctx (accountsOfAda (.listed ["fullname"]))) (f := (·.rows.length)) (b := 1)
    (by decide +kernel)
  obtain ⟨result', hresult'⟩ := exists_eq_ok_of_isOk
    (x := db.execute ctx ((accountsOfAda (.listed ["fullname"])).withColumns .empty
      (accountsOfAda .all).links)) (by decide +kernel)
  exact ⟨result, result', hresult, hresult', hlength,
    Database.ids_eq_of_recolumned rfl fillsAlike_fullname hresult hresult'⟩

/-- The criteria read the name of the contact, so without it no row passes them. -/
theorem columns_observable : ∃ result result',
    db.execute ctx (accountsOfAda (.listed ["fullname"])) = .ok result ∧
      db.execute ctx (accountsOfAda .empty) = .ok result' ∧
      (accountsOfAda (.listed ["fullname"])).distinct = false ∧
      (accountsOfAda .empty).distinct = false ∧
      result.rows.map (·.id) ≠ result'.rows.map (·.id) := by
  obtain ⟨result, hresult, hread⟩ := exists_eq_ok_of_map
    (x := db.execute ctx (accountsOfAda (.listed ["fullname"]))) (f := (·.rows.map (·.id)))
    (b := [⟨1⟩]) (by decide +kernel)
  obtain ⟨result', hresult', hunread⟩ := exists_eq_ok_of_map
    (x := db.execute ctx (accountsOfAda .empty)) (f := (·.rows.map (·.id))) (b := [])
    (by decide +kernel)
  refine ⟨result, result', hresult, hresult', rfl, rfl, fun heq => ?_⟩
  rw [hread, hunread] at heq
  cases heq

end Sample

end RecordQuery
