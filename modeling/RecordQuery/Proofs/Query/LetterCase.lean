import RecordQuery.Execute
import RecordQuery.Proofs.Canonical
import RecordQuery.Proofs.Join.Planned
import RecordQuery.Proofs.Query.Filter
import RecordQuery.Proofs.Together

/-!
# Queries that differ in letter case

Two queries are alike when they become one query as soon as the letters `A` to `Z` of all names are
folded, those of aliases apart (`Query.Alike`).  On a database whose names are in lower case they
are compiled together: both are refused, or both give compiled queries that differ in the
spelling of requested columns only (`Database.compile_together`).

*Conditions and orders* are compiled by the lower case of their names, so alike ones are compiled
to the same (`Filter.compile_congr`, `Order.compile_folded`).

*Links* look names up on entity types.  A link without an alias of its own is named after the
spelling of its target, so every link must have one.  The requested columns of a link go into the
join as they are spelled (`Join.Alike`): this is where alike queries may come apart later.
-/

namespace RecordQuery

open Text

/-! ## Folded names -/

/-- The condition with the name of its attribute folded. -/
def Condition.folded (c : Condition) : Condition := { c with name := asciiLower c.name }

/-- The order with the name of its attribute folded. -/
def Order.folded (o : Order) : Order := { o with name := asciiLower o.name }

/-- The columns with all names folded. -/
def ColumnSet.folded : ColumnSet → ColumnSet
  | .all => .all
  | .listed names => .listed (names.map asciiLower)

/-- The link with all names folded, its alias apart. -/
def LinkSpec.folded (l : LinkSpec) : LinkSpec :=
  { l with
    source := asciiLower l.source
    fromAttribute := asciiLower l.fromAttribute
    target := asciiLower l.target
    toAttribute := asciiLower l.toAttribute
    columns := l.columns.folded
    criteria := l.criteria.map Condition.folded }

/-- The queries differ in the case of the letters `A` to `Z` in names other than aliases. -/
structure Query.Alike (q q' : Query) : Prop where
  entity : asciiLower q.entity = asciiLower q'.entity
  columns : q.columns.folded = q'.columns.folded
  criteria : q.criteria.map Condition.folded = q'.criteria.map Condition.folded
  links : Tree.ForestRel (fun l l' => l.folded = l'.folded) q.links q'.links
  orders : q.orders.map Order.folded = q'.orders.map Order.folded
  page : q.page = q'.page
  top : q.top = q'.top
  distinct : q.distinct = q'.distinct
  countTotal : q.countTotal = q'.countTotal

/-! ## Requested columns -/

namespace ColumnSet

variable {c c' : ColumnSet}

/-- Alike columns are both all, or lists of names that are alike one by one. -/
theorem folded_cases (h : c.folded = c'.folded) : c = .all ∧ c' = .all ∨
    ∃ names names', c = .listed names ∧ c' = .listed names' ∧
      List.Forall₂ (fun n n' => asciiLower n = asciiLower n') names names' := by
  cases c with
  | all =>
      cases c' with
      | all => exact .inl ⟨rfl, rfl⟩
      | listed names' => cases h
  | listed names =>
      cases c' with
      | all => cases h
      | listed names' =>
          refine .inr ⟨names, names', rfl, rfl, ?_⟩
          have hnames : names.map asciiLower = names'.map asciiLower := ColumnSet.listed.inj h
          rw [← List.forall₂_eq_eq_eq, List.forall₂_map_left_iff, List.forall₂_map_right_iff]
            at hnames
          exact hnames

theorem explicit_forall₂ (h : c.folded = c'.folded) :
    List.Forall₂ (fun n n' => asciiLower n = asciiLower n') c.explicit c'.explicit := by
  rcases folded_cases h with ⟨rfl, rfl⟩ | ⟨names, names', rfl, rfl, hnames⟩
  · exact .nil
  · exact hnames

/-- Alike columns contain the same names. -/
theorem contains_congr (h : c.folded = c'.folded) (name : String) :
    c.contains name = c'.contains name := by
  rcases folded_cases h with ⟨rfl, rfl⟩ | ⟨names, names', rfl, rfl, hnames⟩
  · rfl
  · clear h
    simp only [contains]
    induction hnames with
    | nil => rfl
    | cons hfirst _ ih => rw [List.any_cons, List.any_cons, equalIgnoringAsciiCase_congr hfirst, ih]

end ColumnSet

/-! ## Conditions and orders -/

section Compiling

variable {s : Scope} {ctx : Context}

theorem Condition.compileIn_folded (c : Condition) (s : Scope) (ctx : Context) :
    c.folded.compileIn s ctx = c.compileIn s ctx := by
  simp only [compileIn, compileFor, folded, lowercase_asciiLower]

theorem Order.compile_folded (o : Order) (s : Scope) (ctx : Context) :
    o.folded.compile s ctx = o.compile s ctx := by
  simp only [compile, folded, lowercase_asciiLower]

namespace Filter

variable {f f' : Filter Condition}

/-- Alike filters are compiled to the same. -/
theorem compile_congr (h : f.map Condition.folded = f'.map Condition.folded) (s : Scope)
    (ctx : Context) : f.compile s ctx = f'.compile s ctx := by
  have hfolded : ∀ g : Filter Condition,
      (g.map Condition.folded).compile s ctx = g.compile s ctx := by
    intro g
    have hmap : (g.map Condition.folded).compile s ctx = (g.compile s ctx).map (Filter.map id) :=
      mapM_map fun c _ => by
        rw [c.compileIn_folded]
        cases c.compileIn s ctx <;> rfl
    rw [hmap]
    cases g.compile s ctx with
    | error failure => rfl
    | ok compiled => rw [ok_map, map_id]
  rw [← hfolded f, h, hfolded f']

theorem referencesAliases_congr (h : f.map Condition.folded = f'.map Condition.folded) :
    f.referencesAliases = f'.referencesAliases := by
  have hfolded : ∀ g : Filter Condition,
      (g.map Condition.folded).referencesAliases = g.referencesAliases := by
    intro g
    rw [referencesAliases, allConditions_map, List.any_map]
    rfl
  rw [← hfolded f, h, hfolded f']

end Filter

theorem compileOrders_congr {os os' : List Order} (h : os.map Order.folded = os'.map Order.folded)
    (s : Scope) (ctx : Context) :
    os.mapM (·.compile s ctx) = os'.mapM (·.compile s ctx) := by
  have hfolded : ∀ os : List Order,
      (os.map Order.folded).mapM (·.compile s ctx) = os.mapM (·.compile s ctx) := by
    intro os
    rw [List.mapM_map]
    exact congrArg (List.mapM · os) (funext fun o => o.compile_folded s ctx)
  rw [← hfolded os, h, hfolded os']

end Compiling

/-! ## Declared names -/

namespace Entity.Canonical

variable {e : Entity} (h : e.Canonical)

include h

theorem require_together {n n' : String} (hn : asciiLower n = asciiLower n') :
    Together Eq (e.require n) (e.require n') := by
  rw [require, require, h.declares_congr hn]
  cases e.declares n' with
  | true => exact .ok rfl
  | false => exact .error _ _

theorem requireAll_together {names names' : List String}
    (hnames : List.Forall₂ (fun n n' => asciiLower n = asciiLower n') names names') :
    Together Eq (e.requireAll names) (e.requireAll names') := by
  induction hnames with
  | nil => exact .ok rfl
  | cons hfirst _ ih => exact (h.require_together hfirst).bind fun _ _ _ => ih

end Entity.Canonical

theorem Schema.Canonical.find_together {s : Schema} (h : s.Canonical) {n n' : String}
    (hn : asciiLower n = asciiLower n') :
    Together (fun e e' => e = e' ∧ e.Canonical) (s.find n) (s.find n') := by
  have hsame : s.entity? n = s.entity? n' := h.names.lookup?_congr hn
  rw [Schema.find, Schema.find, hsame]
  cases hfound : s.entity? n' with
  | none => exact .error _ _
  | some e => exact .ok ⟨rfl, h.entity? hfound⟩

/-! ## Links -/

/-- The joins are the same but for the spelling of the columns they were asked for. -/
structure Join.Alike (i j : Join) : Prop where
  eq_of_columns : { i with columns := j.columns } = j
  columns : i.columns.folded = j.columns.folded

namespace Join.Alike

variable {i j : Join} (h : i.Alike j)

include h

theorem aliasName : i.aliasName = j.aliasName := by rw [← h.eq_of_columns]

theorem entity : i.entity = j.entity := by rw [← h.eq_of_columns]

theorem kind : i.kind = j.kind := by rw [← h.eq_of_columns]

/-- What is found does not depend on the requested columns. -/
theorem matchesOf (source : Record) : i.matchesOf source = j.matchesOf source := by
  rw [← h.eq_of_columns]
  rfl

theorem eq_of_same_columns (hcolumns : i.columns = j.columns) : i = j := by
  rw [← h.eq_of_columns, ← hcolumns]

end Join.Alike

namespace LinkSpec

variable {l l' : LinkSpec} (h : l.folded = l'.folded)

include h

theorem requireDeclared_together {parent e : Entity} (hparent : parent.Canonical)
    (he : e.Canonical) : Together Eq (l.requireDeclared parent e) (l'.requireDeclared parent e) := by
  have hfrom : asciiLower l.fromAttribute = asciiLower l'.fromAttribute := congrArg fromAttribute h
  have hto : asciiLower l.toAttribute = asciiLower l'.toAttribute := congrArg toAttribute h
  have hcolumns := ColumnSet.explicit_forall₂ (congrArg columns h)
  refine (hparent.require_together hfrom).bind fun _ _ _ => ?_
  exact he.requireAll_together (.cons hto hcolumns)

end LinkSpec

namespace Database

variable {db : Database} {ctx : Context} {rows : Nat}

/-- Alike links are planned together, to joins that are alike. -/
theorem planLink_together (hdb : db.schema.Canonical) {l l' : LinkSpec} (h : l.folded = l'.folded)
    (halias : l.aliasName ≠ none) {parent : Entity} (hparent : parent.Canonical)
    (state : PlanState) :
    Together (fun p p' => (p.1.Alike p'.1 ∧ p.1.entity.Canonical) ∧ p.2 = p'.2)
      (db.planLink ctx rows parent state l) (db.planLink ctx rows parent state l') := by
  obtain ⟨a, ha⟩ := Option.ne_none_iff_exists'.mp halias
  have ha' : l'.aliasName = some a := (congrArg LinkSpec.aliasName h).symm.trans ha
  have hgiven : l.aliasAt (state.position + 1) = l'.aliasAt (state.position + 1) := by
    rw [LinkSpec.aliasAt, LinkSpec.aliasAt, ha, ha']
    rfl
  have hsource := equalIgnoringAsciiCase_congr (congrArg LinkSpec.source h) parent.name
  have hfrom : lowercase l.fromAttribute = lowercase l'.fromAttribute :=
    lowercase_congr (congrArg LinkSpec.fromAttribute h)
  have hto : lowercase l.toAttribute = lowercase l'.toAttribute :=
    lowercase_congr (congrArg LinkSpec.toAttribute h)
  have hkind : l.folded.kind = l'.folded.kind := congrArg LinkSpec.kind h
  change l.kind = l'.kind at hkind
  unfold planLink
  simp only [throw_bind, hgiven, hto]
  refine .refuse Iff.rfl _ _ fun _ => .refuse (by rw [hsource]) _ _ fun _ => ?_
  refine (hdb.find_together (congrArg LinkSpec.target h)).bind ?_
  rintro e _ ⟨rfl, he⟩
  refine .check (LinkSpec.requireDeclared_together h hparent he) ?_
  rw [Filter.compile_congr (congrArg LinkSpec.criteria h)]
  refine (Together.refl (fun _ => rfl) _).bind ?_
  rintro criteria _ rfl
  refine (Together.refl (fun _ => rfl) _).bind ?_
  rintro records _ rfl
  refine (Together.refl (fun _ => rfl) _).bind ?_
  rintro candidates _ rfl
  refine .ok ⟨⟨⟨?_, congrArg LinkSpec.columns h⟩, he⟩, rfl⟩
  simp only [hfrom, hkind]

mutual

theorem planTree_together (hdb : db.schema.Canonical) : ∀ {l l' : Link},
    Tree.Rel (fun l l' => l.folded = l'.folded) l l' → (∀ s ∈ l.labels, s.aliasName ≠ none) →
      ∀ {parent : Entity}, parent.Canonical → ∀ state : PlanState,
        Together (fun p p' => Tree.Rel Join.Alike p.1 p'.1 ∧ p.2 = p'.2)
          (planTree db ctx rows parent state l) (planTree db ctx rows parent state l')
  | .node l ls, .node l' ls', .node hlink hbelow, halias, parent, hparent, state => by
      rw [Tree.labels, List.forall_mem_cons] at halias
      rw [planTree, planTree]
      refine (planLink_together hdb hlink halias.1 hparent state).bind ?_
      rintro ⟨i, state₁⟩ ⟨j, _⟩ ⟨⟨hjoin, hentity⟩, rfl⟩
      dsimp only at hjoin hentity ⊢
      rw [← hjoin.entity]
      refine (planForest_together hdb hbelow halias.2 hentity state₁).bind ?_
      rintro ⟨ts, state₂⟩ ⟨us, _⟩ ⟨hforest, rfl⟩
      exact .ok ⟨.node hjoin hforest, rfl⟩

theorem planForest_together (hdb : db.schema.Canonical) : ∀ {ls ls' : List Link},
    Tree.ForestRel (fun l l' => l.folded = l'.folded) ls ls' →
      (∀ s ∈ Tree.forestLabels ls, s.aliasName ≠ none) →
        ∀ {parent : Entity}, parent.Canonical → ∀ state : PlanState,
          Together (fun p p' => Tree.ForestRel Join.Alike p.1 p'.1 ∧ p.2 = p'.2)
            (planForest db ctx rows parent state ls) (planForest db ctx rows parent state ls')
  | [], [], .nil, _, _, _, _ => .ok ⟨.nil, rfl⟩
  | l :: ls, l' :: ls', .cons htree hrest, halias, parent, hparent, state => by
      rw [Tree.forestLabels, List.forall_mem_append] at halias
      rw [planForest, planForest]
      refine (planTree_together hdb htree halias.1 hparent state).bind ?_
      rintro ⟨t, state₁⟩ ⟨u, _⟩ ⟨hfirst, rfl⟩
      refine (planForest_together hdb hrest halias.2 hparent state₁).bind ?_
      rintro ⟨ts, state₂⟩ ⟨us, _⟩ ⟨hforest, rfl⟩
      exact .ok ⟨.cons hfirst hforest, rfl⟩

end

end Database

/-! ## Compiled queries -/

/-- A projection does not see the case of the letters in the columns that it is asked for. -/
theorem Projector.project_congr (p : Projector) {columns : ColumnSet}
    (h : p.columns.folded = columns.folded) :
    p.project = { p with columns := columns }.project := by
  have hselects : p.selects = { p with columns := columns }.selects := by
    funext name
    rw [selects, selects, ColumnSet.contains_congr h]
  funext row
  simp only [project, keptAttributes, hselects]
  rfl

/-- The compiled queries are the same but for the spelling of requested columns, which those of the
query itself do not show. -/
structure CompiledQuery.Alike (c c' : CompiledQuery) : Prop where
  joins : Tree.ForestRel Join.Alike c.joins c'.joins
  criteria : c.criteria = c'.criteria
  filtersJoined : c.filtersJoined = c'.filtersJoined
  orders : c.orders = c'.orders
  project : c.projector.project = c'.projector.project

/-- **Alike queries are compiled together.**  Both are refused, or both give compiled queries that
are alike. -/
theorem Database.compile_together {db : Database} {ctx : Context} (hdb : db.schema.Canonical)
    {q q' : Query} (h : q.Alike q') (halias : ∀ l ∈ Tree.forestLabels q.links, l.aliasName ≠ none)
    {e : Entity} (he : e.Canonical) (n : Nat) :
    Together CompiledQuery.Alike (db.compile ctx q e n) (db.compile ctx q' e n) := by
  have hplan : Together (fun p p' => Tree.ForestRel Join.Alike p.1 p'.1 ∧ p.2 = p'.2)
      (db.plan ctx n e q.links) (db.plan ctx n e q'.links) := by
    refine (planForest_together hdb h.links halias he .start).map ?_
    rintro ⟨ts, state⟩ ⟨us, _⟩ ⟨hforest, rfl⟩
    exact ⟨hforest, rfl⟩
  rw [compile, compile]
  refine hplan.bind ?_
  rintro ⟨joins, aliases⟩ ⟨joins', _⟩ ⟨hjoins, rfl⟩
  dsimp only at hjoins ⊢
  rw [Filter.compile_congr h.criteria, compileOrders_congr h.orders]
  refine (Together.refl (fun _ => rfl) _).bind ?_
  rintro criteria _ rfl
  refine (Together.refl (fun _ => rfl) _).bind ?_
  rintro orders _ rfl
  have hprojector : Together (fun p p' => p = ⟨db, e, aliases, q.columns⟩ ∧
      p' = ⟨db, e, aliases, q'.columns⟩) (Projector.new db e aliases q.columns ctx.strict)
      (Projector.new db e aliases q'.columns ctx.strict) :=
    .check (he.requireAll_together (ColumnSet.explicit_forall₂ h.columns)) (.ok ⟨rfl, rfl⟩)
  refine hprojector.bind ?_
  rintro _ _ ⟨rfl, rfl⟩
  exact .ok ⟨hjoins, rfl, Filter.referencesAliases_congr h.criteria, rfl,
    Projector.project_congr ⟨db, e, aliases, q.columns⟩ h.columns⟩

end RecordQuery
