import RecordQuery.Proofs.Join.DefaultAliases

/-!
# The joins and the alias map of a plan

A plan walks the links depth first and carries a position and a map of aliases with it.  When it is
done the two agree with the tree: each join stands where its link stands and bears the alias of that
link at its position, and the map has one entry for each join, the entity type that it joins
(`Database.plan_inStep`).

*The map.*  Planning puts the entry of a link into the map before it goes on below the link, so the
entries go in in depth-first order (`Database.planForest_entries`).  No two have one alias, because
an alias that is in the map already is refused.

*Repeated aliases.*  So links two of which are given one alias cannot be planned.  They are the only
ones that are refused for an alias.
-/

namespace RecordQuery

open Text

/-! ## Entries -/

/-- The entry of a join in the map of aliases. -/
def Join.entry (j : Join) : String × Entity := (j.aliasName, j.entity)

namespace Database

variable {db : Database} {ctx : Context} {rows : Nat}

mutual

theorem planTree_entries : ∀ {t : Link} {parent : Entity} {state state' : PlanState}
    {u : Tree Join}, planTree db ctx rows parent state t = .ok (u, state') →
      state'.aliases = NameMap.insertAll state.aliases (u.labels.map Join.entry)
  | .node l branches, parent, state, state', u, h => by
      obtain ⟨j, state₁, below, hj, hbelow, rfl⟩ := planTree_eq_ok h
      obtain ⟨-, -, -, -, -, rfl⟩ := planLink_eq_ok hj
      exact planForest_entries hbelow

/-- Planning puts the entries of its joins into the map, in depth-first order. -/
theorem planForest_entries : ∀ {ts : List Link} {parent : Entity} {state state' : PlanState}
    {us : List (Tree Join)}, planForest db ctx rows parent state ts = .ok (us, state') →
      state'.aliases = NameMap.insertAll state.aliases ((Tree.forestLabels us).map Join.entry)
  | [], parent, state, state', us, h => by
      cases h
      rfl
  | t :: ts, parent, state, state', us, h => by
      obtain ⟨u, state₁, rest, hu, hrest, rfl⟩ := planForest_cons_eq_ok h
      rw [planForest_entries hrest, planTree_entries hu, Tree.forestLabels, List.map_append,
        NameMap.insertAll_append]

end

/-- What a plan makes of links agrees with them and with itself. -/
structure InStep (db : Database) (ctx : Context) (rows : Nat) (links : List Link)
    (joins : List (Tree Join)) (aliases : NameMap Entity) : Prop where
  /-- The joins stand where their links stand, and each is the one planned for its link. -/
  shape : Tree.ForestRel (LinkSpec.Planned db ctx rows) links joins
  /-- A link keeps the alias that it has of its own. -/
  own : ∀ (n : Nat) (l : LinkSpec) (a : String), (Tree.forestLabels links)[n]? = some l →
    l.aliasName = some a → ∃ j : Join, (Tree.forestLabels joins)[n]? = some j ∧ j.aliasName = a
  /-- A link without one is named for the entity type that it joins and its position. -/
  default : ∀ (n : Nat) (l : LinkSpec), (Tree.forestLabels links)[n]? = some l →
    l.aliasName = none → ∃ j : Join, (Tree.forestLabels joins)[n]? = some j ∧
      j.aliasName = l.target ++ toString (n + 1)
  /-- No two joins have one alias, wherever they stand. -/
  distinct : ((Tree.forestLabels joins).map (·.aliasName)).Nodup
  sorted : NameMap.Sorted aliases
  /-- The map has one entry for each join, the entity type of its link under its alias. -/
  entries : List.Perm aliases ((Tree.forestLabels joins).map Join.entry)

/-- The join at the place of a link has the alias of the link at its position. -/
theorem exists_join_of_planForest {links : List Link} {parent : Entity} {state : PlanState}
    {joins : List (Tree Join)}
    (h : planForest db ctx rows parent .start links = .ok (joins, state)) {n : Nat} {l : LinkSpec}
    (hl : (Tree.forestLabels links)[n]? = some l) :
    ∃ j, (Tree.forestLabels joins)[n]? = some j ∧ j.aliasName = l.aliasAt (n + 1) := by
  have halias : ((Tree.forestLabels joins).map (·.aliasName))[n]? = some (l.aliasAt (n + 1)) := by
    rw [(planForest_aliases h).1, aliasesFrom, List.getElem?_mapIdx, hl, Option.map_some,
      PlanState.start, Nat.zero_add]
  rw [List.getElem?_map] at halias
  exact Option.map_eq_some_iff.mp halias

/-- Links that were planned do not repeat an alias. -/
theorem not_repeat_of_planForest {links : List Link} {parent : Entity} {state : PlanState}
    {joins : List (Tree Join)}
    (h : planForest db ctx rows parent .start links = .ok (joins, state)) :
    ¬ LinkSpec.Repeat (Tree.forestLabels links) := by
  have hnodup := (planForest_givesOut h).nodup
  rw [(planForest_aliases h).1] at hnodup
  exact nodup_aliasesFrom_iff_not_repeat.mp hnodup

/-- Links that are refused for an alias repeat one. -/
theorem repeat_of_planForest {links : List Link} {parent : Entity} {a : String}
    (h : planForest db ctx rows parent .start links = .error (.malformed (.duplicateAlias a))) :
    LinkSpec.Repeat (Tree.forestLabels links) := by
  obtain ⟨before, after, heq, hold | hbefore⟩ := planForest_repeats h
  · -- nothing was planned before
    cases hold
  · refine Classical.byContradiction fun hapart => ?_
    have hnodup : (before ++ a :: after).Nodup :=
      heq ▸ nodup_aliasesFrom_iff_not_repeat.mpr hapart
    exact (List.nodup_append.mp hnodup).2.2 a hbefore a (.head _) rfl

/-- **A plan keeps its joins and aliases in step with the links**, and where two links anywhere in
the tree are given one alias there is no plan.  For nothing else is a link refused for its alias. -/
theorem plan_inStep (db : Database) (ctx : Context) (rows : Nat) (parent : Entity)
    (links : List Link) :
    (∀ joins aliases, db.plan ctx rows parent links = .ok (joins, aliases) →
        db.InStep ctx rows links joins aliases) ∧
      (LinkSpec.Repeat (Tree.forestLabels links) →
        ∃ failure, db.plan ctx rows parent links = .error failure) ∧
      ∀ a, db.plan ctx rows parent links = .error (.malformed (.duplicateAlias a)) →
        LinkSpec.Repeat (Tree.forestLabels links) := by
  refine ⟨fun joins aliases h => ?_, ?_, fun a h => ?_⟩
  · obtain ⟨⟨forest, state⟩, hforest, heq⟩ := map_eq_ok_iff.mp h
    cases heq
    have hnodup := (plan_aliases h).1
    have hmap : state.aliases = NameMap.ofList ((Tree.forestLabels forest).map Join.entry) :=
      planForest_entries hforest
    have hnames : ((Tree.forestLabels forest).map Join.entry).Pairwise fun e f => e.1 ≠ f.1 :=
      List.pairwise_map.mpr (List.pairwise_map.mp hnodup)
    constructor
    case shape => exact planForest_rel hforest
    case own =>
      intro n l a hl ha
      obtain ⟨j, hj, halias⟩ := exists_join_of_planForest hforest hl
      exact ⟨j, hj, by rw [halias, LinkSpec.aliasAt, ha, Option.getD_some]⟩
    case default =>
      intro n l hl hnone
      obtain ⟨j, hj, halias⟩ := exists_join_of_planForest hforest hl
      exact ⟨j, hj, by rw [halias, LinkSpec.aliasAt, hnone, Option.getD_none]⟩
    case distinct => exact hnodup
    case sorted => exact hmap ▸ NameMap.Sorted.insertAll _ .nil
    case entries => exact hmap ▸ NameMap.ofList_perm hnames
  · rw [exists_eq_error_iff]
    rintro hrepeat ⟨⟨joins, aliases⟩, h⟩
    obtain ⟨⟨forest, state⟩, hforest, -⟩ := map_eq_ok_iff.mp h
    exact not_repeat_of_planForest hforest hrepeat
  · cases hforest : db.planForest ctx rows parent .start links with
    | ok p =>
        rw [plan, hforest] at h
        cases h
    | error failure =>
        rw [plan, hforest] at h
        cases h
        exact repeat_of_planForest hforest

end Database

namespace Sample

/-- The sample links, and behind them one whose alias is the name of the one below. -/
def refusedLinks : List Link :=
  links ++ [.node ⟨"account", "code", "contact", "code", .inner, some "task2", .empty, .empty⟩ []]

/-- The sample links are planned, and a repeated alias at another depth is refused. -/
theorem plan_inStep_links :
    (∃ joins aliases, db.plan ctx 1 account links = .ok (joins, aliases) ∧
        db.InStep ctx 1 links joins aliases) ∧
      LinkSpec.Repeat (Tree.forestLabels refusedLinks) ∧
      (∃ failure, db.plan ctx 1 account refusedLinks = .error failure) ∧
      db.plan ctx 1 account refusedLinks = .error (.malformed (.duplicateAlias "task2")) := by
  obtain ⟨⟨joins, aliases⟩, hplan⟩ := exists_eq_ok_of_isOk
    (x := db.plan ctx 1 account links) (by decide +kernel)
  obtain ⟨-, hfails, hrefused⟩ := Database.plan_inStep db ctx 1 account refusedLinks
  have hduplicate : db.plan ctx 1 account refusedLinks =
      .error (.malformed (.duplicateAlias "task2")) := by
    rfl
  have hrepeat := hrefused _ hduplicate
  exact ⟨⟨joins, aliases, hplan, (Database.plan_inStep db ctx 1 account links).1 _ _ hplan⟩,
    hrepeat, hfails hrepeat, hduplicate⟩

end Sample

end RecordQuery
