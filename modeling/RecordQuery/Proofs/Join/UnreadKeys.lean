import RecordQuery.Proofs.Join.Strategy

/-!
# Keys that only an index reads

The choice of a strategy cannot be observed in what joins give, but it can be in whether they give
anything.  An index reads the key of every record it holds when it is built.  A search reads them
when a row with a key comes to the join, and perhaps no row does.

*One join.*  For more rows a plan indexes more joins, never fewer.  `Join.FailsIndexed` says of a
join that is searched that this would make it fail.  `planLink_of_more` and `planLink_of_fewer` say
that nothing else becomes of a link for another number of rows.

*All joins.*  `planForest_iff` carries this through forests, and `joinRows_iff` through the rows
that are joined.  So a query may fail for more rows where it does not for fewer, exactly if one of
its joins fails in this way (`joinRows_fails_iff`).
-/

namespace RecordQuery

/-- The join is searched, for a number of rows it would be looked up in an index, and the key of one
of its records cannot be read. -/
def Join.FailsIndexed (rows : Nat) (j : Join) : Prop :=
  ∃ rs, j.candidates = .searched rs ∧ JoinStrategy.select rows rs.length = .hashJoin ∧
    ∃ r ∈ rs, ∀ key, joinKey? j.toAttribute r ≠ .ok key

/-! ## Records made ready for more rows -/

namespace Candidates

variable {m n : Nat} {name : String} {rs : List Record} {c : Candidates}

/-- Records that are ready for some rows can be made ready for fewer. -/
theorem exists_prepare_of_more (hle : m ≤ n)
    (h : prepare (.select n rs.length) name rs = .ok c) :
    ∃ d, prepare (.select m rs.length) name rs = .ok d ∧ ∀ found, d = .searched found →
      JoinStrategy.select n found.length = .hashJoin →
        ∀ r ∈ found, ∃ key, joinKey? name r = .ok key := by
  cases hm : JoinStrategy.select m rs.length with
  | nestedLoop =>
      refine ⟨.searched rs, rfl, fun found heq hn => ?_⟩
      cases heq
      rw [hn] at h
      exact exists_prepare_hashJoin_iff.mp ⟨c, h⟩
  | hashJoin =>
      rw [JoinStrategy.select_mono hle hm] at h
      refine ⟨c, h, fun found heq _ => ?_⟩
      obtain ⟨keyed, -, hindexed⟩ := bind_eq_ok_iff.mp h
      cases heq
      cases hindexed

/-- Records that are searched for some rows can be made ready for more if their keys can be read. -/
theorem exists_prepare_of_fewer
    (h : prepare (.select m rs.length) name rs = .ok c)
    (hread : ∀ found, c = .searched found → JoinStrategy.select n found.length = .hashJoin →
      ∀ r ∈ found, ∃ key, joinKey? name r = .ok key) :
    ∃ d, prepare (.select n rs.length) name rs = .ok d := by
  cases hn : JoinStrategy.select n rs.length with
  | nestedLoop => exact ⟨.searched rs, rfl⟩
  | hashJoin =>
      cases hm : JoinStrategy.select m rs.length with
      | nestedLoop =>
          rw [hm] at h
          cases h
          exact exists_prepare_hashJoin_iff.mpr (hread rs rfl hn)
      | hashJoin =>
          rw [hm] at h
          exact ⟨c, h⟩

end Candidates

namespace Join

/-- Whether a join fails as an index, said by what it does not. -/
theorem not_failsIndexed_iff {n : Nat} {j : Join} :
    ¬ j.FailsIndexed n ↔ ∀ rs, j.candidates = .searched rs →
      JoinStrategy.select n rs.length = .hashJoin →
        ∀ r ∈ rs, ∃ key, joinKey? j.toAttribute r = .ok key := by
  simp only [FailsIndexed, not_exists, not_and, not_forall, not_not, ne_eq]

end Join

/-! ## Plans for more rows -/

namespace Database

variable {db : Database} {ctx : Context} {m n : Nat} {parent : Entity} {state state' : PlanState}

/-- A link finds the same records however many rows it is planned for, and it is planned where they
can be made ready. -/
theorem exists_found_of_planLink {l : LinkSpec} {j : Join}
    (h : db.planLink ctx m parent state l = .ok (j, state')) :
    ∃ found : List Record,
      Candidates.prepare (.select m found.length) j.toAttribute found = .ok j.candidates ∧
      ∀ {n : Nat} {c : Candidates},
        Candidates.prepare (.select n found.length) j.toAttribute found = .ok c →
          db.planLink ctx n parent state l = .ok ({ j with candidates := c }, state') := by
  obtain ⟨hnew, hsource, hstrict, hplanned, halias, rfl⟩ := planLink_eq_ok h
  obtain ⟨criteria, found, hcriteria, hfound, hprepare⟩ := hplanned.candidates
  refine ⟨found, hprepare, fun {n c} hc => ?_⟩
  have hother : l.Planned db ctx n { j with candidates := c } :=
    { hplanned with candidates := ⟨criteria, found, hcriteria, hfound, hc⟩ }
  exact planLink_of_planned hnew hsource hstrict hother halias

/-- A link that is planned for some rows is planned for fewer as a join that does not fail as an
index. -/
theorem planLink_of_more (hle : m ≤ n) {l : LinkSpec} {j : Join}
    (h : db.planLink ctx n parent state l = .ok (j, state')) :
    ∃ c, db.planLink ctx m parent state l = .ok ({ j with candidates := c }, state') ∧
      ¬ Join.FailsIndexed n { j with candidates := c } := by
  obtain ⟨found, hprepare, hplan⟩ := exists_found_of_planLink h
  obtain ⟨c, hc, hread⟩ := Candidates.exists_prepare_of_more hle hprepare
  exact ⟨c, hplan hc, Join.not_failsIndexed_iff.mpr hread⟩

/-- A link that is planned for some rows is planned for more, unless its join fails as an index. -/
theorem planLink_of_fewer {l : LinkSpec} {j : Join}
    (h : db.planLink ctx m parent state l = .ok (j, state')) (hread : ¬ j.FailsIndexed n) :
    ∃ c, db.planLink ctx n parent state l = .ok ({ j with candidates := c }, state') := by
  obtain ⟨found, hprepare, hplan⟩ := exists_found_of_planLink h
  obtain ⟨c, hc⟩ :=
    Candidates.exists_prepare_of_fewer hprepare (Join.not_failsIndexed_iff.mp hread)
  exact ⟨c, hplan hc⟩

mutual

theorem planTree_iff (hle : m ≤ n) : ∀ {l : Link} {parent : Entity} {state state' : PlanState},
    (∃ t, planTree db ctx n parent state l = .ok (t, state')) ↔
      ∃ t, planTree db ctx m parent state l = .ok (t, state') ∧
        ∀ j ∈ t.labels, ¬ j.FailsIndexed n
  | .node l branches, parent, state, state' => by
      constructor
      · rintro ⟨t, ht⟩
        obtain ⟨j, state₁, below, hj, hbelow, rfl⟩ := planTree_eq_ok ht
        obtain ⟨c, hc, hread⟩ := planLink_of_more hle hj
        obtain ⟨below', hbelow', hreads⟩ := (planForest_iff hle).mp ⟨below, hbelow⟩
        refine ⟨.node { j with candidates := c } below', ?_, ?_⟩
        · simp only [planTree, hc, ok_bind, hbelow', pure_eq_ok]
        · exact List.forall_mem_cons.mpr ⟨hread, hreads⟩
      · rintro ⟨t, ht, hreads⟩
        obtain ⟨j, state₁, below, hj, hbelow, rfl⟩ := planTree_eq_ok ht
        obtain ⟨hread, hreads⟩ := List.forall_mem_cons.mp hreads
        obtain ⟨c, hc⟩ := planLink_of_fewer hj hread
        obtain ⟨below', hbelow'⟩ := (planForest_iff hle).mpr ⟨below, hbelow, hreads⟩
        refine ⟨.node { j with candidates := c } below', ?_⟩
        simp only [planTree, hc, ok_bind, hbelow', pure_eq_ok]

/-- Links can be planned for more rows exactly if they can be planned for fewer and none of the
joins fails as an index. -/
theorem planForest_iff (hle : m ≤ n) : ∀ {ls : List Link} {parent : Entity}
    {state state' : PlanState},
      (∃ ts, planForest db ctx n parent state ls = .ok (ts, state')) ↔
        ∃ ts, planForest db ctx m parent state ls = .ok (ts, state') ∧
          ∀ j ∈ Tree.forestLabels ts, ¬ j.FailsIndexed n
  | [], parent, state, state' => by
      simp [planForest, Tree.forestLabels]
  | l :: ls, parent, state, state' => by
      constructor
      · rintro ⟨ts, hts⟩
        obtain ⟨t, state₁, rest, ht, hrest, rfl⟩ := planForest_cons_eq_ok hts
        obtain ⟨t', ht', hreads⟩ := (planTree_iff hle).mp ⟨t, ht⟩
        obtain ⟨rest', hrest', hreads'⟩ := (planForest_iff hle).mp ⟨rest, hrest⟩
        refine ⟨t' :: rest', ?_, List.forall_mem_append.mpr ⟨hreads, hreads'⟩⟩
        simp only [planForest, ht', ok_bind, hrest', pure_eq_ok]
      · rintro ⟨ts, hts, hreads⟩
        obtain ⟨t, state₁, rest, ht, hrest, rfl⟩ := planForest_cons_eq_ok hts
        obtain ⟨hfirst, hlater⟩ := List.forall_mem_append.mp hreads
        obtain ⟨t', ht'⟩ := (planTree_iff hle).mpr ⟨t, ht, hfirst⟩
        obtain ⟨rest', hrest'⟩ := (planForest_iff hle).mpr ⟨rest, hrest, hlater⟩
        refine ⟨t' :: rest', ?_⟩
        simp only [planForest, ht', ok_bind, hrest', pure_eq_ok]

end

/-- Links can be planned for more rows exactly if they can be planned for fewer and none of the
joins fails as an index. -/
theorem plan_iff (hle : m ≤ n) {links : List Link} {aliases : NameMap Entity} :
    (∃ joins, db.plan ctx n parent links = .ok (joins, aliases)) ↔
      ∃ joins, db.plan ctx m parent links = .ok (joins, aliases) ∧
        ∀ j ∈ Tree.forestLabels joins, ¬ j.FailsIndexed n := by
  constructor
  · rintro ⟨joins, hjoins⟩
    obtain ⟨⟨ts, state⟩, hts, heq⟩ := map_eq_ok_iff.mp hjoins
    cases heq
    obtain ⟨us, hus, hreads⟩ := (planForest_iff hle).mp ⟨ts, hts⟩
    exact ⟨us, map_eq_ok_iff.mpr ⟨(us, state), hus, rfl⟩, hreads⟩
  · rintro ⟨joins, hjoins, hreads⟩
    obtain ⟨⟨ts, state⟩, hts, heq⟩ := map_eq_ok_iff.mp hjoins
    cases heq
    obtain ⟨us, hus⟩ := (planForest_iff hle).mpr ⟨ts, hts, hreads⟩
    exact ⟨us, map_eq_ok_iff.mpr ⟨(us, state), hus, rfl⟩⟩

/-! ## Rows -/

/-- Plans links for a number of rows and resolves some records. -/
def joinRows (db : Database) (ctx : Context) (n : Nat) (parent : Entity) (links : List Link)
    (roots : List Record) : Except QueryError (List (List Record)) := do
  let (joins, _) ← db.plan ctx n parent links
  roots.mapM fun r => resolve joins r r

/-- Records are joined for more rows exactly if they are for fewer, to the same rows, and none of
the joins fails as an index. -/
theorem joinRows_iff (hle : m ≤ n) {links : List Link} {roots : List Record}
    {out : List (List Record)} :
    db.joinRows ctx n parent links roots = .ok out ↔
      db.joinRows ctx m parent links roots = .ok out ∧
        ∀ joins aliases, db.plan ctx m parent links = .ok (joins, aliases) →
          ∀ j ∈ Tree.forestLabels joins, ¬ j.FailsIndexed n := by
  constructor
  · intro h
    obtain ⟨⟨joins, aliases⟩, hjoins, hout⟩ := bind_eq_ok_iff.mp h
    obtain ⟨joins', hjoins', hreads⟩ := (plan_iff hle).mp ⟨joins, hjoins⟩
    refine ⟨bind_eq_ok_iff.mpr ⟨(joins', aliases), hjoins', ?_⟩, fun ts _ hts => ?_⟩
    · simp only [resolve_eq_of_plans hjoins' hjoins, hout]
    · rw [hjoins'] at hts
      cases hts
      exact hreads
  · rintro ⟨h, hreads⟩
    obtain ⟨⟨joins, aliases⟩, hjoins, hout⟩ := bind_eq_ok_iff.mp h
    obtain ⟨joins', hjoins'⟩ := (plan_iff hle).mpr ⟨joins, hjoins, hreads joins aliases hjoins⟩
    refine bind_eq_ok_iff.mpr ⟨(joins', aliases), hjoins', ?_⟩
    simp only [resolve_eq_of_plans hjoins' hjoins, hout]

/-- **What fails for more rows.**  Of two numbers of rows, planning links and joining records fails
for the larger one exactly if it fails for the smaller one or one of the joins, which are searched
then, fails as an index. -/
theorem joinRows_fails_iff (hle : m ≤ n) {links : List Link} {roots : List Record} :
    (∃ failure, db.joinRows ctx n parent links roots = .error failure) ↔
      (∃ failure, db.joinRows ctx m parent links roots = .error failure) ∨
        ∃ joins aliases, db.plan ctx m parent links = .ok (joins, aliases) ∧
          ∃ j ∈ Tree.forestLabels joins, j.FailsIndexed n := by
  simp only [exists_eq_error_iff, joinRows_iff hle]
  constructor
  · intro h
    refine or_iff_not_imp_left.mpr fun hok => ?_
    obtain ⟨out, hout⟩ := not_not.mp hok
    refine Classical.byContradiction fun hnone => h ⟨out, hout, ?_⟩
    intro joins aliases hplan j hj hfails
    exact hnone ⟨joins, aliases, hplan, j, hj, hfails⟩
  · rintro (hfails | ⟨joins, aliases, hplan, j, hj, hfails⟩) ⟨out, hout, hreads⟩
    · exact hfails ⟨out, hout⟩
    · exact hreads joins aliases hplan j hj hfails

end Database

namespace Sample

/-- A contact whose code is no number. -/
def unnumbered : Record := (Record.new "contact" ⟨6⟩).set "code" (.double .infinity)

def unnumberedDb : Database := { db with store := ⟨[("contact", .ofRecords [unnumbered])]⟩ }

/-- From accounts to the contacts of their code. -/
def codeLinks : List Link :=
  [.node ⟨"account", "code", "contact", "code", .leftOuter, some "c", .listed ["fullname"], .empty⟩
    []]

/-- An account without a code. -/
def uncoded : Record := Record.new "account" ⟨1⟩

/-- For one row nothing fails, so for a hundred and one it is the join that decides. -/
theorem joinRows_fails_iff_of_unnumbered : 1 ≤ 101 ∧
    (unnumberedDb.joinRows ctx 1 account codeLinks [uncoded]).isOk = true ∧
    ((∃ failure, unnumberedDb.joinRows ctx 101 account codeLinks [uncoded] = .error failure) ↔
      (∃ failure, unnumberedDb.joinRows ctx 1 account codeLinks [uncoded] = .error failure) ∨
      ∃ joins aliases, unnumberedDb.plan ctx 1 account codeLinks = .ok (joins, aliases) ∧
        ∃ j ∈ Tree.forestLabels joins, j.FailsIndexed 101) :=
  ⟨by decide, by decide +kernel, Database.joinRows_fails_iff (by decide)⟩

/-- An account without a code meets no contact, so a search reads no code of one. -/
theorem strategy_fails_observable :
    (∃ rows, unnumberedDb.joinRows ctx 1 account codeLinks [uncoded] = .ok rows) ∧
      ∃ failure, unnumberedDb.joinRows ctx 101 account codeLinks [uncoded] = .error failure := by
  refine ⟨exists_eq_ok_of_isOk (by decide +kernel), ?_⟩
  rw [exists_eq_error_iff]
  rintro ⟨rows, hrows⟩
  have hfails : (unnumberedDb.joinRows ctx 101 account codeLinks [uncoded]).isOk = false := by
    decide +kernel
  rw [hrows] at hfails
  cases hfails

end Sample

end RecordQuery
