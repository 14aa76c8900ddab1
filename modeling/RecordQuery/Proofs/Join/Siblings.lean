import Mathlib.Data.Multiset.Bind
import RecordQuery.Proofs.Join.Columns
import RecordQuery.Proofs.Sample

/-!
# Joins side by side

Joins side by side start from one record, and each goes through the rows that those before it have
left.  What a join adds to a row does not depend on that row, so the rows are a product: every
addition of the first join with every addition of the second, and so on.

*Additions.*  `additions` lists what a tree of joins adds for a source record, with no row in sight.
`expand_eq` and `resolveFrom_eq` say that expanding a row is extending it by each addition.

*Names.*  Joins that put nothing under a common name are apart (`Tree.Apart`), and then it does not
matter which of them extends the row first (`Choice.extend_comm`).  Joins of one plan are apart if
no alias has a point (`Database.apart_of_plan`).

*Order.*  So the order of joins that are apart decides the order of the rows and nothing else
(`resolve_perm`).
-/

namespace RecordQuery

/-! ## Additions -/

mutual

/-- What a join and those below it add to a row for a source record: for each way to match it the
joined records in the order in which they are merged.  A join that fails adds nothing. -/
def additions : Tree Join → Record → List (List (Join × Record))
  | .node j branches, source =>
      let added := ((j.matchesOf source).toOption.getD []).flatMap fun joined =>
        (forestAdditions branches joined).map ((j, joined) :: ·)
      if added.isEmpty && j.kind = .leftOuter then [[]] else added

/-- What joins side by side add to a row, those of the first join varying slowest. -/
def forestAdditions : List (Tree Join) → Record → List (List (Join × Record))
  | [], _ => [[]]
  | t :: ts, source =>
      (additions t source).flatMap fun added => (forestAdditions ts source).map (added ++ ·)

end

mutual

/-- A row becomes itself with each of the additions. -/
theorem expand_eq : ∀ {t : Tree Join} {row source : Record} {rows : List Record},
    expand row source t = .ok rows → rows = (additions t source).map (Choice.extend row)
  | .node j branches, row, source, rows, h => by
      simp only [expand] at h
      obtain ⟨found, hfound, h⟩ := bind_eq_ok_iff.mp h
      obtain ⟨parts, hparts, h⟩ := bind_eq_ok_iff.mp h
      have hvalues : ∀ joined ∈ found, ∀ part,
          resolveFrom joined branches [j.merge row joined] = .ok part →
            part = (forestAdditions branches joined).map fun added =>
              Choice.extend row ((j, joined) :: added) := by
        intro joined _ part hpart
        rw [resolveFrom_eq hpart, List.flatMap_singleton, j.merge_eq_extend]
        refine List.map_congr_left fun added _ => ?_
        rw [← Choice.extend_append, List.singleton_append]
      have hflat : parts.flatten = (found.flatMap fun joined =>
          (forestAdditions branches joined).map ((j, joined) :: ·)).map (Choice.extend row) := by
        rw [eq_map_of_mapM hparts hvalues, ← List.flatMap_def, List.map_flatMap]
        simp only [List.map_map]
        rfl
      have hadded : additions (.node j branches) source =
          let added := found.flatMap fun joined =>
            (forestAdditions branches joined).map ((j, joined) :: ·)
          if added.isEmpty && j.kind = .leftOuter then [[]] else added := by
        rw [additions, hfound]
        rfl
      cases h
      rw [hadded, hflat, List.isEmpty_map]
      simp only
      split
      · rw [List.map_singleton, Choice.extend_nil]
      · rfl

/-- Rows become themselves with each of the additions of joins side by side. -/
theorem resolveFrom_eq : ∀ {ts : List (Tree Join)} {source : Record} {rows out : List Record},
    resolveFrom source ts rows = .ok out →
      out = rows.flatMap fun row => (forestAdditions ts source).map (Choice.extend row)
  | [], source, rows, out, h => by
      cases h
      simp [forestAdditions]
  | t :: ts, source, rows, out, h => by
      simp only [resolveFrom] at h
      obtain ⟨parts, hparts, h⟩ := bind_eq_ok_iff.mp h
      have hfirst : parts = rows.map fun row => (additions t source).map (Choice.extend row) :=
        eq_map_of_mapM hparts fun row _ part hpart => expand_eq hpart
      rw [resolveFrom_eq h, hfirst, ← List.flatMap_def, List.flatMap_assoc]
      simp only [forestAdditions, List.flatMap_map, List.map_flatMap, List.map_map,
        Function.comp_def, Choice.extend_append]

end

/-- The rows of a record are the record with each of the additions. -/
theorem resolve_eq {joins : List (Tree Join)} {row source : Record} {rows : List Record}
    (h : resolve joins row source = .ok rows) :
    rows = (forestAdditions joins source).map (Choice.extend row) := by
  rw [resolveFrom_eq h, List.flatMap_singleton]

/-! ## Names -/

namespace Join

/-- The join finds the record for some source. -/
def Finds (j : Join) (joined : Record) : Prop :=
  ∃ source found, j.matchesOf source = .ok found ∧ joined ∈ found

/-- The join puts a value or a display text of a record that it finds under the name. -/
inductive PutsUnder (j : Join) (name : String) : Prop where
  | value {joined : Record} {v : Value} :
      j.Finds joined → (name, v) ∈ j.addedAttributes joined → PutsUnder j name
  | text {joined : Record} {s : String} :
      j.Finds joined → (name, s) ∈ j.addedTexts joined → PutsUnder j name

/-- A join puts everything under its alias. -/
theorem PutsUnder.exists_mergedName {j : Join} {name : String} (h : j.PutsUnder name) :
    ∃ own, name = mergedName j.aliasName own := by
  cases h with
  | value _ hadded => exact Join.exists_mergedName hadded
  | text _ hadded => exact Join.exists_mergedName hadded

end Join

/-- No join of one tree puts anything under a name under which one of the other tree does. -/
def Tree.Apart (t u : Tree Join) : Prop :=
  ∀ i ∈ t.labels, ∀ j ∈ u.labels, ∀ name, i.PutsUnder name → ¬ j.PutsUnder name

theorem Tree.Apart.symm {t u : Tree Join} (h : t.Apart u) : u.Apart t :=
  fun j hj i hi name hput hput' => h i hi j hj name hput' hput

/-- Trees without a common alias are apart, if no alias has a point. -/
theorem Tree.apart_of_aliases {t u : Tree Join} (ht : ∀ j ∈ t.labels, PointFree j.aliasName)
    (hu : ∀ j ∈ u.labels, PointFree j.aliasName)
    (hne : ∀ i ∈ t.labels, ∀ j ∈ u.labels, i.aliasName ≠ j.aliasName) : t.Apart u := by
  intro i hi j hj name hput hput'
  obtain ⟨own, rfl⟩ := hput.exists_mergedName
  obtain ⟨own', heq⟩ := hput'.exists_mergedName
  have hsplit := congrArg splitName? heq
  rw [(ht i hi).splitName?_mergedName, (hu j hj).splitName?_mergedName] at hsplit
  exact hne i hi j hj (congrArg Prod.fst (Option.some.inj hsplit))

theorem Tree.forestLabels_eq (ts : List (Tree α)) :
    forestLabels ts = ts.flatMap Tree.labels := by
  induction ts with
  | nil => rfl
  | cons t ts ih => rw [forestLabels, ih, List.flatMap_cons]

/-- Joins of one plan are apart, if no alias has a point. -/
theorem Database.apart_of_plan {db : Database} {ctx : Context} {n : Nat} {parent : Entity}
    {links : List Link} {joins : List (Tree Join)} {aliases : NameMap Entity}
    (hplan : db.plan ctx n parent links = .ok (joins, aliases))
    (hpoints : ∀ j ∈ Tree.forestLabels joins, PointFree j.aliasName) :
    joins.Pairwise Tree.Apart := by
  obtain ⟨hnodup, -⟩ := Database.plan_aliases hplan
  rw [Tree.forestLabels_eq] at hnodup hpoints
  obtain ⟨-, hne⟩ := List.pairwise_flatMap.mp (List.pairwise_map.mp hnodup)
  refine hne.imp_of_mem fun ht hu hne => Tree.apart_of_aliases ?_ ?_ hne
  · exact fun j hj => hpoints j (List.mem_flatMap.mpr ⟨_, ht, hj⟩)
  · exact fun j hj => hpoints j (List.mem_flatMap.mpr ⟨_, hu, hj⟩)

/-! ## Extending a row -/

mutual

/-- What is added are records that joins of the tree find. -/
theorem mem_additions : ∀ {t : Tree Join} {source : Record} {added : List (Join × Record)},
    added ∈ additions t source → ∀ p ∈ added, p.1 ∈ t.labels ∧ p.1.Finds p.2
  | .node j branches, source, added, h, p, hp => by
      rw [additions] at h
      split at h
      next =>
        rw [List.mem_singleton.mp h] at hp
        cases hp
      next =>
        obtain ⟨joined, hjoined, h⟩ := List.mem_flatMap.mp h
        obtain ⟨below, hbelow, rfl⟩ := List.mem_map.mp h
        rcases List.mem_cons.mp hp with rfl | hp
        · refine ⟨.head _, source, ?_⟩
          cases hfound : j.matchesOf source with
          | error failure =>
              rw [hfound] at hjoined
              cases hjoined
          | ok found =>
              rw [hfound] at hjoined
              exact ⟨found, rfl, hjoined⟩
        · obtain ⟨hlabel, hfinds⟩ := mem_forestAdditions hbelow p hp
          exact ⟨.tail _ hlabel, hfinds⟩

theorem mem_forestAdditions : ∀ {ts : List (Tree Join)} {source : Record}
    {added : List (Join × Record)}, added ∈ forestAdditions ts source →
      ∀ p ∈ added, p.1 ∈ Tree.forestLabels ts ∧ p.1.Finds p.2
  | [], source, added, h, p, hp => by
      rw [List.mem_singleton.mp h] at hp
      cases hp
  | t :: ts, source, added, h, p, hp => by
      obtain ⟨first, hfirst, h⟩ := List.mem_flatMap.mp h
      obtain ⟨rest, hrest, rfl⟩ := List.mem_map.mp h
      rcases List.mem_append.mp hp with hp | hp
      · obtain ⟨hlabel, hfinds⟩ := mem_additions hfirst p hp
        exact ⟨List.mem_append_left _ hlabel, hfinds⟩
      · obtain ⟨hlabel, hfinds⟩ := mem_forestAdditions hrest p hp
        exact ⟨List.mem_append_right _ hlabel, hfinds⟩

end

/-- Records under disjoint names can be put into a row in either order. -/
theorem Choice.extend_comm {as bs : List (Join × Record)}
    (hvalues : ∀ p ∈ as, ∀ q ∈ bs, ∀ e ∈ p.1.addedAttributes p.2, ∀ f ∈ q.1.addedAttributes q.2,
      e.1 ≠ f.1)
    (htexts : ∀ p ∈ as, ∀ q ∈ bs, ∀ e ∈ p.1.addedTexts p.2, ∀ f ∈ q.1.addedTexts q.2, e.1 ≠ f.1)
    (row : Record) : extend (extend row as) bs = extend (extend row bs) as := by
  have hattributes : ∀ e ∈ as.flatMap fun p => p.1.addedAttributes p.2,
      ∀ f ∈ bs.flatMap fun q => q.1.addedAttributes q.2, e.1 ≠ f.1 := by
    intro e he f hf
    obtain ⟨p, hp, he⟩ := List.mem_flatMap.mp he
    obtain ⟨q, hq, hf⟩ := List.mem_flatMap.mp hf
    exact hvalues p hp q hq e he f hf
  have hformatted : ∀ e ∈ as.flatMap fun p => p.1.addedTexts p.2,
      ∀ f ∈ bs.flatMap fun q => q.1.addedTexts q.2, e.1 ≠ f.1 := by
    intro e he f hf
    obtain ⟨p, hp, he⟩ := List.mem_flatMap.mp he
    obtain ⟨q, hq, hf⟩ := List.mem_flatMap.mp hf
    exact htexts p hp q hq e he f hf
  simp only [extend, NameMap.insertAll_comm hattributes, NameMap.insertAll_comm hformatted]

/-- What trees that are apart add can be put into a row in either order. -/
theorem Tree.Apart.extend_comm {t u : Tree Join} (h : t.Apart u) {source : Record}
    {as bs : List (Join × Record)} (has : as ∈ additions t source)
    (hbs : bs ∈ additions u source) (row : Record) :
    Choice.extend (Choice.extend row as) bs = Choice.extend (Choice.extend row bs) as := by
  apply Choice.extend_comm
  · intro p hp q hq e he f hf heq
    obtain ⟨hi, hfinds⟩ := mem_additions has p hp
    obtain ⟨hj, hfinds'⟩ := mem_additions hbs q hq
    exact h p.1 hi q.1 hj e.1 (.value hfinds he) (heq ▸ .value hfinds' hf)
  · intro p hp q hq e he f hf heq
    obtain ⟨hi, hfinds⟩ := mem_additions has p hp
    obtain ⟨hj, hfinds'⟩ := mem_additions hbs q hq
    exact h p.1 hi q.1 hj e.1 (.text hfinds he) (heq ▸ .text hfinds' hf)

/-! ## Orders of joins -/

/-- The elements of two lists can be taken in either order. -/
theorem flatMap_flatMap_perm (as : List α) (bs : List β) (f : α → β → List γ) :
    (as.flatMap fun a => bs.flatMap fun b => f a b).Perm
      (bs.flatMap fun b => as.flatMap fun a => f a b) := by
  rw [← Multiset.coe_eq_coe]
  simp only [← Multiset.coe_bind]
  exact Multiset.bind_bind _ _

theorem map_forestAdditions_cons (t : Tree Join) (ts : List (Tree Join)) (source row : Record) :
    (forestAdditions (t :: ts) source).map (Choice.extend row) =
      (additions t source).flatMap fun added =>
        (forestAdditions ts source).map (Choice.extend (Choice.extend row added)) := by
  simp only [forestAdditions, List.map_flatMap, List.map_map, Function.comp_def,
    Choice.extend_append]

/-- Joins that are apart make the same rows of a row in every order. -/
theorem forestAdditions_perm {ts us : List (Tree Join)} (hperm : ts.Perm us)
    (hapart : ts.Pairwise Tree.Apart) (source row : Record) :
    ((forestAdditions ts source).map (Choice.extend row)).Perm
      ((forestAdditions us source).map (Choice.extend row)) := by
  induction hperm generalizing row with
  | nil => exact .refl _
  | @cons t ts us _ ih =>
      obtain ⟨-, hrest⟩ := List.pairwise_cons.mp hapart
      simp only [map_forestAdditions_cons]
      exact .flatMap_left _ fun added _ => ih hrest (Choice.extend row added)
  | @swap t u ts =>
      obtain ⟨hfirst, -⟩ := List.pairwise_cons.mp hapart
      have hut : u.Apart t := hfirst t (.head _)
      simp only [map_forestAdditions_cons]
      refine .trans (flatMap_flatMap_perm _ _ _) ?_
      refine .flatMap_left _ fun as has => .flatMap_left _ fun bs hbs => ?_
      rw [hut.extend_comm hbs has]
  | @trans ts us vs hperm _ ih ih' =>
      have hapart' : us.Pairwise Tree.Apart := hperm.pairwise hapart fun h => h.symm
      exact (ih hapart row).trans (ih' hapart' row)

/-- **Joins side by side can be exchanged.**  Two lists of the same joins in different order, no two
of which put anything under a common name, make the same rows of every row, each as often, as far
as both resolve it. -/
theorem resolve_perm {ts us : List (Tree Join)} (hperm : ts.Perm us)
    (hapart : ts.Pairwise Tree.Apart) {row source : Record} {rows rows' : List Record}
    (h : resolve ts row source = .ok rows) (h' : resolve us row source = .ok rows') :
    rows.Perm rows' := by
  rw [resolve_eq h, resolve_eq h']
  exact forestAdditions_perm hperm hapart source row

namespace Sample

/-- From accounts to the contacts of their code with the tasks of these, and once more to the
contacts of their code. -/
def siblings : List Link :=
  [.node ⟨"account", "code", "contact", "code", .leftOuter, some "c", .listed ["fullname"], .empty⟩
    [.node ⟨"contact", "contactid", "task", "regarding", .leftOuter, none, .all, .empty⟩ []],
   .node ⟨"account", "code", "contact", "code", .inner, some "d", .all, .empty⟩ []]

/-- The plan of these links, and the rows of the account in either order of the joins. -/
def siblingRows :
    Except QueryError ((List (Tree Join) × NameMap Entity) × List Record × List Record) := do
  let p ← db.plan ctx 1 account siblings
  let rows ← resolve p.1 contoso contoso
  let rows' ← resolve p.1.reverse contoso contoso
  return (p, rows, rows')

/-- Two contacts on either side make four rows, in either order. -/
theorem resolve_perm_siblings : ∃ joins aliases rows rows',
    db.plan ctx 1 account siblings = .ok (joins, aliases) ∧ joins.Perm joins.reverse ∧
      joins.Pairwise Tree.Apart ∧ resolve joins contoso contoso = .ok rows ∧
      resolve joins.reverse contoso contoso = .ok rows' ∧ rows.length = 4 ∧ rows.Perm rows' := by
  have hknown : siblingRows.toOption.map (fun s =>
      (decide (∀ j ∈ Tree.forestLabels s.1.1, PointFree j.aliasName), s.2.1.length)) =
        some (true, 4) := by
    decide +kernel
  obtain ⟨⟨⟨joins, aliases⟩, rows, rows'⟩, hrun, hknown⟩ := exists_eq_ok_of_map hknown
  obtain ⟨hpoints, hlength⟩ := Prod.mk.inj hknown
  obtain ⟨p, hplan, hrun⟩ := bind_eq_ok_iff.mp hrun
  obtain ⟨out, hrows, hrun⟩ := bind_eq_ok_iff.mp hrun
  obtain ⟨out', hrows', hrun⟩ := bind_eq_ok_iff.mp hrun
  cases hrun
  have hperm : joins.Perm joins.reverse := (List.reverse_perm joins).symm
  have hapart := Database.apart_of_plan hplan (of_decide_eq_true hpoints)
  exact ⟨joins, aliases, rows, rows', hplan, hperm, hapart, hrows, hrows', hlength,
    resolve_perm hperm hapart hrows hrows'⟩

end Sample

end RecordQuery
