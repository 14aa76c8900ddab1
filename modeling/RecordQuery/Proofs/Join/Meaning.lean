import RecordQuery.Proofs.Join.Enumeration
import RecordQuery.Proofs.Sample

/-!
# Joins do what they mean

Executing planned joins gives one row for each witness, in the order of the witnesses, and fails
exactly when a join key fails that is read on the way.

*Matching.*  The records that a join finds are those that may be taken (`matchesOf_planned`).

*Rows.*  Merging a record is extending the row by its columns (`merge_eq_extend`), so the rows
that `expand` gives are those of the choices (`expand_planned`, `resolveFrom_planned`).

*Failures.*  Joins that end have read every key (`keysRead_of_expand`,
`forestKeysRead_of_resolveFrom`).
-/

namespace RecordQuery

open Text

variable {db : Database} {ctx : Context} {n : Nat}

/-! ## Matching -/

/-- The records selected by criteria are the stored ones that satisfy them. -/
theorem Database.select_eq_ok {e : Entity} {criteria : Filter CompiledCondition}
    {records : List Record} (h : db.select ctx e criteria = .ok records) :
    records = (db.store.snapshot e).filter fun r =>
      (criteria.evaluate ctx r).toOption.any (· = true) := by
  obtain ⟨kept, hkept, h⟩ := bind_eq_ok_iff.mp h
  cases h
  exact kept_of_test hkept

/-- The records that a join made ready are those that may be joined. -/
theorem mem_selected {l : LinkSpec} {j : Join} {criteria : Filter CompiledCondition}
    (hcriteria : l.criteria.compile (.link j.entity j.aliasName) ctx = .ok criteria)
    {records : List Record} (hrecords : db.select ctx j.entity criteria = .ok records)
    {joined : Record} :
    joined ∈ records ↔ ∃ position, Joinable db ctx l j position joined := by
  rw [Database.select_eq_ok hrecords, List.mem_filter, List.mem_iff_getElem?, toOption_any_iff]
  constructor
  · rintro ⟨⟨position, hposition⟩, b, hb, htrue⟩
    exact ⟨position, hposition, criteria, hcriteria, by rw [hb]; simpa using htrue⟩
  · rintro ⟨position, hposition, criteria', hcriteria', htrue⟩
    rw [hcriteria] at hcriteria'
    cases hcriteria'
    exact ⟨⟨position, hposition⟩, true, htrue, rfl⟩

/-- A test that ignores positions keeps the same elements without them. -/
theorem map_fst_filter_zipIdx (q : α → Bool) (l : List α) :
    (l.zipIdx.filter fun p => q p.1).map (·.1) = l.filter q :=
  calc (l.zipIdx.filter fun p => q p.1).map (·.1)
    _ = (l.zipIdx.map (·.1)).filter q := List.filter_map.symm
    _ = l.filter q := by rw [List.zipIdx_map_fst]

/-- What is found at a link is what is kept of the stored records by two tests, one after the
other. -/
theorem map_found {l : LinkSpec} {j : Join} {criteria : Filter CompiledCondition}
    (hcriteria : l.criteria.compile (.link j.entity j.aliasName) ctx = .ok criteria)
    {source : Record} {k : Key} (hk : joinKey? (lowercase l.fromAttribute) source = .ok (some k)) :
    (found db ctx l j source).map (·.1) =
      ((db.store.snapshot j.entity).filter fun r =>
        (criteria.evaluate ctx r).toOption.any (· = true)).filter fun r =>
          (joinKey? (lowercase l.toAttribute) r).toOption.any (· = some k) := by
  classical
  have htests : ∀ p ∈ (db.store.snapshot j.entity).zipIdx,
      decide (Joinable db ctx l j p.2 p.1 ∧ l.Meets source p.1) =
        ((joinKey? (lowercase l.toAttribute) p.1).toOption.any (· = some k) &&
          (criteria.evaluate ctx p.1).toOption.any (· = true)) := by
    rintro ⟨r, position⟩ hr
    have hposition := List.mk_mem_zipIdx_iff_getElem?.mp hr
    rw [Bool.eq_iff_iff, decide_eq_true_iff, Bool.and_eq_true, toOption_any_iff, toOption_any_iff,
      LinkSpec.meets_iff, and_comm]
    refine and_congr ?_ ?_
    · constructor
      · rintro ⟨m, hm, hr⟩
        rw [hk] at hm
        cases hm
        exact ⟨some k, hr, by simp⟩
      · rintro ⟨_, hr, hm⟩
        rw [of_decide_eq_true hm] at hr
        exact ⟨k, hk, hr⟩
    · constructor
      · rintro ⟨-, criteria', hcriteria', htrue⟩
        rw [hcriteria] at hcriteria'
        cases hcriteria'
        exact ⟨true, htrue, rfl⟩
      · rintro ⟨b, hb, htrue⟩
        rw [of_decide_eq_true htrue] at hb
        exact ⟨hposition, criteria, hcriteria, hb⟩
  rw [found, List.filter_congr htests, List.filter_filter]
  exact map_fst_filter_zipIdx (fun r =>
    (joinKey? (lowercase l.toAttribute) r).toOption.any (· = some k) &&
      (criteria.evaluate ctx r).toOption.any (· = true)) _

/-- A source without a key meets nothing. -/
theorem found_eq_nil {l : LinkSpec} {j : Join} {source : Record}
    (hkey : joinKey? (lowercase l.fromAttribute) source = .ok none) :
    found db ctx l j source = [] := by
  refine List.eq_nil_iff_forall_not_mem.mpr fun p hp => ?_
  obtain ⟨m, hm, -⟩ := LinkSpec.meets_iff.mp (mem_found.mp hp).2
  rw [hkey] at hm
  cases hm

/-- A join finds the records that may be taken, if the keys that it reads can be read. -/
theorem matchesOf_planned {l : LinkSpec} {j : Join} (hplanned : l.Planned db ctx n j)
    {source : Record} {key : Option Key}
    (hkey : joinKey? (lowercase l.fromAttribute) source = .ok key)
    (hkeys : key ≠ none → ∀ position joined, Joinable db ctx l j position joined →
      ∃ key', joinKey? (lowercase l.toAttribute) joined = .ok key') :
    j.matchesOf source = .ok ((found db ctx l j source).map (·.1)) := by
  obtain ⟨criteria, records, hcriteria, hrecords, hprepare⟩ := hplanned.candidates
  cases key with
  | none =>
      simp only [Join.matchesOf, hplanned.fromAttribute, hkey, found_eq_nil hkey, ok_bind,
        pure_eq_ok, List.map_nil]
  | some k =>
      have hread : ∀ r ∈ records, ∃ key', joinKey? (lowercase l.toAttribute) r = .ok key' := by
        intro r hr
        obtain ⟨position, hjoinable⟩ := (mem_selected hcriteria hrecords).mp hr
        exact hkeys (by simp) position r hjoinable
      simp only [Join.matchesOf, hplanned.fromAttribute, hkey, ok_bind]
      rw [Candidates.withKey_prepare hprepare, hplanned.toAttribute,
        Candidates.withKey_searched k hread, map_found hcriteria hkey,
        Database.select_eq_ok hrecords]

/-! ## Rows of choices -/

/-- The rows of the choices that take a record are made record by record. -/
theorem rows_of_taken (j : Join) (js : List (Tree Join)) (row : Record)
    (below : Record → List (List Choice)) (ps : List (Record × Nat)) :
    ((ps.map (·.1)).map fun r => (below r).map fun cs =>
      Choice.extend row ((j, r) :: Choice.forestChosen js cs)).flatten =
        (ps.flatMap fun p => (below p.1).map (Choice.record p.2 p.1)).map fun c =>
          Choice.extend row (Choice.chosen (.node j js) c) := by
  simp only [← List.flatMap_def, List.map_flatMap, List.map_map]
  rfl

/-- The rows of choices side by side are made by extending for the first link and then for the
others. -/
theorem rows_of_forest (t : Tree Join) (ts : List (Tree Join)) (heads : List Choice)
    (tails : List (List Choice)) (row : Record) :
    (heads.flatMap fun c => tails.map (c :: ·)).map
        (fun cs => Choice.extend row (Choice.forestChosen (t :: ts) cs)) =
      (heads.map fun c => Choice.extend row (Choice.chosen t c)).flatMap fun row' =>
        tails.map fun cs => Choice.extend row' (Choice.forestChosen ts cs) := by
  simp only [List.map_flatMap, List.flatMap_map, List.map_map, ← Choice.extend_append]
  rfl

/-- No row becomes any row. -/
theorem resolveFrom_nil (source : Record) (ts : List (Tree Join)) :
    resolveFrom source ts [] = .ok [] := by
  induction ts with
  | nil => rfl
  | cons t ts ih => simp [resolveFrom, ih]

mutual

/-- A row becomes the rows of its choices. -/
theorem expand_planned : ∀ {l : Link} {t : Tree Join},
    Tree.Rel (LinkSpec.Planned db ctx n) l t → ∀ {source : Record}, KeysRead db ctx l t source →
      ∀ row : Record, expand row source t =
        .ok ((choices db ctx l t source).map fun c => Choice.extend row (Choice.chosen t c))
  | .node l ls, .node j js, .node hplanned hbelow, source, hread, row => by
      obtain ⟨⟨key, hkey, hkeys⟩, hnested⟩ := hread
      have hresolve : ∀ r ∈ (found db ctx l j source).map (·.1),
          resolveFrom r js [j.merge row r] =
            .ok ((forestChoices db ctx ls js r).map fun cs =>
              Choice.extend row ((j, r) :: Choice.forestChosen js cs)) := by
        intro r hr
        obtain ⟨⟨r, position⟩, hfound, rfl⟩ := List.mem_map.mp hr
        obtain ⟨hjoinable, hmeets⟩ := mem_found.mp hfound
        rw [resolveFrom_planned hbelow (hnested position r hjoinable hmeets), j.merge_eq_extend,
          List.flatMap_singleton]
        simp only [← Choice.extend_append, List.singleton_append]
      simp only [expand, matchesOf_planned hplanned hkey hkeys, ok_bind, mapM_eq_ok_map hresolve,
        pure_eq_ok, rows_of_taken, List.isEmpty_map, hplanned.kind, choices]
      split
      · rw [List.map_singleton, Choice.chosen, Choice.extend_nil]
      · rfl

/-- Rows become the rows of the choices, those of one row before those of the next. -/
theorem resolveFrom_planned : ∀ {ls : List Link} {ts : List (Tree Join)},
    Tree.ForestRel (LinkSpec.Planned db ctx n) ls ts →
      ∀ {source : Record}, ForestKeysRead db ctx ls ts source →
        ∀ rows : List Record, resolveFrom source ts rows =
          .ok (rows.flatMap fun row =>
            (forestChoices db ctx ls ts source).map fun cs =>
              Choice.extend row (Choice.forestChosen ts cs))
  | [], [], .nil, source, hread, rows => by
      simp [resolveFrom, forestChoices, Choice.forestChosen]
  | l :: ls, t :: ts, .cons htree hforest, source, hread, rows => by
      obtain ⟨hhead, htail⟩ := hread
      have hexpand := mapM_eq_ok_map (l := rows) fun row _ => expand_planned htree hhead row
      simp only [resolveFrom, hexpand, ok_bind, ← List.flatMap_def]
      by_cases hsome : ∃ c, Witness db ctx l t source c
      · rw [resolveFrom_planned hforest (htail hsome), List.flatMap_assoc]
        simp only [forestChoices, rows_of_forest]
      · -- no row passes the first link, so the links behind it have nothing to read
        have hnone : choices db ctx l t source = [] :=
          List.eq_nil_iff_forall_not_mem.mpr fun c hc => hsome ⟨c, mem_choices.mp hc⟩
        have hrows : (rows.flatMap fun _ => ([] : List Record)) = [] := by simp
        simp only [forestChoices, hnone, List.map_nil, List.flatMap_nil, hrows, resolveFrom_nil]

end

/-! ## Failures -/

/-- A join that finds matches has read the keys of its candidates. -/
theorem keys_of_matchesOf {l : LinkSpec} {j : Join} (hplanned : l.Planned db ctx n j)
    {source : Record} {matched : List Record} (h : j.matchesOf source = .ok matched) :
    ∃ key, joinKey? (lowercase l.fromAttribute) source = .ok key ∧
      (key ≠ none → ∀ position joined, Joinable db ctx l j position joined →
        ∃ key', joinKey? (lowercase l.toAttribute) joined = .ok key') := by
  obtain ⟨criteria, records, hcriteria, hrecords, hprepare⟩ := hplanned.candidates
  obtain ⟨key, hkey, h⟩ := bind_eq_ok_iff.mp h
  rw [hplanned.fromAttribute] at hkey
  refine ⟨key, hkey, fun hsome position joined hjoinable => ?_⟩
  cases key with
  | none => exact absurd rfl hsome
  | some k =>
      change j.candidates.withKey j.toAttribute k = .ok matched at h
      rw [Candidates.withKey_prepare hprepare, hplanned.toAttribute] at h
      exact Candidates.joinKey?_of_withKey h joined
        ((mem_selected hcriteria hrecords).mpr ⟨position, hjoinable⟩)

mutual

/-- A join that ends has read every key. -/
theorem keysRead_of_expand : ∀ {l : Link} {t : Tree Join},
    Tree.Rel (LinkSpec.Planned db ctx n) l t → ∀ {row source : Record} {out : List Record},
      expand row source t = .ok out → KeysRead db ctx l t source
  | .node l ls, .node j js, .node hplanned hbelow, row, source, out, h => by
      simp only [expand] at h
      obtain ⟨matched, hmatched, h⟩ := bind_eq_ok_iff.mp h
      obtain ⟨expanded, hexpanded, -⟩ := bind_eq_ok_iff.mp h
      obtain ⟨key, hkey, hkeys⟩ := keys_of_matchesOf hplanned hmatched
      rw [matchesOf_planned hplanned hkey hkeys] at hmatched
      cases hmatched
      refine ⟨⟨key, hkey, hkeys⟩, fun position joined hjoinable hmeets => ?_⟩
      have hfound : joined ∈ (found db ctx l j source).map (·.1) :=
        List.mem_map_of_mem (mem_found.mpr ⟨hjoinable, hmeets⟩)
      obtain ⟨rows, hrows⟩ := exists_mapM_eq_ok_iff.mp ⟨expanded, hexpanded⟩ joined hfound
      exact forestKeysRead_of_resolveFrom hbelow (by simp) hrows

/-- Joins side by side that end for some rows have read every key. -/
theorem forestKeysRead_of_resolveFrom : ∀ {ls : List Link} {ts : List (Tree Join)},
    Tree.ForestRel (LinkSpec.Planned db ctx n) ls ts →
      ∀ {source : Record} {rows out : List Record}, rows ≠ [] →
        resolveFrom source ts rows = .ok out → ForestKeysRead db ctx ls ts source
  | [], [], .nil, source, rows, out, hrows, h => trivial
  | l :: ls, t :: ts, .cons htree hforest, source, row :: rows, out, hrows, h => by
      simp only [resolveFrom] at h
      obtain ⟨expanded, hexpanded, h⟩ := bind_eq_ok_iff.mp h
      obtain ⟨first, rest, hfirst, -, rfl⟩ := mapM_cons_eq_ok_iff.mp hexpanded
      have hhead := keysRead_of_expand htree hfirst
      refine ⟨hhead, fun hsome => ?_⟩
      obtain ⟨c, hc⟩ := hsome
      -- the first row passes the first link, so some row reaches the links behind it
      have hne : (first :: rest).flatten ≠ [] := by
        rw [expand_planned htree hhead] at hfirst
        cases hfirst
        have hmem := List.mem_map_of_mem (f := fun c => Choice.extend row (Choice.chosen t c))
          (mem_choices.mpr hc)
        exact List.ne_nil_of_mem (List.mem_append_left _ hmem)
      exact forestKeysRead_of_resolveFrom hforest hne h

end

/-! ## The relational meaning -/

/-- **Joins do what they mean.**  The witnesses of planned links can be listed in order, each once.
If every join key can be read, executing the links gives the rows of the witnesses in that order,
else it fails.  The row of a witness is the row with the requested columns of the chosen records
put in, depth first, and otherwise unchanged. -/
theorem resolve_eq_rows_of_witnesses {parent : Entity} {state state' : PlanState}
    {links : List Link} {joins : List (Tree Join)}
    (hplan : db.planForest ctx n parent state links = .ok (joins, state')) (source : Record) :
    ∃ witnesses : List (List Choice),
      witnesses.Pairwise Choice.ForestBefore ∧ witnesses.Nodup ∧
      (∀ cs, cs ∈ witnesses ↔ ForestWitness db ctx links joins source cs) ∧
      (∀ row cs, Choice.RowOf joins cs row (Choice.extend row (Choice.forestChosen joins cs))) ∧
      (∀ row, ForestKeysRead db ctx links joins source → resolve joins row source =
        .ok (witnesses.map fun cs => Choice.extend row (Choice.forestChosen joins cs))) ∧
      ∀ row, ¬ ForestKeysRead db ctx links joins source →
        ∃ failure, resolve joins row source = .error failure := by
  have hrel := Database.planForest_rel hplan
  have hordered : (forestChoices db ctx links joins source).Pairwise Choice.ForestBefore :=
    forestChoices_pairwise links joins source
  refine ⟨forestChoices db ctx links joins source, hordered, hordered.imp fun h => h.ne,
    fun cs => mem_forestChoices, fun row cs => Choice.rowOf_extend joins cs row, ?_, ?_⟩
  · intro row hread
    rw [resolve, resolveFrom_planned hrel hread, List.flatMap_singleton]
  · intro row hunread
    cases hout : resolve joins row source with
    | error failure => exact ⟨failure, rfl⟩
    | ok out => exact absurd (forestKeysRead_of_resolveFrom hrel (by simp) hout) hunread

/-- One choice is left to the account of the sample: the contact of its code that has a task, the
other contact of that code having none. -/
theorem resolve_eq_rows_of_sample_witnesses : ∃ joins state',
    Sample.db.planForest Sample.ctx 1 Sample.account .start Sample.links = .ok (joins, state') ∧
      ForestKeysRead Sample.db Sample.ctx Sample.links joins Sample.contoso ∧
      ∃ witnesses : List (List Choice), witnesses.length = 1 ∧
        witnesses.Pairwise Choice.ForestBefore ∧ witnesses.Nodup ∧
        (∀ cs, cs ∈ witnesses ↔
          ForestWitness Sample.db Sample.ctx Sample.links joins Sample.contoso cs) ∧
        (∀ row cs, Choice.RowOf joins cs row (Choice.extend row (Choice.forestChosen joins cs))) ∧
        resolve joins Sample.contoso Sample.contoso =
          .ok (witnesses.map fun cs =>
            Choice.extend Sample.contoso (Choice.forestChosen joins cs)) := by
  obtain ⟨⟨joins, state'⟩, hplan⟩ := exists_eq_ok_of_isOk
    (x := Sample.db.planForest Sample.ctx 1 Sample.account .start Sample.links)
    (by decide +kernel)
  have hrows : (Sample.db.planForest Sample.ctx 1 Sample.account .start Sample.links >>= fun p =>
      (resolve p.1 Sample.contoso Sample.contoso).map List.length).toOption = some 1 := by
    decide +kernel
  rw [hplan, ok_bind] at hrows
  obtain ⟨witnesses, hordered, hnodup, hmem, hrow, hread, hunread⟩ :=
    resolve_eq_rows_of_witnesses hplan Sample.contoso
  have hkeys : ForestKeysRead Sample.db Sample.ctx Sample.links joins Sample.contoso := by
    refine Classical.byContradiction fun hkeys => ?_
    obtain ⟨failure, hfailure⟩ := hunread Sample.contoso hkeys
    rw [hfailure] at hrows
    cases hrows
  refine ⟨joins, state', hplan, hkeys, witnesses, ?_, hordered, hnodup, hmem, hrow,
    hread Sample.contoso hkeys⟩
  rw [hread Sample.contoso hkeys, ok_map, List.length_map] at hrows
  exact Option.some.inj hrows

end RecordQuery
