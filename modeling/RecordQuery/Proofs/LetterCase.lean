import Mathlib.Data.List.Nodup
import RecordQuery.Proofs.ColumnChoice
import RecordQuery.Proofs.Query.LetterCase
import RecordQuery.Proofs.Query.Respelled

/-!
# Queries in another letter case

Names are stored in lower case and looked up by their lower case, so a query may spell them as it
likes.  But a link puts the columns that it lists into a row under the names as the list spells
them, and these names are looked up, too: conditions and orders read them in lower case
(`Sample.letter_case_observable`), and they may meet names of the record itself.

`Database.execute_together` says that nothing else shows the letter case.  Where the links of two
alike queries spell their columns in one way, the results are the same.  Where they do not, and
the spelling is hidden (`Query.HidesSpelling`), the results are alike (`Record.Alike`): they differ
in the letter case of columns under aliases.

*Rows.*  The links of the two queries tell how each row spells its columns (`Query.spelling`).  Rows
that differ in this way are kept by alike joins (`Join.Alike.keeps`), agree on what is read
(`Query.HidesSpelling.agreeOn`) and repeat each other alike, so they can be taken through all
phases of a query (`Database.allRows_together`).
-/

namespace RecordQuery

open Text

/-! ## Listed columns -/

/-- A link of the query, which has an alias of its own, lists a column. -/
def Query.Lists (q : Query) (a n : String) : Prop :=
  ∃ l ∈ Tree.forestLabels q.links, l.aliasName = some a ∧ n ∈ l.columns.explicit

/-- The columns that one query lists under an alias, and the other in the same or another letter
case. -/
def Query.spelling (q q' : Query) : Spelling := fun a n n' =>
  q.Lists a n ∧ q'.Lists a n' ∧ asciiLower n = asciiLower n'

/-- The spelling of the listed columns does not show.  Aliases have no point.  A column that is read
in joined rows is listed as it is read by both queries or by neither.  Nothing that records have of
themselves stands under the name of a listed column. -/
structure Query.HidesSpelling (db : Database) (q q' : Query) : Prop where
  aliases : ∀ l ∈ Tree.forestLabels q.links, ∀ a, l.aliasName = some a → PointFree a
  read : ∀ a n, mergedName a n ∈ q.readNames → (q.Lists a n ↔ q'.Lists a n)
  own : ∀ e, db.schema.find q.entity = .ok e → ∀ a n, q.Lists a n ∨ q'.Lists a n →
    mergedName a n ≠ e.primaryId ∧ ∀ r ∈ db.store.snapshot e,
      mergedName a n ∉ NameMap.names r.attributes ∧ mergedName a n ∉ NameMap.names r.formatted

section Queries

variable {db : Database} {ctx : Context} {q q' : Query} {e : Entity} {rows : Nat}

/-! ## Plans -/

section Plans

variable {joins : List (Tree Join)} {aliases : NameMap Entity}
  (hplan : db.plan ctx rows e q.links = .ok (joins, aliases))

include hplan

/-- The links of a plan were planned to its joins, and gave them columns and aliases. -/
theorem Database.plan_links (halias : ∀ l ∈ Tree.forestLabels q.links, l.aliasName ≠ none) :
    List.Forall₂ (fun l j => l.Planned db ctx rows j ∧ l.aliasName = some j.aliasName)
      (Tree.forestLabels q.links) (Tree.forestLabels joins) := by
  obtain ⟨⟨forest, state⟩, hforest, heq⟩ := map_eq_ok_iff.mp hplan
  cases heq
  refine (forall₂_with_mem (planForest_rel hforest).labels).mp ?_ (planForest_names hforest).labels
  rintro l j ⟨hplanned, hl, -⟩ hname
  obtain ⟨a, ha⟩ := Option.ne_none_iff_exists'.mp (halias l hl)
  exact ⟨hplanned, ha.trans (congrArg some (hname a ha).symm)⟩

/-- The joins of a plan list the columns that the links do. -/
theorem Database.plan_lists (halias : ∀ l ∈ Tree.forestLabels q.links, l.aliasName ≠ none)
    {a n : String} :
    q.Lists a n ↔ ∃ j ∈ Tree.forestLabels joins, j.aliasName = a ∧ n ∈ j.columns.explicit := by
  have hlinks := plan_links hplan halias
  constructor
  · rintro ⟨l, hl, ha, hn⟩
    obtain ⟨j, hj, hplanned, hname⟩ := exists_mem_of_forall₂ hlinks hl
    rw [← hplanned.columns] at hn
    exact ⟨j, hj, Option.some.inj (hname.symm.trans ha), hn⟩
  · rintro ⟨j, hj, rfl, hn⟩
    obtain ⟨l, hl, hplanned, hname⟩ := exists_mem_of_forall₂ hlinks.flip hj
    rw [hplanned.columns] at hn
    exact ⟨l, hl, hname, hn⟩

/-- The entity types of a plan are canonical. -/
theorem Database.plan_canonical (hdb : db.schema.Canonical) : ∀ p ∈ aliases, p.2.Canonical := by
  obtain ⟨⟨forest, state⟩, hforest, heq⟩ := map_eq_ok_iff.mp hplan
  cases heq
  have hlink : EachLink db ctx rows (fun _ _ => True) fun state =>
      ∀ p ∈ state.aliases, p.2.Canonical := by
    intro parent state state' l j hj
    obtain ⟨-, -, -, hplanned, -, rfl⟩ := planLink_eq_ok hj
    refine ⟨trivial, fun hstate p hp => ?_⟩
    rcases NameMap.mem_insert hp with rfl | hold
    · exact ((hdb.find_together rfl).of_ok hplanned.entity hplanned.entity).2
    · exact hstate p hold
  exact (planForest_induction hlink hforest).2 fun p hp => nomatch hp

end Plans

/-! ## Joins that respell -/

namespace Query.HidesSpelling

variable (h : q.HidesSpelling db q')

include h

theorem recased : (q.spelling q').Recased where
  alike hk := hk.2.2
  pointFree := by
    rintro a n n' ⟨⟨l, hl, ha, -⟩, -⟩
    exact h.aliases l hl a ha

/-- What records have of themselves is not respelled. -/
theorem respelled (he : db.schema.find q.entity = .ok e) {r : Record}
    (hr : r ∈ db.store.snapshot e) (hsorted : r.Sorted) :
    Record.Respelled (q.spelling q') r r := by
  have hattributes : ∀ a n, q.Lists a n ∨ q'.Lists a n → ∀ f ∈ r.attributes, f.1 ≠ mergedName a n :=
    fun a n hlists f hf heq =>
      ((h.own e he a n hlists).2 r hr).1 (NameMap.mem_names_iff.mpr ⟨f.2, heq ▸ hf⟩)
  have hformatted : ∀ a n, q.Lists a n ∨ q'.Lists a n → ∀ f ∈ r.formatted, f.1 ≠ mergedName a n :=
    fun a n hlists f hf heq =>
      ((h.own e he a n hlists).2 r hr).2 (NameMap.mem_names_iff.mpr ⟨f.2, heq ▸ hf⟩)
  refine .refl hsorted (fun f hf => ⟨?_, ?_⟩) (fun f hf => ⟨?_, ?_⟩)
  · exact fun ⟨a, n, n', hk, heq⟩ => hattributes a n (.inl hk.1) f hf heq
  · exact fun ⟨a, n, n', hk, heq⟩ => hattributes a n' (.inr hk.2.1) f hf heq
  · exact fun ⟨a, n, n', hk, heq⟩ => hformatted a n (.inl hk.1) f hf heq
  · exact fun ⟨a, n, n', hk, heq⟩ => hformatted a n' (.inr hk.2.1) f hf heq

/-- What is read stands in both rows, or in neither. -/
theorem agreeOn {row row' : Record} (hrow : Record.Respelled (q.spelling q') row row') :
    row.AgreeOn q.readNames row' := by
  refine hrow.agreeOn ?_
  rintro key hkey (⟨a, n, n', hk, rfl⟩ | ⟨a, n, n', hk, rfl⟩)
  · exact ⟨a, n, ⟨hk.1, (h.read a n hkey).mp hk.1, rfl⟩, rfl⟩
  · exact ⟨a, n', ⟨(h.read a n' hkey).mpr hk.2.1, hk.2.1, rfl⟩, rfl⟩

end Query.HidesSpelling

theorem Join.Alike.keeps {K : Spelling} {i j : Join} (h : i.Alike j) (hK : K.Recased)
    (hfits : K.Fits i.aliasName i.columns.explicit j.columns.explicit) (ha : PointFree i.aliasName)
    (hfound : ∀ {source : Record} {found : List Record}, i.matchesOf source = .ok found →
      ∀ joined ∈ found, joined.Canonical) : i.Keeps (Record.Respelled K) j :=
  ⟨h.matchesOf, h.kind, fun hmatches joined hjoined _ _ hrow =>
    hrow.merge hK h hfits ha (hfound hmatches joined hjoined)⟩

/-- Joins at the same place of two plans list the columns that the queries list under the alias. -/
theorem Query.spelling_fits {joins joins' : List (Tree Join)}
    (hnodup : ((Tree.forestLabels joins).map (·.aliasName)).Nodup)
    (hnodup' : ((Tree.forestLabels joins').map (·.aliasName)).Nodup)
    (hlists : ∀ {a n}, q.Lists a n ↔
      ∃ j ∈ Tree.forestLabels joins, j.aliasName = a ∧ n ∈ j.columns.explicit)
    (hlists' : ∀ {a n}, q'.Lists a n ↔
      ∃ j ∈ Tree.forestLabels joins', j.aliasName = a ∧ n ∈ j.columns.explicit)
    {i j : Join} (hi : i ∈ Tree.forestLabels joins) (hj : j ∈ Tree.forestLabels joins')
    (h : i.Alike j) :
    (q.spelling q').Fits i.aliasName i.columns.explicit j.columns.explicit where
  mem := by
    rintro n n' ⟨hn, hn', -⟩
    obtain ⟨k, hk, ha, hn⟩ := hlists.mp hn
    obtain ⟨k', hk', ha', hn'⟩ := hlists'.mp hn'
    cases List.inj_on_of_nodup_map hnodup hk hi ha
    cases List.inj_on_of_nodup_map hnodup' hk' hj (ha'.trans h.aliasName)
    exact ⟨hn, hn'⟩
  left := by
    intro n hn
    obtain ⟨n', hn', hsame⟩ := exists_mem_of_forall₂ (ColumnSet.explicit_forall₂ h.columns) hn
    exact ⟨n', hlists.mpr ⟨i, hi, rfl, hn⟩, hlists'.mpr ⟨j, hj, h.aliasName.symm, hn'⟩, hsame⟩
  right := by
    intro n' hn'
    obtain ⟨n, hn, hsame⟩ := exists_mem_of_forall₂ (ColumnSet.explicit_forall₂ h.columns).flip hn'
    exact ⟨n, hlists.mpr ⟨i, hi, rfl, hn⟩, hlists'.mpr ⟨j, hj, h.aliasName.symm, hn'⟩, hsame⟩

/-! ## Compiled queries -/

/-- Links of an alike query have aliases of their own, too. -/
theorem Query.Alike.aliases (h : q.Alike q')
    (halias : ∀ l ∈ Tree.forestLabels q.links, l.aliasName ≠ none) :
    ∀ l ∈ Tree.forestLabels q'.links, l.aliasName ≠ none := by
  intro l' hl'
  obtain ⟨l, hl, hsame⟩ := exists_mem_of_forall₂ h.links.labels.flip hl'
  have hname : l.folded.aliasName = l'.folded.aliasName := congrArg LinkSpec.aliasName hsame
  change l.aliasName = l'.aliasName at hname
  rw [← hname]
  exact halias l hl

section Compiled

variable (hdb : db.Canonical) (halias : ∀ l ∈ Tree.forestLabels q.links, l.aliasName ≠ none)
  (h : q.Alike q') {c c' : CompiledQuery} (hc : db.compile ctx q e rows = .ok c)
  (hc' : db.compile ctx q' e rows = .ok c') (halike : c.Alike c')

include hdb halias h hc hc' halike

/-- Alike queries that hide the spelling keep rows respelled, and so do their projections. -/
theorem Query.HidesSpelling.keeps (hhides : q.HidesSpelling db q')
    (he : db.schema.find q.entity = .ok e) :
    c.Keeps ctx (Record.Respelled (q.spelling q')) c' ∧
      ∀ {row row' : Record}, Record.Respelled (q.spelling q') row row' →
        Record.Respelled (q.spelling q') (c.projector.project row) (c'.projector.project row') := by
  obtain ⟨hcriteria, horders⟩ := Database.compile_reads hc
  obtain ⟨joins, aliases, criteria, orders, projector, hplan, -, -, hprojector, rfl⟩ :=
    Database.compile_eq_ok hc
  obtain ⟨joins', aliases', criteria', orders', projector', hplan', -, -, -, rfl⟩ :=
    Database.compile_eq_ok hc'
  obtain ⟨hnodup, hcontains⟩ := Database.plan_aliases hplan
  obtain ⟨hnodup', -⟩ := Database.plan_aliases hplan'
  have hlinks := Database.plan_links hplan halias
  have hlists : ∀ {a n}, q.Lists a n ↔ _ := Database.plan_lists hplan halias
  have hlists' : ∀ {a n}, q'.Lists a n ↔ _ := Database.plan_lists hplan' (h.aliases halias)
  constructor
  · refine ⟨?_, halike.criteria, halike.filtersJoined, halike.orders, ?_, ?_⟩
    · refine halike.joins.of_labels ((forall₂_with_mem halike.joins.labels).imp ?_)
      rintro i j ⟨hij, hi, hj⟩
      obtain ⟨l, hl, hplanned, hname⟩ := exists_mem_of_forall₂ hlinks.flip hi
      have hentity := ((hdb.schema.find_together rfl).of_ok hplanned.entity hplanned.entity).2
      exact hij.keeps hhides.recased (Query.spelling_fits hnodup hnodup' hlists hlists' hi hj hij)
        (hhides.aliases l hl _ hname) fun hfound joined hjoined =>
          hdb.store.snapshot hentity joined (hplanned.mem_snapshot hfound hjoined)
    · exact fun hjoined _ _ hrow =>
        Filter.evaluate_agree (hhides.agreeOn hrow) (hcriteria hjoined)
    · exact fun hrow => CompiledOrder.keysOf_agree (hhides.agreeOn hrow) horders
  · intro row row' hrow
    rw [← halike.project, Projector.new_eq_ok hprojector]
    refine hrow.project hhides.recased ?_ (Database.plan_canonical hplan hdb.schema) ?_ ?_
    · rintro a n n' ⟨hn, -⟩
      obtain ⟨j, hj, ha, -⟩ := hlists.mp hn
      exact (hcontains a).mpr ⟨j, hj, ha⟩
    · exact fun ⟨a, n, n', hk, heq⟩ => (hhides.own e he a n (.inl hk.1)).1 heq.symm
    · exact fun ⟨a, n, n', hk, heq⟩ => (hhides.own e he a n' (.inr hk.2.1)).1 heq.symm

omit hdb in
/-- Alike queries whose links spell their columns in one way make the same rows. -/
theorem Query.Alike.keeps (hcolumns : (Tree.forestLabels q.links).map (·.columns) =
      (Tree.forestLabels q'.links).map (·.columns)) :
    c.Keeps ctx Eq c' ∧
      ∀ {row row' : Record}, row = row' → c.projector.project row = c'.projector.project row' := by
  obtain ⟨joins, aliases, criteria, orders, projector, hplan, -, -, -, rfl⟩ :=
    Database.compile_eq_ok hc
  obtain ⟨joins', aliases', criteria', orders', projector', hplan', -, -, -, rfl⟩ :=
    Database.compile_eq_ok hc'
  have hasked : ∀ {ls : List LinkSpec} {js : List Join},
      List.Forall₂ (fun l j => l.Planned db ctx rows j ∧ l.aliasName = some j.aliasName) ls js →
        js.map (·.columns) = ls.map (·.columns) := by
    intro ls js hplanned
    rw [← List.forall₂_eq_eq_eq, List.forall₂_map_left_iff, List.forall₂_map_right_iff]
    exact List.Forall₂.flip (hplanned.imp fun _ _ hlink => hlink.1.columns)
  have hsame : (Tree.forestLabels joins).map (·.columns) =
      (Tree.forestLabels joins').map (·.columns) := by
    rw [hasked (Database.plan_links hplan halias),
      hasked (Database.plan_links hplan' (h.aliases halias)), hcolumns]
  rw [← List.forall₂_eq_eq_eq, List.forall₂_map_left_iff, List.forall₂_map_right_iff] at hsame
  constructor
  · refine ⟨halike.joins.of_labels (halike.joins.labels.mp ?_ hsame), halike.criteria,
      halike.filtersJoined, halike.orders, ?_, ?_⟩
    · intro i j hij hsame
      cases hij.eq_of_same_columns hsame
      exact ⟨fun _ => rfl, rfl, fun _ _ _ _ _ hrow => congrArg (i.merge · _) hrow⟩
    · rintro - row _ rfl
      exact .refl _
    · rintro row _ rfl
      rfl
  · rintro row _ rfl
    rw [halike.project]

end Compiled

/-! ## Execution -/

theorem ResultSet.Related.mono {R S : Record → Record → Prop} {result result' : ResultSet}
    (h : Related R result result') (hrows : ∀ row row', R row row' → S row row') :
    Related S result result' :=
  ⟨h.entity, h.rows.imp hrows, h.more, h.cookie, h.total⟩

/-- Rows that repeat each other alike lose the same ones. -/
theorem distinctRows_rel {R : Record → Record → Prop}
    (htexts : ∀ r s r' s', R r r' → R s s' →
      (r.toJson.text = s.toJson.text ↔ r'.toJson.text = s'.toJson.text))
    {rows rows' : List Record} (h : List.Forall₂ R rows rows') :
    List.Forall₂ R (distinctRows rows) (distinctRows rows') :=
  firstByKey_rel htexts .nil h

section Execution

variable {R : Record → Record → Prop}
  (htexts : ∀ r s r' s', R r r' → R s s' →
    (r.toJson.text = s.toJson.text ↔ r'.toJson.text = s'.toJson.text))

include htexts

/-- Alike queries make rows that are related one by one, if their compiled queries do. -/
theorem Database.allRows_together (hcompile : Together CompiledQuery.Alike
      (db.compile ctx q e (db.store.snapshot e).length)
      (db.compile ctx q' e (db.store.snapshot e).length))
    (hdistinct : q.distinct = q'.distinct) (hrecords : ∀ r ∈ db.store.snapshot e, R r r)
    (hkeeps : ∀ {c c'}, db.compile ctx q e (db.store.snapshot e).length = .ok c →
      db.compile ctx q' e (db.store.snapshot e).length = .ok c' → c.Alike c' →
        c.Keeps ctx R c' ∧ ∀ {row row' : Record}, R row row' →
          R (c.projector.project row) (c'.projector.project row')) :
    Together (List.Forall₂ R) (db.allRows ctx q e) (db.allRows ctx q' e) := by
  rw [allRows, allRows]
  refine hcompile.known.bind ?_
  rintro c c' ⟨halike, hc, hc'⟩
  obtain ⟨hrows, hproject⟩ := hkeeps hc hc' halike
  refine (hrows.run_together hrecords hproject).bind fun rows rows' hrows => .ok ?_
  rw [← hdistinct]
  split
  · exact distinctRows_rel htexts hrows
  · exact hrows

end Execution

namespace Database

/-- Alike queries are executed together, if all rows they make are related. -/
theorem execute_together_of_rows (hdb : db.schema.Canonical) (h : q.Alike q')
    {R : Record → Record → Prop} (hid : ∀ {row row' : Record}, R row row' → row.id = row'.id)
    (hrows : ∀ {e : Entity}, db.schema.find q.entity = .ok e → e.Canonical →
      Together (List.Forall₂ R) (db.allRows ctx q e) (db.allRows ctx q' e)) :
    Together (ResultSet.Related R) (db.execute ctx q) (db.execute ctx q') := by
  have hvalid : q.validate ctx = q'.validate ctx := by
    rw [Query.validate, Query.validate, h.top, h.page]
  rw [execute, execute, hvalid]
  refine (Together.refl (fun _ => rfl) _).bind fun _ _ _ => ?_
  refine (hdb.find_together h.entity).known.bind ?_
  rintro e _ ⟨⟨rfl, he⟩, hfound, -⟩
  refine (hrows hfound he).bind fun rows rows' hrows => ?_
  exact Query.window_together hid h.top h.page h.countTotal e.name hrows

/-- **The letter case of names does not show**, but in the columns that links list.  Two queries
that differ in the letter case of names, aliases apart, are executed together where the spelling
of these columns is the same or hidden: both fail, or both return the same rows in the same order,
up to the letter case of columns under aliases. -/
theorem execute_together (db : CanonicalDatabase)
    (halias : ∀ l ∈ Tree.forestLabels q.links, l.aliasName ≠ none) (h : q.Alike q')
    (hspelling : (Tree.forestLabels q.links).map (·.columns) =
        (Tree.forestLabels q'.links).map (·.columns) ∨ q.HidesSpelling db q') :
    Together (ResultSet.Related Record.Alike) (db.execute ctx q) (db.execute ctx q') := by
  have hdb := db.canonical
  have hcompile : ∀ {e : Entity}, e.Canonical → Together CompiledQuery.Alike
      (db.compile ctx q e (db.store.snapshot e).length)
      (db.compile ctx q' e (db.store.snapshot e).length) := fun he =>
    compile_together hdb.schema h halias he _
  rcases hspelling with hcolumns | hhides
  · refine (execute_together_of_rows (R := Eq) hdb.schema h (congrArg Record.id) ?_).mono ?_
    · rintro e - he
      refine allRows_together ?_ (hcompile he) h.distinct (fun _ _ => rfl) fun hc hc' halike =>
        h.keeps halias hc hc' halike hcolumns
      rintro r s _ _ rfl rfl
      exact Iff.rfl
    · exact fun _ _ hresult => hresult.mono fun row _ hrow => hrow ▸ .refl row
  · have hrows : Together (ResultSet.Related (Record.Respelled (q.spelling q')))
        (db.execute ctx q) (db.execute ctx q') := by
      refine execute_together_of_rows hdb.schema h (fun hrow => hrow.id) ?_
      intro e hfound he
      refine allRows_together (fun _ _ _ _ hr hs => hr.text_eq_iff hs) (hcompile he) h.distinct ?_
        fun hc hc' halike => hhides.keeps hdb halias h hc hc' halike hfound
      exact fun r hr => hhides.respelled hfound hr (hdb.store.snapshot he r hr).toSorted
    exact hrows.mono fun _ _ hresult => hresult.mono fun _ _ hrow => hrow.alike hhides.recased

end Database

end Queries

namespace Sample

/-- The accounts with the contacts of their code that pass a filter, with some columns of these. -/
def contactRows (columns : List String) (f : Filter Condition) : Query :=
  { accountsWithContacts.filterRows "c" f with
    links := [.node { contactLink with columns := .listed columns } []] }

theorem contactRows_alike {columns columns' : List String} {f f' : Filter Condition}
    (hcolumns : columns.map asciiLower = columns'.map asciiLower)
    (hf : (f.under "c").map Condition.folded = (f'.under "c").map Condition.folded) :
    (contactRows columns f).Alike (contactRows columns' f') where
  entity := rfl
  columns := rfl
  criteria := hf
  links := by
    refine .cons (.node ?_ .nil) .nil
    simp only [LinkSpec.folded, ColumnSet.folded, hcolumns]
  orders := rfl
  page := rfl
  top := rfl
  distinct := rfl
  countTotal := rfl

theorem contactRows_aliases (columns : List String) (f : Filter Condition) :
    ∀ l ∈ Tree.forestLabels (contactRows columns f).links, l.aliasName ≠ none :=
  List.forall_mem_singleton.mpr (Option.some_ne_none "c")

theorem contactRows_lists {columns : List String} {f : Filter Condition} {a n : String} :
    (contactRows columns f).Lists a n ↔ a = "c" ∧ n ∈ columns := by
  constructor
  · rintro ⟨l, hl, ha, hn⟩
    cases List.mem_singleton.mp hl
    exact ⟨(Option.some.inj ha).symm, hn⟩
  · rintro ⟨rfl, hn⟩
    exact ⟨_, List.mem_singleton_self _, rfl, hn⟩

theorem canonical : db.Canonical := ⟨Store.forall_records (by decide), by decide⟩

/-- The contacts of a code, whose column is spelled in some way. -/
def ofCode (name : String) : Filter Condition :=
  .node .and [⟨none, name, .equal true, [.decimal ⟨15, 1⟩]⟩] []

theorem ofCode_folded (name : String) :
    ((ofCode name).under "c").map Condition.folded = (ofCode (asciiLower name)).under "c" := rfl

/-- The name of the contact is not read, and the code is listed as it is read. -/
theorem contactRows_hidesSpelling :
    (contactRows ["FullName", "code"] (ofCode "Code")).HidesSpelling db
      (contactRows ["fullname", "code"] (ofCode "code")) := by
  have hread : (contactRows ["FullName", "code"] (ofCode "Code")).readNames =
      [mergedName "c" "code", mergedName "c" "code"] := by decide
  have hplain : PointFree account.primaryId ∧ ∀ r ∈ db.store.snapshot account,
      (∀ name ∈ NameMap.names r.attributes, PointFree name) ∧
        ∀ name ∈ NameMap.names r.formatted, PointFree name := by decide
  refine ⟨fun l hl a ha => ?_, fun a n hn => ?_, fun e he a n _ => ?_⟩
  · cases List.mem_singleton.mp hl
    cases ha
    decide
  · rw [contactRows_lists, contactRows_lists]
    refine and_congr_right ?_
    rintro rfl
    have hname : n = "code" := mergedName_injective (by simpa [hread] using hn)
    simp [hname]
  · have haccount : account = e := Except.ok.inj he
    subst haccount
    refine ⟨(hplain.1.ne_mergedName a n).symm, fun r hr => ⟨fun hmem => ?_, fun hmem => ?_⟩⟩
    · exact ((hplain.2 r hr).1 _ hmem).ne_mergedName a n rfl
    · exact ((hplain.2 r hr).2 _ hmem).ne_mergedName a n rfl

/-- The contacts of the code are found in either spelling. -/
theorem contacts_in_another_letter_case : ∃ result result',
    db.execute ctx (contactRows ["FullName", "code"] (ofCode "Code")) = .ok result ∧
      db.execute ctx (contactRows ["fullname", "code"] (ofCode "code")) = .ok result' ∧
        result.rows.length = 2 ∧ result.Related Record.Alike result' := by
  have hcode : asciiLower "Code" = asciiLower "code" := by decide +kernel
  have halike : (contactRows ["FullName", "code"] (ofCode "Code")).Alike
      (contactRows ["fullname", "code"] (ofCode "code")) :=
    contactRows_alike (by decide +kernel) (by rw [ofCode_folded, ofCode_folded, hcode])
  obtain ⟨result, hresult, hlength⟩ := exists_eq_ok_of_map
    (x := db.execute ctx (contactRows ["FullName", "code"] (ofCode "Code"))) (f := (·.rows.length))
    (b := 2) (by decide +kernel)
  obtain ⟨result', hresult'⟩ := exists_eq_ok_of_isOk
    (x := db.execute ctx (contactRows ["fullname", "code"] (ofCode "code"))) (by decide +kernel)
  refine ⟨result, result', hresult, hresult', hlength, ?_⟩
  exact (Database.execute_together ⟨db, canonical⟩ (contactRows_aliases _ _) halike
    (.inr contactRows_hidesSpelling)).of_ok hresult hresult'

/-- The condition reads the name in lower case, so no row passes it that has the column in another
letter case. -/
theorem letter_case_observable :
    db.Canonical ∧
      (∀ l ∈ Tree.forestLabels (contactRows ["FullName"] namedAda).links, l.aliasName ≠ none) ∧
      (contactRows ["FullName"] namedAda).Alike (contactRows ["fullname"] namedAda) ∧
      ¬ Together (ResultSet.Related Record.Alike)
        (db.execute ctx (contactRows ["FullName"] namedAda))
        (db.execute ctx (contactRows ["fullname"] namedAda)) := by
  refine ⟨canonical, contactRows_aliases _ _, contactRows_alike (by decide +kernel) rfl, ?_⟩
  intro htogether
  obtain ⟨result, hresult, hnone⟩ := exists_eq_ok_of_map
    (x := db.execute ctx (contactRows ["FullName"] namedAda)) (f := (·.rows.length)) (b := 0)
    (by decide +kernel)
  obtain ⟨result', hresult', hone⟩ := exists_eq_ok_of_map
    (x := db.execute ctx (contactRows ["fullname"] namedAda)) (f := (·.rows.length)) (b := 1)
    (by decide +kernel)
  have hlength := (htogether.of_ok hresult hresult').rows.length_eq
  rw [hnone, hone] at hlength
  cases hlength

end Sample

end RecordQuery
