import Mathlib.Data.List.Nodup
import RecordQuery.Proofs.Join.Unmatched
import RecordQuery.Proofs.Query.Projection

/-!
# What returned rows hold

A returned row holds the primary identifier, the attributes of its record that the query asks for,
and the columns that the links ask of the records they joined; nothing that is null, and nothing
else (`Database.execute_holds_requested`).

*Points.*  A row keeps attributes and joined columns under names in one map, and what stands before
the first point of a name tells them apart.  So the names must not mislead (`TellsApart`): an alias
with a point is not read back, and its columns are lost (`Sample.pointed_alias_observable`); an
attribute of the record whose name begins with an alias is taken for a column that was joined.

*Columns.*  Under names that do not mislead the columns put into a row are those that are asked for
(`Choice.mem_addedAttributes_iff`), each under a name of its own, because no two joins have one
alias.
-/

namespace RecordQuery

open Text

/-! ## What is asked for -/

/-- A name reads as that of a column under the alias of one of some joins. -/
def ReadsUnder (joins : List (Tree Join)) (name aliasName : String) : Prop :=
  (∃ rest, splitName? name = some (aliasName, rest)) ∧
    ∃ j ∈ Tree.forestLabels joins, j.aliasName = aliasName

/-- A join asks for an attribute of a joined record: for those of a list, or for all but those that
read as columns of another join. -/
def Join.Requests (joins : List (Tree Join)) (j : Join) (joined : Record) (name : String) : Prop :=
  match j.columns with
  | .all => name ∈ NameMap.names joined.attributes ∧
      ∀ aliasName, ReadsUnder joins name aliasName → aliasName = j.aliasName
  | .listed names => name ∈ names

/-- The names of what a query asks for: of a record, and of the records that choices take for it. -/
inductive Requested (columns : ColumnSet) (e : Entity) (joins : List (Tree Join)) (r : Record)
    (cs : List Choice) : String → Prop where
  | primaryId : Requested columns e joins r cs e.primaryId
  | own {name : String} {v : Value} : columns.contains name = true → (name, v) ∈ r.attributes →
      v.isNull = false → Requested columns e joins r cs name
  | joined {j : Join} {joined : Record} {name : String} {v : Value} :
      (j, joined) ∈ Choice.forestChosen joins cs → j.Requests joins joined name →
        joined.get? name = some v → v.isNull = false →
          Requested columns e joins r cs (mergedName j.aliasName name)

/-- Names tell what they belong to.  No alias has a point.  No attribute of the record reads as a
column of a join, the primary identifier apart.  Where all columns are asked for, the attributes
of the joined record that have a point read as columns of another join. -/
structure TellsApart (e : Entity) (joins : List (Tree Join)) (r : Record) (cs : List Choice) :
    Prop where
  aliases : ∀ j ∈ Tree.forestLabels joins, PointFree j.aliasName
  own : ∀ a ∈ r.attributes, a.1 ≠ e.primaryId → ∀ aliasName, ¬ReadsUnder joins a.1 aliasName
  joined : ∀ taken ∈ Choice.forestChosen joins cs, taken.1.columns = .all →
    ∀ a ∈ taken.2.attributes, PointFree a.1 ∨
      ∃ aliasName, ReadsUnder joins a.1 aliasName ∧ aliasName ≠ taken.1.aliasName

/-! ## Columns of one record -/

theorem Record.get?_of_mem {r : Record} (h : NameMap.Sorted r.attributes) {name : String}
    {v : Value} (hmem : (name, v) ∈ r.attributes) : r.get? name = some v := by
  rw [get?, NameMap.lookup?, (NameMap.get?_eq_some_iff_mem h.names_ne).mpr hmem]
  rfl

theorem PointFree.not_readsUnder {name : String} (h : PointFree name) (joins : List (Tree Join))
    (aliasName : String) : ¬ReadsUnder joins name aliasName := by
  rintro ⟨⟨rest, hsplit⟩, -⟩
  rw [h.splitName?_eq] at hsplit
  cases hsplit

/-- The columns of a joined record that are put into a row are those that the join asks for. -/
theorem Join.mem_addedAttributes_iff {joins : List (Tree Join)} {j : Join} {joined : Record}
    (hsorted : NameMap.Sorted joined.attributes)
    (happart : j.columns = .all → ∀ a ∈ joined.attributes, PointFree a.1 ∨
      ∃ aliasName, ReadsUnder joins a.1 aliasName ∧ aliasName ≠ j.aliasName)
    {added : String × Value} : added ∈ j.addedAttributes joined ↔
      ∃ name v, j.Requests joins joined name ∧ joined.get? name = some v ∧
        added = (mergedName j.aliasName name, j.merged name v) := by
  unfold addedAttributes Requests
  cases hcolumns : j.columns with
  | listed names =>
      rw [addedEntries_listed hcolumns]
      simp only [List.mem_filterMap, Option.map_eq_some_iff]
      constructor
      · rintro ⟨name, hname, v, hv, rfl⟩
        exact ⟨name, v, hname, hv, rfl⟩
      · rintro ⟨name, v, hname, hv, rfl⟩
        exact ⟨name, hname, v, hv, rfl⟩
  | all =>
      rw [addedEntries_all hcolumns]
      simp only [List.mem_filterMap, Option.map_eq_some_iff]
      constructor
      · rintro ⟨⟨name, v⟩, hmem, own, hown, rfl⟩
        rcases happart hcolumns _ hmem with hpoint | ⟨aliasName, ⟨⟨rest, hsplit⟩, -⟩, hne⟩
        · rw [ownName?, hpoint.splitName?_eq] at hown
          cases hown
          refine ⟨name, v, ⟨NameMap.mem_names_iff.mpr ⟨v, hmem⟩, fun aliasName hreads => ?_⟩,
            Record.get?_of_mem hsorted hmem, rfl⟩
          exact absurd hreads (hpoint.not_readsUnder joins aliasName)
        · simp [ownName?, hsplit, hne] at hown
      · rintro ⟨name, v, ⟨hname, hforeign⟩, hv, rfl⟩
        obtain ⟨w, hmem⟩ := NameMap.mem_names_iff.mp hname
        cases hv.symm.trans (Record.get?_of_mem hsorted hmem)
        rcases happart hcolumns _ hmem with hpoint | ⟨aliasName, hreads, hne⟩
        · refine ⟨(name, v), hmem, name, ?_, rfl⟩
          rw [ownName?, hpoint.splitName?_eq]
        · exact absurd (hforeign aliasName hreads) hne

/-- Without points in the names of attributes, and with aliases without points, all names tell what
they belong to. -/
theorem tellsApart_of_pointFree {e : Entity} {joins : List (Tree Join)} {r : Record}
    {cs : List Choice} (haliases : ∀ j ∈ Tree.forestLabels joins, PointFree j.aliasName)
    (hr : ∀ a ∈ r.attributes, PointFree a.1)
    (htaken : ∀ taken ∈ Choice.forestChosen joins cs, ∀ a ∈ taken.2.attributes, PointFree a.1) :
    TellsApart e joins r cs where
  aliases := haliases
  own a ha _ aliasName := (hr a ha).not_readsUnder joins aliasName
  joined taken hmem _ a ha := .inl (htaken taken hmem a ha)

/-! ## Columns of all records -/

section Rows

variable {e : Entity} {joins : List (Tree Join)} {r : Record} {cs : List Choice}

namespace Choice

variable (haliases : ((Tree.forestLabels joins).map (·.aliasName)).Nodup)
  (hsorted : ∀ taken ∈ forestChosen joins cs, NameMap.Sorted taken.2.attributes)
  (happart : TellsApart e joins r cs)

include haliases in
/-- No two joins that took a record have one alias. -/
theorem eq_of_aliasName {taken taken' : Join × Record} (h : taken ∈ forestChosen joins cs)
    (h' : taken' ∈ forestChosen joins cs) (halias : taken.1.aliasName = taken'.1.aliasName) :
    taken = taken' := by
  have hchosen : ((forestChosen joins cs).map (·.1.aliasName)).Nodup := by
    have hsublist := (forestChosen_sublist joins cs).map (·.aliasName)
    rw [List.map_map] at hsublist
    exact haliases.sublist hsublist
  exact List.inj_on_of_nodup_map hchosen h h' halias

include hsorted happart in
theorem mem_addedAttributes_iff {added : String × Value} : added ∈ addedAttributes joins cs ↔
    ∃ taken ∈ forestChosen joins cs, ∃ name v, taken.1.Requests joins taken.2 name ∧
      taken.2.get? name = some v ∧
        added = (mergedName taken.1.aliasName name, taken.1.merged name v) := by
  rw [addedAttributes, List.mem_flatMap]
  refine exists_congr fun taken => and_congr_right fun htaken => ?_
  exact Join.mem_addedAttributes_iff (hsorted taken htaken) (happart.joined taken htaken)

include happart in
/-- What joins put into a row reads as columns under their aliases. -/
theorem readsUnder_of_mem {added : String × Value} (h : added ∈ addedAttributes joins cs) :
    ∃ aliasName, ReadsUnder joins added.1 aliasName := by
  obtain ⟨taken, htaken, h⟩ := List.mem_flatMap.mp h
  obtain ⟨name, hname⟩ := Join.exists_mergedName h
  have hlabel := mem_forestLabels_of_chosen htaken
  refine ⟨taken.1.aliasName, ⟨name, ?_⟩, taken.1, hlabel, rfl⟩
  rw [hname, (happart.aliases _ hlabel).splitName?_mergedName]

include haliases hsorted happart in
/-- What is put under one name is one value. -/
theorem addedAttributes_agree {name : String} {v w : Value}
    (hv : (name, v) ∈ addedAttributes joins cs) (hw : (name, w) ∈ addedAttributes joins cs) :
    v = w := by
  obtain ⟨taken, htaken, column, v', -, hcolumn, heq⟩ :=
    (mem_addedAttributes_iff hsorted happart).mp hv
  obtain ⟨taken', htaken', column', w', -, hcolumn', heq'⟩ :=
    (mem_addedAttributes_iff hsorted happart).mp hw
  cases heq
  obtain ⟨hname, rfl⟩ := Prod.mk.inj heq'
  have hsplit := congrArg splitName? hname
  rw [(happart.aliases _ (mem_forestLabels_of_chosen htaken)).splitName?_mergedName,
    (happart.aliases _ (mem_forestLabels_of_chosen htaken')).splitName?_mergedName] at hsplit
  obtain ⟨halias, rfl⟩ := Prod.mk.inj (Option.some.inj hsplit)
  cases eq_of_aliasName haliases htaken htaken' halias
  cases hcolumn.symm.trans hcolumn'
  rfl

include haliases hsorted happart in
/-- A row holds what the joins put there, and else what the record holds. -/
theorem mem_extend_iff (hr : NameMap.Sorted r.attributes) {name : String} {v : Value} :
    (name, v) ∈ (extend r (forestChosen joins cs)).attributes ↔
      (name, v) ∈ addedAttributes joins cs ∨
        (∀ w, (name, w) ∉ addedAttributes joins cs) ∧ (name, v) ∈ r.attributes := by
  have hrow : NameMap.Sorted (extend r (forestChosen joins cs)).attributes := hr.insertAll _
  have hadded : ∀ w, NameMap.get? (addedAttributes joins cs).reverse name = some w ↔
      (name, w) ∈ addedAttributes joins cs := by
    intro w
    rw [← List.mem_reverse]
    refine NameMap.get?_eq_some_iff_of_agree fun b c hb hc => ?_
    rw [List.mem_reverse] at hb hc
    exact addedAttributes_agree haliases hsorted happart hb hc
  rw [← NameMap.get?_eq_some_iff_mem hrow.names_ne, (rowOf_extend joins cs r).attributes,
    ← NameMap.get?_eq_some_iff_mem hr.names_ne]
  simp only [← hadded]
  cases NameMap.get? (addedAttributes joins cs).reverse name with
  | none => simp
  | some w => simp

end Choice

/-! ## Projected rows -/

theorem Join.isNull_merged (j : Join) (name : String) (v : Value) :
    (j.merged name v).isNull = v.isNull := by
  rw [merged, Value.isNull, Value.isNull, Value.unaliased, Value.unaliased_unaliased]

namespace Projector

variable {p : Projector} {name : String}
  (hknown : ∀ a, NameMap.contains p.aliases a = true ↔
    ∃ j ∈ Tree.forestLabels joins, j.aliasName = a)

include hknown

/-- What reads as a column of a join is selected. -/
theorem selects_of_readsUnder {aliasName : String} (h : ReadsUnder joins name aliasName) :
    p.selects name = true := by
  obtain ⟨⟨rest, hsplit⟩, hlabel⟩ := h
  exact selects_iff.mpr (.inl ⟨aliasName, rest, hsplit, (hknown aliasName).mpr hlabel⟩)

/-- What does not, the primary identifier apart, is selected where it is asked for. -/
theorem selects_iff_contains (h : ∀ aliasName, ¬ReadsUnder joins name aliasName)
    (hid : name ≠ p.entity.primaryId) : p.selects name = true ↔ p.columns.contains name = true := by
  rw [selects_iff]
  constructor
  · rintro (⟨aliasName, rest, hsplit, halias⟩ | hprimary | hcolumn)
    · exact absurd ⟨⟨rest, hsplit⟩, (hknown aliasName).mp halias⟩ (h aliasName)
    · exact absurd hprimary hid
    · exact hcolumn
  · exact fun hcolumn => .inr (.inr hcolumn)

/-- A projected row holds what is asked for. -/
theorem mem_names_iff_requested (haliases : ((Tree.forestLabels joins).map (·.aliasName)).Nodup)
    (hr : NameMap.Sorted r.attributes)
    (hsorted : ∀ taken ∈ Choice.forestChosen joins cs, NameMap.Sorted taken.2.attributes)
    (happart : TellsApart p.entity joins r cs) :
    name ∈ NameMap.names (p.project (Choice.extend r (Choice.forestChosen joins cs))).attributes ↔
      Requested p.columns p.entity joins r cs name := by
  have hrow : ∀ v, (name, v) ∈ (Choice.extend r (Choice.forestChosen joins cs)).attributes ↔ _ :=
    fun v => Choice.mem_extend_iff haliases hsorted happart hr
  rw [mem_names_project_iff]
  constructor
  · rintro (rfl | ⟨v, hv, hselected, hnull⟩)
    · exact .primaryId
    by_cases hid : name = p.entity.primaryId
    · rw [hid]
      exact .primaryId
    rcases (hrow v).mp hv with hadded | ⟨-, hown⟩
    · obtain ⟨taken, htaken, column, w, hrequests, hcolumn, heq⟩ :=
        (Choice.mem_addedAttributes_iff hsorted happart).mp hadded
      cases heq
      rw [Join.isNull_merged] at hnull
      exact .joined htaken hrequests hcolumn hnull
    · have hcolumn := (selects_iff_contains hknown (happart.own _ hown hid) hid).mp hselected
      exact .own hcolumn hown hnull
  · intro hrequested
    cases hrequested with
    | primaryId => exact .inl rfl
    | @own _ v hcolumn hown hnull =>
        by_cases hid : name = p.entity.primaryId
        · exact .inl hid
        have hfree := happart.own _ hown hid
        have hnone : ∀ w, (name, w) ∉ Choice.addedAttributes joins cs := by
          intro w hw
          obtain ⟨aliasName, hreads⟩ := Choice.readsUnder_of_mem happart hw
          exact hfree aliasName hreads
        exact .inr ⟨v, (hrow v).mpr (.inr ⟨hnone, hown⟩),
          (selects_iff_contains hknown hfree hid).mpr hcolumn, hnull⟩
    | @joined j joined column v htaken hrequests hcolumn hnull =>
        have hadded := (Choice.mem_addedAttributes_iff hsorted happart).mpr
          ⟨(j, joined), htaken, column, v, hrequests, hcolumn, rfl⟩
        obtain ⟨aliasName, hreads⟩ := Choice.readsUnder_of_mem happart hadded
        refine .inr ⟨j.merged column v, (hrow _).mpr (.inl hadded),
          selects_of_readsUnder hknown hreads, ?_⟩
        rw [Join.isNull_merged, hnull]

end Projector

end Rows

/-! ## Returned rows -/

section Returned

variable {db : Database} {ctx : Context} {q : Query}

mutual

theorem Witness.stored_of_chosen : ∀ {l : Link} {t : Tree Join} {source : Record} {c : Choice},
    Witness db ctx l t source c →
      ∀ taken ∈ Choice.chosen t c, taken.2 ∈ db.store.snapshot taken.1.entity
  | .node l ls, .node j js, source, .nothing, _, taken, htaken => nomatch htaken
  | .node l ls, .node j js, source, .record position joined below, h, taken, htaken => by
      obtain ⟨⟨hposition, -⟩, -, hbelow⟩ := h
      rcases List.mem_cons.mp htaken with rfl | htaken
      · exact List.mem_of_getElem? hposition
      · exact hbelow.stored_of_chosen taken htaken

/-- The records that choices take are stored. -/
theorem ForestWitness.stored_of_chosen : ∀ {ls : List Link} {ts : List (Tree Join)}
    {source : Record} {cs : List Choice}, ForestWitness db ctx ls ts source cs →
      ∀ taken ∈ Choice.forestChosen ts cs, taken.2 ∈ db.store.snapshot taken.1.entity
  | [], [], source, [], _, taken, htaken => nomatch htaken
  | l :: ls, t :: ts, source, c :: cs, ⟨hfirst, hrest⟩, taken, htaken => by
      rcases List.mem_append.mp htaken with htaken | htaken
      · exact hfirst.stored_of_chosen taken htaken
      · exact hrest.stored_of_chosen taken htaken

end

/-- A row is what a stored record becomes by choices that it may make for the links, projected. -/
structure RowFrom (db : Database) (ctx : Context) (q : Query) (e : Entity)
    (joins : List (Tree Join)) (aliases : NameMap Entity) (r : Record) (cs : List Choice)
    (row : Record) : Prop where
  stored : r ∈ db.store.snapshot e
  witness : ForestWitness db ctx q.links joins r cs
  projected : row = (Projector.mk db e aliases q.columns).project
    (Choice.extend r (Choice.forestChosen joins cs))

/-- Every returned row comes from a record and choices. -/
theorem Database.exists_rowFrom {result : ResultSet} (h : db.execute ctx q = .ok result) :
    ∃ e joins aliases, db.schema.find q.entity = .ok e ∧
      db.plan ctx (db.store.snapshot e).length e q.links = .ok (joins, aliases) ∧
      ∀ row ∈ result.rows, ∃ r cs, RowFrom db ctx q e joins aliases r cs row := by
  obtain ⟨e, c, rows, he, hc, hrun, hrows⟩ := mem_run_of_execute h
  obtain ⟨joins, aliases, criteria, orders, projector, hplan, -, -, hprojector, rfl⟩ :=
    compile_eq_ok hc
  cases Projector.new_eq_ok hprojector
  refine ⟨e, joins, aliases, he, hplan, fun row hrow => ?_⟩
  obtain ⟨r, hr, part, hpart, row', hrow', rfl⟩ :=
    (CompiledQuery.mem_run_iff hrun).mp (hrows row hrow)
  obtain ⟨all, hall, hrow'⟩ := CompiledQuery.exists_resolve_of_rowsOf hpart row' hrow'
  rw [rows_of_choices hplan hall] at hrow'
  obtain ⟨cs, hcs, rfl⟩ := List.mem_map.mp hrow'
  exact ⟨r, cs, hr, mem_forestChoices.mp hcs, rfl⟩

/-- **Returned rows hold what was asked for and nothing else.**  Every row of a result comes from a
record of the entity type and from choices for the links.  It has the primary identifier, the
requested attributes of the record that are not null, and the requested columns of the records taken
that are not null, as long as their names tell them apart. -/
theorem Database.execute_holds_requested (db : OrderedDatabase) {result : ResultSet}
    (h : db.execute ctx q = .ok result) :
    ∃ e joins aliases, db.schema.find q.entity = .ok e ∧
      db.plan ctx (db.store.snapshot e).length e q.links = .ok (joins, aliases) ∧
      ∀ row ∈ result.rows, (∃ r cs, RowFrom db ctx q e joins aliases r cs row) ∧
        ∀ r cs, RowFrom db ctx q e joins aliases r cs row → TellsApart e joins r cs →
          ∀ name, name ∈ NameMap.names row.attributes ↔
            Requested q.columns e joins r cs name := by
  obtain ⟨e, joins, aliases, he, hplan, hrows⟩ := exists_rowFrom h
  refine ⟨e, joins, aliases, he, hplan, fun row hrow => ⟨hrows row hrow, ?_⟩⟩
  rintro r cs ⟨hr, hwitness, rfl⟩ happart name
  obtain ⟨haliases, hknown⟩ := plan_aliases hplan
  have htaken : ∀ taken ∈ Choice.forestChosen joins cs, NameMap.Sorted taken.2.attributes :=
    fun taken hmem =>
      (db.sorted.snapshot taken.1.entity _ (hwitness.stored_of_chosen taken hmem)).attributes
  have hrecord : NameMap.Sorted r.attributes := (db.sorted.snapshot e r hr).attributes
  exact Projector.mem_names_iff_requested hknown haliases hrecord htaken happart

end Returned

namespace Sample

theorem find_account : db.schema.find "account" = .ok account := rfl

theorem find_contact : db.schema.find "contact" = .ok contact := rfl

/-- The accounts with the full names of their contacts under an alias. -/
def contactNames (aliasName : String) : Query :=
  { Query.new "account" with
    links := [.node { contactLink with
      aliasName := some aliasName
      columns := .listed ["fullname"] } []] }

theorem plan_contactNames {aliasName : String} {joins : List (Tree Join)}
    {aliases : NameMap Entity}
    (h : db.plan ctx 1 account (contactNames aliasName).links = .ok (joins, aliases)) :
    ∃ j, joins = [.node j []] ∧ j.entity = contact ∧ j.aliasName = aliasName ∧
      j.columns = .listed ["fullname"] := by
  obtain ⟨j, rfl, hplanned, halias, -⟩ := Database.plan_single h
  exact ⟨j, rfl, Except.ok.inj (hplanned.entity.symm.trans find_contact), halias,
    hplanned.columns⟩

/-- Each of the two rows of the account has its identifier and the name of a contact. -/
theorem contactNames_hold_requested : ∃ result joins aliases,
    db.store.Sorted ∧ db.execute ctx (contactNames "c") = .ok result ∧ result.rows.length = 2 ∧
      db.plan ctx 1 account (contactNames "c").links = .ok (joins, aliases) ∧
      ∀ row ∈ result.rows, ∃ r cs,
        RowFrom db ctx (contactNames "c") account joins aliases r cs row ∧
        TellsApart account joins r cs ∧
        ∀ name, name ∈ NameMap.names row.attributes ↔
          Requested .empty account joins r cs name := by
  have hpoints : db.PointFree :=
    ⟨Store.forall_records (by decide +kernel), Schema.forall_entities (by decide +kernel)⟩
  obtain ⟨result, hresult, hlength⟩ := exists_eq_ok_of_map
    (x := db.execute ctx (contactNames "c")) (f := (·.rows.length)) (b := 2) (by decide +kernel)
  obtain ⟨e, joins, aliases, he, hplan, hrows⟩ := Database.execute_holds_requested ordered hresult
  cases Except.ok.inj (he.symm.trans find_account)
  obtain ⟨j, rfl, hentity, halias, -⟩ := plan_contactNames hplan
  refine ⟨result, _, aliases, ordered.sorted, hresult, hlength, hplan, fun row hrow => ?_⟩
  obtain ⟨⟨r, cs, hfrom⟩, hnames⟩ := hrows row hrow
  have happart : TellsApart account [.node j []] r cs := by
    have hr := ordered.plain_of_mem_snapshot hpoints find_account hfrom.stored
    refine tellsApart_of_pointFree ?_ hr.pointFree fun taken htaken => ?_
    · refine List.forall_mem_singleton.mpr ?_
      rw [halias]
      decide +kernel
    · have hlabel := List.mem_singleton.mp (Choice.mem_forestLabels_of_chosen htaken)
      have hstored := hfrom.witness.stored_of_chosen taken htaken
      rw [hlabel, hentity] at hstored
      exact (ordered.plain_of_mem_snapshot hpoints find_contact hstored).pointFree
  exact ⟨r, cs, hfrom, happart, hnames r cs hfrom happart⟩

/-- Contacts have full names, and every row of the account has a contact. -/
theorem requested_fullname {aliasName : String} {j : Join} {r : Record} {cs : List Choice}
    (hentity : j.entity = contact) (hcolumns : j.columns = .listed ["fullname"])
    (h : ForestWitness db ctx (contactNames aliasName).links [.node j []] r cs) :
    Requested .empty account [.node j []] r cs (mergedName j.aliasName "fullname") := by
  have hnamed : ∀ joined ∈ db.store.snapshot contact,
      ∃ v, joined.get? "fullname" = some v ∧ v.isNull = false := by
    have hany : ∀ joined ∈ db.store.snapshot contact,
        (joined.get? "fullname").any (fun v => !v.isNull) = true := by decide
    intro joined hjoined
    simpa [Option.any_eq_true] using hany joined hjoined
  match cs, h with
  | [c], ⟨hfirst, _⟩ =>
      cases c with
      | nothing => cases hfirst.1
      | record position joined below =>
          obtain ⟨⟨hposition, -⟩, -⟩ := hfirst
          rw [hentity] at hposition
          obtain ⟨v, hv, hnull⟩ := hnamed joined (List.mem_of_getElem? hposition)
          refine .joined (.head _) ?_ hv hnull
          rw [Join.Requests, hcolumns]
          exact .head _

/-- Under an alias with a point the names of the contacts are lost. -/
theorem pointed_alias_observable : ∃ result row joins aliases r cs,
    db.execute ctx (contactNames "a.b") = .ok result ∧ row ∈ result.rows ∧
      db.plan ctx 1 account (contactNames "a.b").links = .ok (joins, aliases) ∧
      RowFrom db ctx (contactNames "a.b") account joins aliases r cs row ∧
      Requested .empty account joins r cs "a.b.fullname" ∧
      "a.b.fullname" ∉ NameMap.names row.attributes := by
  obtain ⟨result, hresult, hread⟩ := exists_eq_ok_of_map
    (x := db.execute ctx (contactNames "a.b"))
    (f := (·.rows.map fun row => NameMap.names row.attributes))
    (b := [["accountid"], ["accountid"]]) (by decide +kernel)
  obtain ⟨row, hrow, hnames⟩ :
      ∃ row ∈ result.rows, NameMap.names row.attributes = ["accountid"] := by
    refine List.mem_map.mp ?_
    rw [hread]
    exact .head _
  obtain ⟨e, joins, aliases, he, hplan, hrows⟩ := Database.exists_rowFrom hresult
  cases Except.ok.inj (he.symm.trans find_account)
  obtain ⟨j, rfl, hentity, halias, hcolumns⟩ := plan_contactNames hplan
  obtain ⟨r, cs, hfrom⟩ := hrows row hrow
  refine ⟨result, row, _, aliases, r, cs, hresult, hrow, hplan, hfrom, ?_, ?_⟩
  · have hrequested := requested_fullname hentity hcolumns hfrom.witness
    rwa [halias] at hrequested
  · rw [hnames]
    decide

end Sample

end RecordQuery
