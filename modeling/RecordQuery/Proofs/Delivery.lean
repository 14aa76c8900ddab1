import RecordQuery.Proofs.RowContents
import RecordQuery.Proofs.StrictMode
import RecordQuery.Proofs.Text.LetterCase

/-!
# Columns that are asked for and found

A record is looked up by a name as it is written and then by its lower case, and so is the entity
type by the check of strict mode.  A projection compares the listed names with those of the row
otherwise: the letters `A` to `Z` in either case, all others as they are.  So a column that strict
mode lets pass and a lookup finds is in the row if the name that finds it and the name that holds it
(`Record.keyOf`) are alike, and it is lost if they are not (`Sample.accented_capital_lost`).

*Links.*  A link may put a column in the place of an attribute whose name has a point
(`Choice.replacement?`).  A null that it puts there is stripped, and the attribute with it.
-/

namespace RecordQuery

open Text

/-! ## The name that holds what is looked up -/

namespace Record

/-- The name under which a record has what is looked up by a name. -/
def keyOf (r : Record) (name : String) : String :=
  if NameMap.contains r.attributes name then name else lowercase name

theorem get?_eq_get?_keyOf (r : Record) (name : String) :
    r.get? name = NameMap.get? r.attributes (r.keyOf name) := by
  unfold get? NameMap.lookup? keyOf NameMap.contains
  cases hwritten : NameMap.get? r.attributes name with
  | none => simp
  | some v => simp [hwritten]

/-- A name that is alike to its lower case finds what an alike name holds. -/
theorem asciiLower_keyOf (r : Record) {name : String}
    (h : asciiLower (lowercase name) = asciiLower name) :
    asciiLower (r.keyOf name) = asciiLower name := by
  unfold keyOf
  split
  · rfl
  · exact h

end Record

/-! ## What is selected -/

theorem ColumnSet.contains_iff {columns : ColumnSet} {listed name : String}
    (h : listed ∈ columns.explicit) : columns.contains name = true ↔
      ∃ n ∈ columns.explicit, asciiLower n = asciiLower name := by
  cases columns with
  | all => cases h
  | listed names => simp [contains, explicit, equalIgnoringAsciiCase_iff]

section Rows

variable {e : Entity} {joins : List (Tree Join)} {r : Record} {cs : List Choice} {name : String}

theorem Choice.sorted_extend (h : r.Sorted) (taken : List (Join × Record)) :
    (extend r taken).Sorted where
  attributes := h.attributes.insertAll _
  formatted := h.formatted.insertAll _

/-- What links put in the place of an attribute of the record. -/
def Choice.replacement? (joins : List (Tree Join)) (cs : List Choice) (name : String) :
    Option Value :=
  NameMap.get? (addedAttributes joins cs).reverse name

/-- A name without a point is not one of a column of a link. -/
theorem Choice.replacement?_eq_none (h : PointFree name) : replacement? joins cs name = none :=
  get?_addedAttributes_eq_none fun taken _ own => (h.ne_mergedName taken.1.aliasName own).symm

/-- An attribute that a record holds is delivered under its name: it is the primary identifier, or a
listed name is alike or it reads as a column of a link, and no link put a null in its place. -/
inductive Delivered (columns : ColumnSet) (e : Entity) (joins : List (Tree Join))
    (cs : List Choice) (name : String) : Prop where
  | primaryId : name = e.primaryId → Delivered columns e joins cs name
  | selected : (∃ n ∈ columns.explicit, asciiLower n = asciiLower name) ∨
        (∃ aliasName, ReadsUnder joins name aliasName) →
      (∀ w, Choice.replacement? joins cs name = some w → w.isNull = false) →
        Delivered columns e joins cs name

theorem Delivered.of_alike {columns : ColumnSet} {listed : String} (hpoint : PointFree name)
    (h : listed ∈ columns.explicit) (halike : asciiLower listed = asciiLower name) :
    Delivered columns e joins cs name := by
  refine .selected (.inl ⟨listed, h, halike⟩) fun w hw => ?_
  rw [Choice.replacement?_eq_none hpoint] at hw
  cases hw

namespace Projector

variable {p : Projector} (hknown : ∀ a, NameMap.contains p.aliases a = true ↔
    ∃ j ∈ Tree.forestLabels joins, j.aliasName = a)

include hknown

/-- What is selected is the primary identifier, what is alike to a listed name, and what reads as a
column of a link. -/
theorem selects_iff_alike {listed : String} (h : listed ∈ p.columns.explicit) :
    p.selects name = true ↔ name = p.entity.primaryId ∨
      (∃ n ∈ p.columns.explicit, asciiLower n = asciiLower name) ∨
        ∃ aliasName, ReadsUnder joins name aliasName := by
  have hreads : (∃ aliasName rest, splitName? name = some (aliasName, rest) ∧
        NameMap.contains p.aliases aliasName = true) ↔
      ∃ aliasName, ReadsUnder joins name aliasName := by
    simp only [ReadsUnder, hknown, exists_and_right]
  rw [selects_iff, ColumnSet.contains_iff h, hreads, or_comm, or_assoc]

section Held

variable {listed : String} (hlisted : listed ∈ p.columns.explicit)

include hlisted

theorem selects_of_delivered (h : Delivered p.columns p.entity joins cs name) :
    p.selects name = true := by
  refine (selects_iff_alike hknown hlisted).mpr ?_
  cases h with
  | primaryId hid => exact .inl hid
  | selected hasked _ => exact .inr hasked

variable (hr : r.Sorted) {v : Value} (hv : NameMap.get? r.attributes name = some v)
  (hnull : v.isNull = false)

include hr hv hnull

/-- What the record holds under a name is in the projected row just if it is delivered. -/
theorem mem_names_iff_delivered :
    name ∈ NameMap.names (p.project (Choice.extend r (Choice.forestChosen joins cs))).attributes ↔
      Delivered p.columns p.entity joins cs name := by
  -- under the name stands what a link put there last, else the record's own value
  have hheld : ∀ w, (name, w) ∈ (Choice.extend r (Choice.forestChosen joins cs)).attributes ↔
      (Choice.replacement? joins cs name).or (some v) = some w := by
    intro w
    rw [← NameMap.get?_eq_some_iff_mem (Choice.sorted_extend hr _).attributes.names_ne,
      (Choice.rowOf_extend joins cs r).attributes name, hv, Choice.replacement?]
  rw [mem_names_project_iff]
  constructor
  · rintro (hid | ⟨w, hw, hselected, hwnull⟩)
    · exact .primaryId hid
    rcases (selects_iff_alike hknown hlisted).mp hselected with hid | hasked
    · exact .primaryId hid
    refine .selected hasked fun u hu => ?_
    have heq := (hheld w).mp hw
    rw [hu, Option.some_or] at heq
    cases heq
    exact hwnull
  · intro hdelivered
    have hselected := selects_of_delivered hknown hlisted hdelivered
    cases hdelivered with
    | primaryId hid => exact .inl hid
    | selected _ hkept =>
        cases hreplaced : Choice.replacement? joins cs name with
        | none =>
            have hown := (hheld v).mpr (by rw [hreplaced, Option.none_or])
            exact .inr ⟨v, hown, hselected, hnull⟩
        | some w =>
            have hput := (hheld w).mpr (by rw [hreplaced, Option.some_or])
            exact .inr ⟨w, hput, hselected, hkept w hreplaced⟩

/-- Where no link put anything in its place it is delivered as the record holds it, with current
names of references. -/
theorem get?_of_delivered (hdelivered : Delivered p.columns p.entity joins cs name)
    (hown : Choice.replacement? joins cs name = none) :
    NameMap.get? (p.project (Choice.extend r (Choice.forestChosen joins cs))).attributes name =
      some (p.db.refresh v) := by
  have hkept : p.kept? name v = some (p.db.refresh v) :=
    kept?_eq_some_iff.mpr ⟨selects_of_delivered hknown hlisted hdelivered, hnull, rfl⟩
  rw [Choice.replacement?] at hown
  rw [get?_attributes_project (Choice.sorted_extend hr _),
    (Choice.rowOf_extend joins cs r).attributes name, hown, hv, Option.none_or, Option.bind_some,
    hkept, Option.some_or]

end Held

end Projector

end Rows

/-! ## Returned rows -/

section Returned

variable {db : Database} {ctx : Context} {q : Query}

/-- In strict mode all listed columns are declared. -/
theorem Database.declares_of_execute (hstrict : ctx.strict = true) {result : ResultSet}
    (h : db.execute ctx q = .ok result) {e : Entity} (he : db.schema.find q.entity = .ok e) :
    ∀ name ∈ q.columns.explicit, e.declares name = true := by
  obtain ⟨e', c, rows, he', hc, -, -⟩ := mem_run_of_execute h
  cases he.symm.trans he'
  obtain ⟨joins, aliases, criteria, orders, projector, -, -, -, hprojector, -⟩ := compile_eq_ok hc
  rw [hstrict] at hprojector
  exact (Projector.new_guarded db e aliases q.columns).pass_of_ok projector hprojector

/-- **What is asked for and found is delivered**, unless it is found in letters that a projection
tells apart, or a link put a null in its place.  In strict mode all listed columns are declared.  In
every mode the value that a record has for one of them is in its row just if the name that holds it
is `Delivered`.  A name without a point that differs from its lower case in the letters `A` to `Z`
at most always delivers the value, with current names of references. -/
theorem Database.execute_delivers (db : OrderedDatabase) {result : ResultSet}
    (h : db.execute ctx q = .ok result) :
    ∃ e joins aliases, db.schema.find q.entity = .ok e ∧
      db.plan ctx (db.store.snapshot e).length e q.links = .ok (joins, aliases) ∧
      (ctx.strict = true → ∀ name ∈ q.columns.explicit, e.declares name = true) ∧
      ∀ row ∈ result.rows, (∃ r cs, RowFrom db ctx q e joins aliases r cs row) ∧
        ∀ r cs, RowFrom db ctx q e joins aliases r cs row →
          ∀ name ∈ q.columns.explicit, ∀ v, r.get? name = some v → v.isNull = false →
            (r.keyOf name ∈ NameMap.names row.attributes ↔
              Delivered q.columns e joins cs (r.keyOf name)) ∧
            (asciiLower (lowercase name) = asciiLower name → RecordQuery.PointFree (r.keyOf name) →
              NameMap.get? row.attributes (r.keyOf name) = some (db.refresh v)) := by
  obtain ⟨e, joins, aliases, he, hplan, hrows⟩ := exists_rowFrom h
  refine ⟨e, joins, aliases, he, hplan, fun hstrict => declares_of_execute hstrict h he,
    fun row hrow => ⟨hrows row hrow, ?_⟩⟩
  rintro r cs ⟨hr, -, rfl⟩ name hname v hv hnull
  obtain ⟨-, hknown⟩ := plan_aliases hplan
  rw [r.get?_eq_get?_keyOf] at hv
  have hrecord := db.sorted.snapshot e r hr
  refine ⟨Projector.mem_names_iff_delivered hknown hname hrecord hv hnull, ?_⟩
  intro hletters hpoint
  have hdelivered : Delivered q.columns e joins cs (r.keyOf name) :=
    .of_alike hpoint hname (r.asciiLower_keyOf hletters).symm
  exact Projector.get?_of_delivered (p := ⟨db, e, aliases, q.columns⟩) hknown hname hrecord hv hnull
    hdelivered (Choice.replacement?_eq_none hpoint)

end Returned

namespace Sample

/-- The contacts with some columns. -/
def listing (names : List String) : Query := { Query.new "contact" with columns := .listed names }

/-- Contacts have full names under a name in lower case. -/
theorem named_contact {r : Record} (h : r ∈ db.store.snapshot contact) :
    r.keyOf "FullName" = "fullname" ∧ ∃ v, r.get? "FullName" = some v ∧ v.isNull = false := by
  have hall : ∀ r ∈ db.store.snapshot contact, r.keyOf "FullName" = "fullname" ∧
      (r.get? "FullName").any (fun v => !v.isNull) = true := by
    decide +kernel
  simpa [Option.any_eq_true] using hall r h

/-- Asked for in other letters from `A` to `Z`, the full names are delivered. -/
theorem full_names_delivered : ∃ result, db.store.Sorted ∧
    db.execute { ctx with strict := true } (listing ["FullName"]) = .ok result ∧
      result.rows.length = 3 ∧ contact.declares "FullName" = true ∧
      ∀ row ∈ result.rows, "fullname" ∈ NameMap.names row.attributes ∧
        ∃ v, v.isNull = false ∧ NameMap.get? row.attributes "fullname" = some (db.refresh v) := by
  obtain ⟨result, hresult, hlength⟩ := exists_eq_ok_of_map
    (x := db.execute { ctx with strict := true } (listing ["FullName"])) (f := (·.rows.length))
    (b := 3) (by decide +kernel)
  obtain ⟨e, joins, aliases, he, -, hdeclared, hrows⟩ := Database.execute_delivers ordered hresult
  cases Except.ok.inj (he.symm.trans find_contact)
  refine ⟨result, ordered.sorted, hresult, hlength, hdeclared rfl _ (.head _), fun row hrow => ?_⟩
  obtain ⟨⟨r, cs, hfrom⟩, hdelivers⟩ := hrows row hrow
  obtain ⟨hkey, v, hv, hnull⟩ := named_contact hfrom.stored
  obtain ⟨hnames, hvalue⟩ := hdelivers r cs hfrom "FullName" (.head _) v hv hnull
  rw [hkey] at hnames hvalue
  have hpoint : PointFree "fullname" := by decide +kernel
  refine ⟨hnames.mpr (.of_alike hpoint (.head _) (by decide +kernel)), v, hnull, ?_⟩
  exact hvalue (by decide +kernel) hpoint

/-- A contact type with an attribute whose name begins with another letter than `A` to `Z`. -/
def accented : Database where
  store := ⟨[("contact", .ofRecords [(Record.new "contact" ⟨2⟩).set "élan" (.text "vital")])]⟩
  schema := Schema.ofEntities 1 default [(Entity.new "contact" "contactid").declare "élan" .string]

/-- A declared column that a lookup finds is not in the row. -/
theorem accented_capital_lost : ∃ result row e joins aliases r cs,
    accented.store.Sorted ∧ accented.schema.find "contact" = .ok e ∧
      accented.execute { ctx with strict := true } (listing ["ÉLAN"]) = .ok result ∧
      row ∈ result.rows ∧ e.declares "ÉLAN" = true ∧
      RowFrom accented { ctx with strict := true } (listing ["ÉLAN"]) e joins aliases r cs row ∧
      (∃ v, r.get? "ÉLAN" = some v ∧ v.isNull = false) ∧ r.keyOf "ÉLAN" = "élan" ∧
      NameMap.names row.attributes = ["contactid"] := by
  have hsorted : accented.store.Sorted := Store.forall_records (by decide +kernel)
  obtain ⟨result, hresult, hread⟩ := exists_eq_ok_of_map
    (x := accented.execute { ctx with strict := true } (listing ["ÉLAN"]))
    (f := (·.rows.map fun row => NameMap.names row.attributes)) (b := [["contactid"]])
    (by decide +kernel)
  obtain ⟨row, hrow, hnames⟩ :
      ∃ row ∈ result.rows, NameMap.names row.attributes = ["contactid"] := by
    refine List.mem_map.mp ?_
    rw [hread]
    exact .head _
  obtain ⟨e, joins, aliases, he, -, hrows⟩ := Database.exists_rowFrom hresult
  obtain ⟨r, cs, hfrom⟩ := hrows row hrow
  have hdeclared := Database.declares_of_execute rfl hresult he
  have hheld : ∀ r ∈ accented.store.snapshot e,
      r.keyOf "ÉLAN" = "élan" ∧ (r.get? "ÉLAN").any (fun v => !v.isNull) = true := by
    cases he
    decide +kernel
  obtain ⟨hkey, hany⟩ := hheld r hfrom.stored
  have hv : ∃ v, r.get? "ÉLAN" = some v ∧ v.isNull = false := by
    simpa [Option.any_eq_true] using hany
  exact ⟨result, row, e, joins, aliases, r, cs, hsorted, he, hresult, hrow,
    hdeclared _ (.head _), hfrom, hv, hkey, hnames⟩

end Sample

end RecordQuery
