import RecordQuery.Proofs.ColumnChoice
import RecordQuery.Proofs.Query.ThreeValued

/-!
# Links without a match

Where an outer link has no match a row is kept without any column of the link.  What names such a
column then reads nothing: a condition holds if and only if it tests for null, and an order has no
key (`resolve_unmatched`).

A row is read under a name as it is written and then under its lower case, while aliases differ
as they are written.  So the columns of one link may be read in place of those of another: with
the aliases `C` and `c` a condition on `C.fullname` reads the column `c.fullname`
(`Sample.unmatched_observable`).  `ReadsApart` says of a column that this does not happen, and
`readsApart_of_lower` that aliases without points and in lower case see to it.
-/

namespace RecordQuery

open Text

section Unmatched

variable {db : Database} {ctx : Context} {n : Nat} {joins : List (Tree Join)} {aliasName x : String}

/-! ## Columns that are read apart -/

/-- Of all joins only those with the alias put something where the attribute is read under the
alias. -/
def ReadsApart (joins : List (Tree Join)) (aliasName x : String) : Prop :=
  ∀ j ∈ Tree.forestLabels joins, j.aliasName ≠ aliasName → ∀ y,
    mergedName j.aliasName y ≠ mergedName aliasName x ∧
      mergedName j.aliasName y ≠ lowercase (mergedName aliasName x)

/-- Aliases without points are read apart from one in lower case. -/
theorem readsApart_of_lower (hjoins : ∀ j ∈ Tree.forestLabels joins, PointFree j.aliasName)
    (halias : PointFree aliasName)
    (hlower : lowercase (mergedName aliasName x) = mergedName aliasName x) :
    ReadsApart joins aliasName x := by
  intro j hj hne y
  rw [hlower, and_self]
  intro h
  have hsplit := congrArg splitName? h
  rw [(hjoins j hj).splitName?_mergedName, halias.splitName?_mergedName] at hsplit
  cases hsplit
  exact hne rfl

/-! ## Rows -/

namespace Choice

/-- The choices take no record at a link with the alias. -/
def Unmatched (joins : List (Tree Join)) (cs : List Choice) (aliasName : String) : Prop :=
  ∀ taken ∈ forestChosen joins cs, taken.1.aliasName ≠ aliasName

mutual

theorem chosen_sublist : ∀ (t : Tree Join) (c : Choice),
    ((chosen t c).map (·.1)).Sublist t.labels
  | .node _ _, .nothing => List.nil_sublist _
  | .node j js, .record _ _ below => (forestChosen_sublist js below).cons_cons j

/-- Records are taken at the links that there are, at each link one at most. -/
theorem forestChosen_sublist : ∀ (ts : List (Tree Join)) (cs : List Choice),
    ((forestChosen ts cs).map (·.1)).Sublist (Tree.forestLabels ts)
  | [], cs => .slnil
  | t :: ts, [] => List.nil_sublist _
  | t :: ts, c :: cs => by
      rw [forestChosen, List.map_append, Tree.forestLabels]
      exact (chosen_sublist t c).append (forestChosen_sublist ts cs)

end

theorem mem_forestLabels_of_chosen {ts : List (Tree Join)} {cs : List Choice}
    {taken : Join × Record} (h : taken ∈ forestChosen ts cs) :
    taken.1 ∈ Tree.forestLabels ts :=
  (forestChosen_sublist ts cs).subset (List.mem_map_of_mem h)

end Choice

/-- Joins put nothing under a name that is not one of their columns. -/
theorem Choice.get?_addedAttributes_eq_none {cs : List Choice} {name : String}
    (htaken : ∀ taken ∈ forestChosen joins cs, ∀ y, mergedName taken.1.aliasName y ≠ name) :
    NameMap.get? (addedAttributes joins cs).reverse name = none := by
  refine NameMap.get?_eq_none_iff.mpr fun added hadded => ?_
  obtain ⟨taken, hmem, hadded⟩ := List.mem_flatMap.mp (List.mem_reverse.mp hadded)
  obtain ⟨y, hy⟩ := Join.exists_mergedName hadded
  rw [hy]
  exact htaken taken hmem y

/-- A row holds nothing under a name that neither the record nor a join that took a record put
there. -/
theorem Choice.get?_extend_eq_none {cs : List Choice} {row : Record} {name : String}
    (hrow : ∀ e ∈ row.attributes, e.1 ≠ name)
    (htaken : ∀ taken ∈ forestChosen joins cs, ∀ y, mergedName taken.1.aliasName y ≠ name) :
    NameMap.get? (extend row (forestChosen joins cs)).attributes name = none := by
  rw [(rowOf_extend joins cs row).attributes name, get?_addedAttributes_eq_none htaken,
    NameMap.get?_eq_none_iff.mpr hrow]
  rfl

/-- **A link without a match leaves no column to read.** -/
theorem Choice.get?_of_unmatched {cs : List Choice} {row : Record}
    (hrow : ∀ e ∈ row.attributes, PointFree e.1) (hunmatched : Unmatched joins cs aliasName)
    (hx : lowercase x = x) (hapart : ReadsApart joins aliasName x) :
    (extend row (forestChosen joins cs)).get? (mergedName aliasName x) = none := by
  have htaken : ∀ taken ∈ forestChosen joins cs, ∀ y,
      mergedName taken.1.aliasName y ≠ mergedName aliasName x ∧
        mergedName taken.1.aliasName y ≠ lowercase (mergedName aliasName x) := fun taken hmem =>
    hapart taken.1 (mem_forestLabels_of_chosen hmem) (hunmatched taken hmem)
  have hwritten := get?_extend_eq_none (fun e he => (hrow e he).ne_mergedName aliasName x)
    fun taken hmem y => (htaken taken hmem y).1
  obtain ⟨low, -, hlow⟩ := lowercase_mergedName aliasName hx
  have hpoint : ∀ e ∈ row.attributes, e.1 ≠ lowercase (mergedName aliasName x) := by
    intro e he
    rw [hlow]
    exact (hrow e he).ne_mergedName low x
  have hlower := get?_extend_eq_none hpoint fun taken hmem y => (htaken taken hmem y).2
  rw [Record.get?, NameMap.lookup?, hwritten, hlower]
  rfl

/-! ## Conditions and orders -/

section Reads

variable {e : Entity} {aliases : NameMap Entity} {row : Record}

theorem Condition.evaluate_unmatched {c : Condition} {compiled : CompiledCondition}
    (halias : c.aliasName = some aliasName)
    (hc : c.compileIn (.root e aliases) ctx = .ok compiled)
    (hrow : row.get? (mergedName aliasName (lowercase c.name)) = none) (ctx' : Context) :
    compiled.evaluate ctx' row = .ok (decide (c.operator = .null true)) := by
  unfold compileIn at hc
  split at hc
  next column e' hlocate =>
    have hcolumn := Scope.column_of_locate? hlocate
    rw [halias] at hcolumn
    subst hcolumn
    exact CompiledCondition.evaluate_unknown hc (.absent hrow)
  next => cases hc

theorem Order.key_unmatched {o : Order} {compiled : CompiledOrder}
    (halias : o.aliasName = some aliasName) (ho : o.compile (.root e aliases) ctx = .ok compiled)
    (hrow : row.get? (mergedName aliasName (lowercase o.name)) = none) :
    Key.ofColumn row compiled.column compiled.declared = .ok none := by
  rw [column_of_compile ho, halias, Key.ofColumn]
  change row.get? (rowColumn (some aliasName) (lowercase o.name)) = none at hrow
  rw [hrow]

end Reads

/-- The rows of a record are those of its choices. -/
theorem rows_of_choices {e : Entity} {links : List Link} {aliases : NameMap Entity}
    (hplan : db.plan ctx n e links = .ok (joins, aliases)) {row source : Record}
    {rows : List Record} (h : resolve joins row source = .ok rows) :
    rows = (forestChoices db ctx links joins source).map fun cs =>
      Choice.extend row (Choice.forestChosen joins cs) := by
  obtain ⟨⟨forest, state⟩, hforest, heq⟩ := map_eq_ok_iff.mp hplan
  cases heq
  have hrel := Database.planForest_rel hforest
  have hread := forestKeysRead_of_resolveFrom hrel (by simp) h
  rw [resolve, resolveFrom_planned hrel hread, List.flatMap_singleton] at h
  exact (Except.ok.inj h).symm

/-- **A link without a match reads as null.**  The rows of a record without points in the names of
its attributes are those of some choices.  Where these take no record at the links with an alias,
every condition under the alias holds if and only if it tests for null, and every order under it
has no key, as long as their columns are read apart from those of the other links. -/
theorem resolve_unmatched {e : Entity} {links : List Link} {aliases : NameMap Entity}
    (hplan : db.plan ctx n e links = .ok (joins, aliases)) {r : Record}
    (hr : ∀ a ∈ r.attributes, PointFree a.1) {rows : List Record}
    (h : resolve joins r r = .ok rows) :
    ∃ css : List (List Choice),
      rows = css.map (fun cs => Choice.extend r (Choice.forestChosen joins cs)) ∧
      ∀ cs ∈ css, ForestWitness db ctx links joins r cs ∧
        ∀ aliasName, Choice.Unmatched joins cs aliasName →
          (∀ (c : Condition) (compiled : CompiledCondition), c.aliasName = some aliasName →
            c.compileIn (.root e aliases) ctx = .ok compiled →
              ReadsApart joins aliasName (lowercase c.name) → ∀ ctx' : Context,
                compiled.evaluate ctx' (Choice.extend r (Choice.forestChosen joins cs)) =
                  .ok (decide (c.operator = .null true))) ∧
          ∀ (o : Order) (compiled : CompiledOrder), o.aliasName = some aliasName →
            o.compile (.root e aliases) ctx = .ok compiled →
              ReadsApart joins aliasName (lowercase o.name) →
                Key.ofColumn (Choice.extend r (Choice.forestChosen joins cs)) compiled.column
                  compiled.declared = .ok none := by
  refine ⟨forestChoices db ctx links joins r, rows_of_choices hplan h, fun cs hcs =>
    ⟨mem_forestChoices.mp hcs, fun aliasName hunmatched => ⟨?_, ?_⟩⟩⟩
  · intro c compiled halias hc hapart ctx'
    have hnone := Choice.get?_of_unmatched hr hunmatched (lowercase_lowercase c.name) hapart
    exact Condition.evaluate_unmatched halias hc hnone ctx'
  · intro o compiled halias ho hapart
    have hnone := Choice.get?_of_unmatched hr hunmatched (lowercase_lowercase o.name) hapart
    exact Order.key_unmatched halias ho hnone

end Unmatched

namespace Sample

/-- An entity type without records. -/
def lead : Entity :=
  ((Entity.new "lead" "leadid").declare "fullname" .string).declare "code" .decimal

def leadsDb : Database := { db with schema := Schema.ofEntities 1 default [account, contact, lead] }

def leadLink (aliasName : String) : LinkSpec :=
  ⟨"account", "code", "lead", "code", .leftOuter, some aliasName, .listed ["fullname"], .empty⟩

def outerLink : LinkSpec :=
  ⟨"account", "code", "contact", "code", .leftOuter, some "c", .listed ["fullname"], .empty⟩

/-- From accounts to their leads under an alias and to their contacts. -/
def outerLinks (aliasName : String) : List Link :=
  [.node (leadLink aliasName) [], .node outerLink []]

/-- The condition that the full name under an alias is null. -/
def nameless (aliasName : String) : Condition :=
  (Condition.new "fullname" (.null true) []).withAlias aliasName

theorem plan_outerLinks {aliasName : String} {joins : List (Tree Join)} {aliases : NameMap Entity}
    (h : leadsDb.plan ctx 1 account (outerLinks aliasName) = .ok (joins, aliases)) :
    ∃ i j, joins = [.node i [], .node j []] ∧ i.entity = lead ∧ i.aliasName = aliasName ∧
      j.aliasName = "c" := by
  obtain ⟨⟨forest, state⟩, hforest, heq⟩ := map_eq_ok_iff.mp h
  cases heq
  simp only [outerLinks, Database.planForest, Database.planTree] at hforest
  obtain ⟨⟨t, state₁⟩, ht, hforest⟩ := bind_eq_ok_iff.mp hforest
  obtain ⟨⟨i, state₂⟩, hi, ht⟩ := bind_eq_ok_iff.mp ht
  cases ht
  obtain ⟨⟨ts, state₃⟩, hts, hforest⟩ := bind_eq_ok_iff.mp hforest
  cases hforest
  obtain ⟨⟨u, state₄⟩, hu, hts⟩ := bind_eq_ok_iff.mp hts
  cases hts
  obtain ⟨⟨j, state₅⟩, hj, hu⟩ := bind_eq_ok_iff.mp hu
  cases hu
  obtain ⟨-, -, -, hplanned, halias, -⟩ := Database.planLink_eq_ok hi
  obtain ⟨-, -, -, -, halias', -⟩ := Database.planLink_eq_ok hj
  have hlead : leadsDb.schema.find "lead" = .ok lead := rfl
  exact ⟨i, j, rfl, Except.ok.inj (hplanned.entity.symm.trans hlead), halias, halias'⟩

/-- No choice takes a lead. -/
theorem unmatched_lead {aliasName : String} (hne : "c" ≠ aliasName) {joins : List (Tree Join)}
    {aliases : NameMap Entity}
    (h : leadsDb.plan ctx 1 account (outerLinks aliasName) = .ok (joins, aliases))
    {cs : List Choice} (hcs : ForestWitness leadsDb ctx (outerLinks aliasName) joins contoso cs) :
    Choice.Unmatched joins cs aliasName := by
  obtain ⟨i, j, rfl, hentity, -, halias⟩ := plan_outerLinks h
  match cs, hcs with
  | [first, second], ⟨hfirst, _, _⟩ =>
      have hnothing : first = .nothing := by
        cases first with
        | nothing => rfl
        | record position joined below =>
            obtain ⟨⟨hposition, -⟩, -⟩ := hfirst
            rw [hentity] at hposition
            cases hposition
      subst hnothing
      intro taken htaken
      cases second with
      | nothing => cases htaken
      | record position joined below =>
          cases List.mem_singleton.mp htaken
          rwa [halias]

/-- What the condition answers on the rows of the account. -/
def answers (aliasName : String) : Except QueryError (List Bool) := do
  let p ← leadsDb.plan ctx 1 account (outerLinks aliasName)
  let compiled ← (nameless aliasName).compileIn (.root account p.2) ctx
  let rows ← resolve p.1 contoso contoso
  rows.mapM (compiled.evaluate ctx)

theorem exists_of_answers {aliasName : String} {bs : List Bool}
    (h : (answers aliasName).toOption.map id = some bs) :
    ∃ joins aliases compiled rows,
      leadsDb.plan ctx 1 account (outerLinks aliasName) = .ok (joins, aliases) ∧
        (nameless aliasName).compileIn (.root account aliases) ctx = .ok compiled ∧
        resolve joins contoso contoso = .ok rows ∧ rows.mapM (compiled.evaluate ctx) = .ok bs := by
  obtain ⟨_, hrun, rfl⟩ := exists_eq_ok_of_map h
  obtain ⟨⟨joins, aliases⟩, hplan, hrun⟩ := bind_eq_ok_iff.mp hrun
  obtain ⟨compiled, hcompiled, hrun⟩ := bind_eq_ok_iff.mp hrun
  obtain ⟨rows, hrows, hrun⟩ := bind_eq_ok_iff.mp hrun
  exact ⟨joins, aliases, compiled, rows, hplan, hcompiled, hrows, hrun⟩

theorem contoso_pointFree : ∀ a ∈ contoso.attributes, PointFree a.1 := by decide

/-- With an alias that is read apart the leads are null: every row of the account passes the
condition on them. -/
theorem resolve_unmatched_lead : ∃ joins aliases compiled rows,
    leadsDb.plan ctx 1 account (outerLinks "l") = .ok (joins, aliases) ∧
      (∀ a ∈ contoso.attributes, PointFree a.1) ∧
      (nameless "l").compileIn (.root account aliases) ctx = .ok compiled ∧
      ReadsApart joins "l" "fullname" ∧ resolve joins contoso contoso = .ok rows ∧
      rows ≠ [] ∧ ∀ row ∈ rows, compiled.evaluate ctx row = .ok true := by
  obtain ⟨joins, aliases, compiled, rows, hplan, hcompiled, hrows, hanswers⟩ :=
    @exists_of_answers "l" [true, true] (by decide +kernel)
  have hapart : ReadsApart joins "l" "fullname" := by
    obtain ⟨i, j, rfl, -, hi, hj⟩ := plan_outerLinks hplan
    refine readsApart_of_lower ?_ (by decide +kernel) (by decide +kernel)
    intro k hk
    rcases List.mem_pair.mp hk with rfl | rfl
    · rw [hi]
      decide +kernel
    · rw [hj]
      decide +kernel
  obtain ⟨css, heq, hall⟩ := resolve_unmatched hplan contoso_pointFree hrows
  refine ⟨joins, aliases, compiled, rows, hplan, contoso_pointFree, hcompiled, hapart, hrows, ?_,
    fun row hrow => ?_⟩
  · rintro rfl
    cases hanswers
  rw [heq] at hrow
  obtain ⟨cs, hcs, rfl⟩ := List.mem_map.mp hrow
  obtain ⟨hwitness, hnull⟩ := hall cs hcs
  exact (hnull "l" (unmatched_lead (by decide) hplan hwitness)).1 _ _ rfl hcompiled hapart ctx

/-- With the aliases `C` and `c` the condition on the leads reads the names of the contacts: no
row passes, though none has a lead. -/
theorem unmatched_observable : ∃ joins aliases compiled rows cs,
    leadsDb.plan ctx 1 account (outerLinks "C") = .ok (joins, aliases) ∧
      (∀ a ∈ contoso.attributes, PointFree a.1) ∧
      (nameless "C").compileIn (.root account aliases) ctx = .ok compiled ∧
      (nameless "C").operator = .null true ∧ resolve joins contoso contoso = .ok rows ∧
      Choice.extend contoso (Choice.forestChosen joins cs) ∈ rows ∧
      ForestWitness leadsDb ctx (outerLinks "C") joins contoso cs ∧
      Choice.Unmatched joins cs "C" ∧
      compiled.evaluate ctx (Choice.extend contoso (Choice.forestChosen joins cs)) = .ok false := by
  obtain ⟨joins, aliases, compiled, rows, hplan, hcompiled, hrows, hanswers⟩ :=
    @exists_of_answers "C" [false, false] (by decide +kernel)
  cases rows with
  | nil => cases hanswers
  | cons row rows =>
      obtain ⟨b, bs, hfirst, -, hb⟩ := mapM_cons_eq_ok_iff.mp hanswers
      cases hb
      have hrow : row ∈ row :: rows := .head _
      rw [rows_of_choices hplan hrows] at hrow
      obtain ⟨cs, hcs, rfl⟩ := List.mem_map.mp hrow
      have hwitness := mem_forestChoices.mp hcs
      exact ⟨joins, aliases, compiled, _, cs, hplan, contoso_pointFree, hcompiled, rfl, hrows,
        .head _, hwitness, unmatched_lead (by decide) hplan hwitness, hfirst⟩

end Sample

end RecordQuery
