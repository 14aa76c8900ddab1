import Mathlib.Data.List.Basic
import RecordQuery.Proofs.Join.Witness
import RecordQuery.Proofs.Text.Digits
import RecordQuery.Proofs.Text.Lowercase
import RecordQuery.Query.Compiled

/-!
# Reading joined columns

A row holds the attributes of a joined record under the alias of the join.  As long as no name has
a point of its own, nothing else of the row can be mistaken for them, and a condition on a joined
column answers what it answers on the joined record itself.

*Names.*  `PointFree` names have no point.  A lookup tries a name as it is written and then its
lower case.  The lower case of a merged name may have another alias but ends in the same point and
attribute (`lowercase_mergedName`), so it never leads to an attribute of its own
(`mergedName_eq_mergedName`).

*Rows.*  `get?_merge` says what a row holds under a merged name, `CompiledCondition.evaluate_under`
what follows for conditions.
-/

namespace RecordQuery

open Text

/-! ## Names without a point -/

def PointFree (name : String) : Prop := '.' ∉ name.toList

instance (name : String) : Decidable (PointFree name) := inferInstanceAs (Decidable (¬ _))

theorem PointFree.splitName?_eq {name : String} (h : PointFree name) : splitName? name = none := by
  have hnone : ∀ c ∈ name.toList, decide (c = '.') = false := by
    intro c hc
    refine decide_eq_false fun hpoint => h ?_
    rwa [← hpoint]
  rw [splitName?, cutAt_eq_none hnone]

theorem toList_mergedName (aliasName name : String) :
    (mergedName aliasName name).toList = aliasName.toList ++ '.' :: name.toList := by
  simp [mergedName]

theorem mergedName_injective {aliasName n k : String}
    (h : mergedName aliasName n = mergedName aliasName k) : n = k := by
  have hlist := congrArg String.toList h
  rw [toList_mergedName, toList_mergedName] at hlist
  exact String.toList_inj.mp (List.cons.inj (List.append_cancel_left hlist)).2

/-- An alias without a point is read back from the columns under it. -/
theorem PointFree.splitName?_mergedName {a : String} (h : PointFree a) (x : String) :
    splitName? (mergedName a x) = some (a, x) := by
  have hnone : ∀ c ∈ a.toList, decide (c = '.') = false := by
    intro c hc
    refine decide_eq_false fun hpoint => h ?_
    rwa [← hpoint]
  rw [splitName?, toList_mergedName, cutAt_append hnone (decide_eq_true rfl)]
  simp

theorem PointFree.ne_mergedName {name : String} (h : PointFree name) (aliasName n : String) :
    name ≠ mergedName aliasName n := by
  rintro rfl
  apply h
  rw [toList_mergedName]
  simp

/-- A merged name that is also one under a longer alias has a point in its attribute. -/
theorem mergedName_eq_mergedName {aliasName low n x : String} (hn : PointFree n)
    (hlength : aliasName.toList.length ≤ low.toList.length)
    (h : mergedName aliasName n = mergedName low x) : n = x := by
  have hlist := congrArg String.toList h
  rw [toList_mergedName, toList_mergedName] at hlist
  obtain ⟨middle, hlow, hrest⟩ | ⟨middle, halias, hrest⟩ := List.append_eq_append_iff.mp hlist
  · cases middle with
    | nil => exact String.toList_inj.mp (List.cons.inj hrest).2
    | cons c middle =>
        refine absurd ?_ hn
        rw [(List.cons.inj hrest).2]
        simp
  · have hnil : middle = [] := by
      have := congrArg List.length halias
      rw [List.length_append] at this
      exact List.eq_nil_of_length_eq_zero (by omega)
    subst hnil
    exact (String.toList_inj.mp (List.cons.inj hrest).2).symm

theorem lowercase_mergedName (aliasName : String) {x : String} (hx : lowercase x = x) :
    ∃ low, aliasName.toList.length ≤ low.toList.length ∧
      lowercase (mergedName aliasName x) = mergedName low x := by
  have hlower : ∀ c ∈ '.' :: x.toList, IsLower c := by
    refine List.forall_mem_cons.mpr ⟨by decide +kernel, fun c hc => ?_⟩
    rw [← hx] at hc
    exact isLower_of_mem_lowercase hc
  obtain ⟨low, hlength, hlow⟩ := lowerFrom_append_lower hlower [] aliasName.toList
  refine ⟨String.ofList low, by rwa [String.toList_ofList], String.toList_inj.mp ?_⟩
  rw [lowercase, toList_mergedName, hlow, String.toList_ofList, toList_mergedName,
    String.toList_ofList]

/-! ## Rows -/

/-- The attributes stand in the order of a map, and none has a point in its name. -/
structure Record.Plain (r : Record) : Prop where
  sorted : NameMap.Sorted r.attributes
  pointFree : ∀ e ∈ r.attributes, PointFree e.1

namespace Join

variable {j : Join} {row joined : Record}

/-- A join puts nothing under a name without a point. -/
theorem get?_merge_of_pointFree (j : Join) (row joined : Record) {name : String}
    (hname : PointFree name) :
    NameMap.get? (j.merge row joined).attributes name = NameMap.get? row.attributes name := by
  have hnone : NameMap.get? (j.addedAttributes joined).reverse name = none := by
    refine NameMap.get?_eq_none_iff.mpr fun added hadded heq => ?_
    obtain ⟨y, hy⟩ := exists_mergedName (List.mem_reverse.mp hadded)
    exact hname.ne_mergedName j.aliasName y (heq.symm.trans hy)
  rw [merge_eq_extend, Choice.extend, NameMap.get?_insertAll, List.flatMap_singleton, hnone,
    Option.none_or]

theorem id_merge (j : Join) (row joined : Record) : (j.merge row joined).id = row.id := by
  rw [merge_eq_extend]
  rfl

theorem addedAttributes_of_plain (hcolumns : j.columns = .all) (hjoined : joined.Plain) :
    j.addedAttributes joined =
      joined.attributes.map fun e => (mergedName j.aliasName e.1, j.merged e.1 e.2) := by
  rw [addedAttributes, addedEntries_all hcolumns]
  refine List.filterMap_eq_map_iff_forall_eq_some.mpr fun e he => ?_
  rw [ownName?, (hjoined.pointFree e he).splitName?_eq]
  rfl

/-- What a row holds under a name that no attribute of its own has. -/
theorem attributes_merge (hcolumns : j.columns = .all) (hrow : row.Plain) (hjoined : joined.Plain)
    (aliasName x : String) :
    NameMap.get? (j.merge row joined).attributes (mergedName aliasName x) =
      NameMap.get? (joined.attributes.map fun e => (mergedName j.aliasName e.1, j.merged e.1 e.2))
        (mergedName aliasName x) := by
  have hown : NameMap.get? row.attributes (mergedName aliasName x) = none :=
    NameMap.get?_eq_none_iff.mpr fun e he => (hrow.pointFree e he).ne_mergedName aliasName x
  have hnames : (joined.attributes.map fun e => (mergedName j.aliasName e.1, j.merged e.1 e.2)
      ).Pairwise fun e f => e.1 ≠ f.1 :=
    List.pairwise_map.mpr (hjoined.sorted.names_ne.imp fun hne heq => hne (mergedName_injective heq))
  rw [merge_eq_extend, Choice.extend, List.flatMap_singleton,
    addedAttributes_of_plain hcolumns hjoined, NameMap.get?_insertAll, hown, Option.or_none,
    NameMap.get?_reverse hnames]

/-- A row holds under a merged name what the joined record holds under the name. -/
theorem get?_merge (hcolumns : j.columns = .all) (hrow : row.Plain) (hjoined : joined.Plain)
    {x : String} (hx : lowercase x = x) :
    (j.merge row joined).get? (mergedName j.aliasName x) = (joined.get? x).map (j.merged x) := by
  have hwritten : NameMap.get? (j.merge row joined).attributes (mergedName j.aliasName x) =
      (NameMap.get? joined.attributes x).map (j.merged x) := by
    rw [attributes_merge hcolumns hrow hjoined]
    exact NameMap.get?_map (fun _ _ => mergedName_injective) j.merged x joined.attributes
  rw [Record.get?, Record.get?, NameMap.lookup?, NameMap.lookup?, hwritten, hx]
  cases hfound : NameMap.get? joined.attributes x with
  | some v => rfl
  | none =>
      -- the lower case of the name may have another alias, but no attribute stands under it
      obtain ⟨low, hlength, hlow⟩ := lowercase_mergedName j.aliasName hx
      have hlower : NameMap.get? (j.merge row joined).attributes (mergedName low x) = none := by
        rw [attributes_merge hcolumns hrow hjoined, NameMap.get?_eq_none_iff]
        intro e he heq
        obtain ⟨e, hmem, rfl⟩ := List.mem_map.mp he
        have hname := mergedName_eq_mergedName (hjoined.pointFree e hmem) hlength heq
        exact NameMap.get?_eq_none_iff.mp hfound e hmem hname
      rw [hlow, hlower]
      rfl

end Join

/-! ## Values -/

theorem Value.unaliased_unaliased (v : Value) : v.unaliased.unaliased = v.unaliased := by
  induction v using Value.unaliased.induct with
  | case1 entity name v ih => rw [Value.unaliased, ih]
  | case2 v hplain =>
      have hself : v.unaliased = v := by
        unfold Value.unaliased
        split
        · exact absurd rfl (hplain _ _ _)
        · rfl
      rw [hself, hself]

namespace Key

/-- The key of a value depends neither on wrappers around it nor, failures apart, on the column. -/
theorem ofValue_congr {column column' : String} {v w : Value} (h : v.unaliased = w.unaliased) :
    SameValue (ofValue column v) (ofValue column' w) := by
  unfold ofValue
  rw [h]
  cases w.unaliased with
  | double d =>
      simp only [decimalOfDouble]
      cases d.toDecimal? <;> rfl
  | _ => rfl

theorem ofStored_congr {column column' : String} (declared : Option AttributeType) {v w : Value}
    (h : v.unaliased = w.unaliased) :
    SameValue (ofStored column declared v) (ofStored column' declared w) := by
  refine (ofValue_congr h).bind fun k => ?_
  cases k with
  | none => rfl
  | some k =>
      cases declared with
      | none => rfl
      | some t =>
          cases hfits : k.fits t with
          | true => simp [hfits, SameValue]
          | false =>
              simp only [hfits]
              rfl

end Key

/-! ## Conditions -/

namespace CompiledCondition

/-- The condition on the column that holds the attribute under an alias. -/
def under (aliasName : String) (c : CompiledCondition) : CompiledCondition :=
  { c with column := mergedName aliasName c.column }

theorem holds_congr (ctx : Context) (column column' : String) (t : Test) (k : Key) :
    SameValue (t.holds ctx column k) (t.holds ctx column' k) := by
  have hinstant : SameValue (Test.instantOf column k) (Test.instantOf column' k) := by
    unfold Test.instantOf
    cases k.instant? <;> rfl
  cases t with
  | text shape pattern => cases k <;> rfl
  | day r d => exact hinstant.bind fun _ => .refl _
  | window w => exact hinstant.bind fun _ => .refl _
  | fiscal f => exact hinstant.bind fun _ => .refl _
  | _ => rfl

/-- A condition under the alias of a join answers of a row what the condition answers of the joined
record. -/
theorem evaluate_under {j : Join} {row joined : Record} (hcolumns : j.columns = .all)
    (hrow : row.Plain) (hjoined : joined.Plain) {c : CompiledCondition}
    (hc : lowercase c.column = c.column) (ctx : Context) :
    SameValue ((c.under j.aliasName).evaluate ctx (j.merge row joined)) (c.evaluate ctx joined) := by
  have hkey : SameValue ((c.under j.aliasName).keyOf (j.merge row joined)) (c.keyOf joined) := by
    unfold keyOf
    cases hdeclared : c.declared with
    | none => simp [under, hdeclared, SameValue]
    | some t =>
        simp only [under, hdeclared, Key.ofColumn, Join.get?_merge hcolumns hrow hjoined hc]
        cases hvalue : joined.get? c.column with
        | none => rfl
        | some v =>
            refine Key.ofStored_congr (some t) ?_
            rw [Join.merged, Value.unaliased, Value.unaliased_unaliased]
  refine hkey.bind fun k => ?_
  cases k with
  | none => rfl
  | some k => exact (holds_congr ctx _ _ c.test k).bind fun _ => .refl _

end CompiledCondition

namespace Condition

/-- A condition compiles alike for every column. -/
theorem compileFor_under (c : Condition) (aliasName column : String) (e : Entity) (ctx : Context) :
    (c.withAlias aliasName).compileFor (mergedName aliasName column) e ctx =
      (c.compileFor column e ctx).map (CompiledCondition.under aliasName) := by
  change c.compileFor (mergedName aliasName column) e ctx = _
  simp only [compileFor, throw_bind]
  by_cases harity : (!c.operator.arity.accepts c.values.length) = true
  · rw [if_pos harity, if_pos harity]
    rfl
  · rw [if_neg harity, if_neg harity]
    by_cases hstrict : ((e.typeOf? (lowercase c.name)).isNone && ctx.strict) = true
    · rw [if_pos hstrict, if_pos hstrict]
      rfl
    · rw [if_neg hstrict, if_neg hstrict]
      cases testOf ctx (lowercase c.name) (e.typeOf? (lowercase c.name)) c.operator c.values with
      | error failure => rfl
      | ok p => rfl

theorem column_of_compileFor {c : Condition} {column : String} {e : Entity} {ctx : Context}
    {compiled : CompiledCondition} (h : c.compileFor column e ctx = .ok compiled) :
    compiled.column = column := by
  simp only [compileFor, throw_bind, refuse_eq_ok_iff] at h
  obtain ⟨-, -, h⟩ := h
  obtain ⟨p, -, h⟩ := bind_eq_ok_iff.mp h
  cases h
  rfl

end Condition

end RecordQuery
