import RecordQuery.Proofs.Query.Evaluation
import RecordQuery.Proofs.Query.KeyOrder
import RecordQuery.Proofs.Query.Related
import RecordQuery.Proofs.Sample

/-!
# Ordering rows

*Rows before rows.*  An order puts one row before another when the key of the one comes before that
of the other, or the other way round if it descends (`CompiledOrder.Before`).  Of several orders the
first that tells two rows apart decides (`CompiledOrder.RowBefore`).

*Sorting.*  Orders by declared attributes sort rows stably (`CompiledOrder.SortsStably`): no row
comes before an earlier one, and rows that no order tells apart keep their order, whatever the
directions.  Sorting by one order after another, the last order first, gives the same list, and
sorting a second time changes nothing (`CompiledOrder.sortRows_stably`).

*Keys of several kinds.*  Keys under an attribute that is not declared may be of several kinds.
Comparing them is not transitive where a key of one kind stands between keys of another which are
the other way round (`Sample.mixed_kinds_unordered`), and nowhere else
(`Key.compareForSort_preorder`).
-/

namespace RecordQuery

namespace CompiledOrder

variable {o : CompiledOrder} {os : List CompiledOrder} {ctx : Context} {a b : Record}
  {rows sorted : List Record}

/-! ## Rows before rows -/

/-- The key of a row for an order. -/
def keyIn (o : CompiledOrder) (row : Record) : Option Key :=
  (Key.ofColumn row o.column o.declared).toOption.join

/-- The row has a key for each order, which may be the absence of one. -/
def HasKeys (os : List CompiledOrder) (row : Record) : Prop :=
  ∀ o ∈ os, Key.ofColumn row o.column o.declared = .ok (o.keyIn row)

/-- One row comes strictly before another by an order. -/
def Before (o : CompiledOrder) (ctx : Context) (a b : Record) : Prop :=
  match o.direction with
  | .ascending => Key.Before ctx.caseSensitive (o.keyIn a) (o.keyIn b)
  | .descending => Key.Before ctx.caseSensitive (o.keyIn b) (o.keyIn a)

/-- An order does not tell two rows apart. -/
def Ties (o : CompiledOrder) (ctx : Context) (a b : Record) : Prop :=
  ¬ o.Before ctx a b ∧ ¬ o.Before ctx b a

/-- One row comes strictly before another by the first order that tells them apart. -/
inductive RowBefore (ctx : Context) : List CompiledOrder → Record → Record → Prop where
  | first {o : CompiledOrder} {os : List CompiledOrder} {a b : Record} (h : o.Before ctx a b) :
      RowBefore ctx (o :: os) a b
  | later {o : CompiledOrder} {os : List CompiledOrder} {a b : Record} (h : o.Ties ctx a b)
      (hrest : RowBefore ctx os a b) :
      RowBefore ctx (o :: os) a b

/-- The comparison by which rows are sorted. -/
def rowBefore (os : List CompiledOrder) (ctx : Context) (a b : Record) : Bool :=
  compareAll ctx.caseSensitive os (os.map (·.keyIn a)) (os.map (·.keyIn b)) = .lt

theorem compareKeys_swap (o : CompiledOrder) (caseSensitive : Bool) (k l : Option Key) :
    o.compareKeys caseSensitive k l = (o.compareKeys caseSensitive l k).swap := by
  unfold compareKeys
  rw [Key.compareForSort_swap caseSensitive k l]
  cases o.direction <;> rfl

theorem compareKeys_eq_lt_iff :
    o.compareKeys ctx.caseSensitive (o.keyIn a) (o.keyIn b) = .lt ↔ o.Before ctx a b := by
  unfold compareKeys Before
  cases o.direction with
  | ascending => exact Key.compareForSort_eq_lt_iff
  | descending =>
      show (Key.compareForSort _ _ _).swap = .lt ↔ _
      rw [← Key.compareForSort_swap]
      exact Key.compareForSort_eq_lt_iff

theorem compareKeys_eq_eq_iff :
    o.compareKeys ctx.caseSensitive (o.keyIn a) (o.keyIn b) = .eq ↔ o.Ties ctx a b := by
  rw [Ties, ← compareKeys_eq_lt_iff, ← compareKeys_eq_lt_iff,
    compareKeys_swap o _ (o.keyIn b) (o.keyIn a)]
  cases o.compareKeys ctx.caseSensitive (o.keyIn a) (o.keyIn b) <;> simp

theorem rowBefore_iff : rowBefore os ctx a b = true ↔ RowBefore ctx os a b := by
  unfold rowBefore
  rw [decide_eq_true_iff]
  induction os with
  | nil => exact ⟨nofun, nofun⟩
  | cons o os ih =>
      rw [List.map_cons, List.map_cons, compareAll, Ordering.then_eq_lt, compareKeys_eq_lt_iff,
        compareKeys_eq_eq_iff, ih]
      constructor
      · rintro (h | ⟨h, hrest⟩)
        · exact .first h
        · exact .later h hrest
      · rintro (h | ⟨h, hrest⟩)
        · exact .inl h
        · exact .inr ⟨h, hrest⟩

theorem rowBefore_single_iff : rowBefore [o] ctx a b = true ↔ o.Before ctx a b := by
  rw [rowBefore_iff]
  constructor
  · rintro (h | ⟨-, hrest⟩)
    · exact h
    · cases hrest
  · exact .first

/-- The first order decides, and its ties are decided by the others. -/
theorem rowBefore_cons : rowBefore (o :: os) ctx a b =
    (rowBefore [o] ctx a b || (tied (rowBefore [o] ctx) a b && rowBefore os ctx a b)) := by
  rw [Bool.eq_iff_iff, Bool.or_eq_true, Bool.and_eq_true, tied_iff, Bool.eq_false_iff,
    Bool.eq_false_iff, ne_eq, ne_eq, rowBefore_single_iff, rowBefore_single_iff, rowBefore_iff,
    rowBefore_iff]
  constructor
  · rintro (h | ⟨h, hrest⟩)
    · exact .inl h
    · exact .inr ⟨h, hrest⟩
  · rintro (h | ⟨h, hrest⟩)
    · exact .first h
    · exact .later h hrest

/-- Rows that no order tells apart come in neither way before each other. -/
theorem not_rowBefore_of_ties (h : ∀ o ∈ os, o.Ties ctx a b) : ¬ RowBefore ctx os a b := by
  intro hbefore
  induction hbefore with
  | first hfirst => exact (h _ (.head _)).1 hfirst
  | later _ _ ih => exact ih fun o ho => h o (.tail _ ho)

/-! ## Keys -/

theorem hasKeys_of_keysOf {row : Record} {ks : List (Option Key)} (h : keysOf os row = .ok ks) :
    HasKeys os row := by
  intro o ho
  obtain ⟨k, hk⟩ := exists_mapM_eq_ok_iff.mp ⟨ks, h⟩ o ho
  rw [keyIn, hk]
  rfl

theorem HasKeys.keysOf_eq {row : Record} (h : HasKeys os row) :
    keysOf os row = .ok (os.map (·.keyIn row)) :=
  mapM_eq_ok_map h

/-- The row has keys, of the kind that is set for each order. -/
structure HasKeysOf (kind : CompiledOrder → Key.Kind) (os : List CompiledOrder) (row : Record) :
    Prop where
  hasKeys : HasKeys os row
  ofKind : ∀ o ∈ os, Key.OfKind (kind o) (o.keyIn row)

theorem HasKeysOf.mono {kind : CompiledOrder → Key.Kind} {row : Record} (h : HasKeysOf kind os row)
    {os' : List CompiledOrder} (hsub : ∀ o ∈ os', o ∈ os) : HasKeysOf kind os' row :=
  ⟨fun o ho => h.hasKeys o (hsub o ho), fun o ho => h.ofKind o (hsub o ho)⟩

/-- The keys of declared attributes are of one kind for each order. -/
theorem exists_kinds (hos : ∀ o ∈ os, ∃ t, o.declared = some t) :
    ∃ kind, ∀ row, HasKeys os row → HasKeysOf kind os row := by
  choose kind hkind using exists_kind
  refine ⟨kind, fun row h => ⟨h, fun o ho => hkind o _ ?_⟩⟩
  obtain ⟨t, ht⟩ := hos o ho
  refine ⟨t, ht, fun key hkey => ?_⟩
  have hread := h o ho
  rw [hkey, ht] at hread
  exact Key.fits_of_ofColumn hread

/-- Rows with keys of one kind for each order are in order. -/
theorem weakOrderOn_rowBefore (kind : CompiledOrder → Key.Kind) (os : List CompiledOrder)
    (ctx : Context) : WeakOrderOn (HasKeysOf kind os) (rowBefore os ctx) :=
  ((ordersOn_compareAll ctx.caseSensitive kind os).comap (fun row => os.map (·.keyIn row))
    fun _ h => List.forall₂_map_right_iff.mpr (List.forall₂_same.mpr h.ofKind)).weakOrderOn

/-! ## Sorting -/

/-- Rows are sorted where each of them has keys, and then by these. -/
theorem sortRows_eq_ok_iff :
    sortRows os ctx rows = .ok sorted ↔
      (∀ row ∈ rows, HasKeys os row) ∧ sorted = stableSort (rowBefore os ctx) rows := by
  have hsort : (∀ row ∈ rows, HasKeys os row) →
      sortRows os ctx rows = .ok (stableSort (rowBefore os ctx) rows) := by
    intro hkeys
    have hkeyed : rows.mapM (fun row => (keysOf os row).map (·, row)) =
        .ok (rows.map fun row => (os.map (·.keyIn row), row)) :=
      mapM_eq_ok_map fun row hrow => by rw [(hkeys row hrow).keysOf_eq, ok_map]
    have hrel : List.Forall₂ (fun p row => p = (os.map (·.keyIn row), row))
        (stableSort (fun p p' => compareAll ctx.caseSensitive os p.1 p'.1 = .lt)
          (rows.map fun row => (os.map (·.keyIn row), row)))
        (stableSort (rowBefore os ctx) rows) := by
      refine stableSort_rel (fun _ _ _ _ h h' => by rw [h, h']; rfl) ?_
      exact List.forall₂_map_left_iff.mpr (List.forall₂_same.mpr fun _ _ => rfl)
    rw [sortRows, hkeyed, ok_bind]
    refine congrArg Except.ok (List.forall₂_eq_eq_eq ▸ List.forall₂_map_left_iff.mpr ?_)
    exact hrel.imp fun _ _ h => congrArg Prod.snd h
  constructor
  · intro h
    obtain ⟨keyed, hkeyed, -⟩ := bind_eq_ok_iff.mp h
    have hkeys : ∀ row ∈ rows, HasKeys os row := by
      intro row hrow
      obtain ⟨p, hp⟩ := exists_mapM_eq_ok_iff.mp ⟨keyed, hkeyed⟩ row hrow
      obtain ⟨ks, hks, -⟩ := map_eq_ok_iff.mp hp
      exact hasKeys_of_keysOf hks
    exact ⟨hkeys, Except.ok.inj (h.symm.trans (hsort hkeys))⟩
  · rintro ⟨hkeys, rfl⟩
    exact hsort hkeys

/-- Sorts rows by one order after another, the last one first. -/
def sortInPasses : List CompiledOrder → Context → List Record → Except QueryError (List Record)
  | [], _, rows => .ok rows
  | o :: os, ctx, rows => (sortInPasses os ctx rows).bind (sortRows [o] ctx)

/-- What it means that rows are sorted stably. -/
structure SortsStably (os : List CompiledOrder) (ctx : Context) (rows sorted : List Record) :
    Prop where
  perm : sorted.Perm rows
  ordered : sorted.Pairwise fun a b => ¬ RowBefore ctx os b a
  /-- Rows that no order tells apart keep their order. -/
  ties : ∀ group : List Record, group.Sublist rows →
    (group.Pairwise fun a b => ∀ o ∈ os, o.Ties ctx a b) → group.Sublist sorted
  passes : sortInPasses os ctx rows = .ok sorted
  again : sortRows os ctx sorted = .ok sorted

/-- Rows in order stay as they are. -/
theorem sortRows_of_pairwise (hkeys : ∀ row ∈ rows, HasKeys os row)
    (h : rows.Pairwise fun a b => rowBefore os ctx b a = false) :
    sortRows os ctx rows = .ok rows :=
  sortRows_eq_ok_iff.mpr ⟨hkeys, (stableSort_of_pairwise h).symm⟩

/-- Each order sorts what the orders after it have sorted. -/
theorem sortInPasses_eq {kind : CompiledOrder → Key.Kind}
    (hkeys : ∀ row ∈ rows, HasKeysOf kind os row) :
    sortInPasses os ctx rows = .ok (stableSort (rowBefore os ctx) rows) := by
  induction os with
  | nil =>
      refine congrArg Except.ok (stableSort_of_pairwise ?_).symm
      exact List.pairwise_of_forall fun _ _ => rfl
  | cons o os ih =>
      have hfirst : ∀ row, HasKeysOf kind (o :: os) row → HasKeysOf kind [o] row :=
        fun row h => h.mono fun _ ho => List.mem_singleton.mp ho ▸ .head _
      have hrest : ∀ row, HasKeysOf kind (o :: os) row → HasKeysOf kind os row :=
        fun row h => h.mono fun _ ho => .tail _ ho
      have htwo : stableSort (rowBefore (o :: os) ctx) rows =
          stableSort (rowBefore [o] ctx) (stableSort (rowBefore os ctx) rows) :=
        stableSort_passes (fun _ _ => rowBefore_cons)
          ((weakOrderOn_rowBefore kind [o] ctx).mono hfirst)
          ((weakOrderOn_rowBefore kind os ctx).mono hrest)
          (weakOrderOn_rowBefore kind (o :: os) ctx) hkeys
      rw [sortInPasses, ih fun row hrow => hrest row (hkeys row hrow), htwo]
      refine sortRows_eq_ok_iff.mpr ⟨fun row hrow => ?_, rfl⟩
      have hmem : row ∈ rows := (stableSort_perm _ rows).mem_iff.mp hrow
      exact (hfirst row (hkeys row hmem)).hasKeys

/-- Rows with keys of one kind for each order are sorted stably. -/
theorem sortsStably_of_hasKeysOf {kind : CompiledOrder → Key.Kind}
    (hkeys : ∀ row ∈ rows, HasKeysOf kind os row) :
    SortsStably os ctx rows (stableSort (rowBefore os ctx) rows) := by
  have horder := weakOrderOn_rowBefore kind os ctx
  have hperm := stableSort_perm (rowBefore os ctx) rows
  have hpairwise := stableSort_pairwise horder hkeys
  have hsorted : ∀ row ∈ stableSort (rowBefore os ctx) rows, HasKeys os row := fun row hrow =>
    (hkeys row (hperm.mem_iff.mp hrow)).hasKeys
  refine ⟨hperm, hpairwise.imp fun hba hbefore => ?_, fun group hsub hties => ?_,
    sortInPasses_eq hkeys, sortRows_of_pairwise hsorted hpairwise⟩
  · rw [rowBefore_iff.mpr hbefore] at hba
    cases hba
  · -- a group of ties is sorted already, and sorting all rows leaves it as it sorts it alone
    have hkept : stableSort (rowBefore os ctx) group = group := by
      refine stableSort_of_pairwise (hties.imp fun htied => Bool.eq_false_iff.mpr fun hbefore => ?_)
      exact not_rowBefore_of_ties (fun o ho => (htied o ho).symm) (rowBefore_iff.mp hbefore)
    have hsublist := stableSort_sublist horder hkeys hsub
    rwa [hkept] at hsublist

/-- **Orders by declared attributes sort rows stably.** -/
theorem sortRows_stably (hos : ∀ o ∈ os, ∃ t, o.declared = some t)
    (h : sortRows os ctx rows = .ok sorted) : SortsStably os ctx rows sorted := by
  obtain ⟨hkeys, rfl⟩ := sortRows_eq_ok_iff.mp h
  obtain ⟨kind, hkind⟩ := exists_kinds hos
  exact sortsStably_of_hasKeysOf fun row hrow => hkind row (hkeys row hrow)

end CompiledOrder

namespace Sample

/-- By code, the highest first. -/
def highestCode : CompiledOrder := ⟨"code", some .decimal, .descending⟩

/-- The record without a code comes last, and the records of one code keep their order. -/
theorem contacts_sorted : ∃ sorted,
    CompiledOrder.sortRows [highestCode] ctx [linus, grace, ada] = .ok sorted ∧
      sorted.map (·.id.bits) = [3, 2, 4] ∧
      CompiledOrder.SortsStably [highestCode] ctx [linus, grace, ada] sorted := by
  obtain ⟨sorted, hsorted, hids⟩ := exists_eq_ok_of_map
    (x := CompiledOrder.sortRows [highestCode] ctx [linus, grace, ada]) (f := (·.map (·.id.bits)))
    (b := [3, 2, 4]) rfl
  have hdeclared : ∀ o ∈ [highestCode], ∃ t, o.declared = some t := by
    intro o ho
    exact ⟨.decimal, List.mem_singleton.mp ho ▸ rfl⟩
  exact ⟨sorted, hsorted, hids, CompiledOrder.sortRows_stably hdeclared hsorted⟩

end Sample

/-! ## Keys of several kinds -/

/-- **How keys compare for sorting is a total preorder but for keys between keys of another kind.**
There it is one exactly where the two keys are in order anyway.  Keys of one kind for each order are
never separated. -/
theorem Key.compareForSort_preorder (caseSensitive : Bool) :
    (∀ a b, compareForSort caseSensitive a b = (compareForSort caseSensitive b a).swap) ∧
    (∀ a b c, ((compareForSort caseSensitive a b).isLE = true →
        (compareForSort caseSensitive b c).isLE = true →
          (compareForSort caseSensitive a c).isLE = true) ↔
      ¬ (Separates b a c ∧ Before caseSensitive c a)) ∧
    ∀ kind os, OrdersOn (CompiledOrder.OfKinds kind os)
      (CompiledOrder.compareAll caseSensitive os) := by
  refine ⟨compareForSort_swap caseSensitive, fun a b c => ⟨fun htrans hbroken => ?_, fun h => ?_⟩,
    CompiledOrder.ordersOn_compareAll caseSensitive⟩
  · obtain ⟨hseparates, hbefore⟩ := hbroken
    obtain ⟨hab, hbc⟩ := hseparates.compareForSort_eq caseSensitive
    have hac := htrans (hab ▸ rfl) (hbc ▸ rfl)
    rw [compareForSort_swap, compareForSort_eq_lt_iff.mpr hbefore] at hac
    cases hac
  · intro hab hbc
    by_cases hseparates : Separates b a c
    · have hnot : compareForSort caseSensitive c a ≠ .lt := fun hlt =>
        h ⟨hseparates, compareForSort_eq_lt_iff.mp hlt⟩
      rw [compareForSort_swap]
      cases hca : compareForSort caseSensitive c a with
      | lt => exact absurd hca hnot
      | eq => rfl
      | gt => rfl
    · exact compareForSort_trans hseparates hab hbc

namespace Sample

/-- A contact with a value under an attribute that is not declared. -/
def noted (id : RecordId) (v : Value) : Record := (Record.new "contact" id).set "x" v

/-- A text is not told apart from numbers, so it keeps two of them from being put in order. -/
theorem mixed_kinds_unordered :
    (∀ caseSensitive,
      (Key.compareForSort caseSensitive (some (.number ⟨2, 0⟩)) (some (.text "a"))).isLE = true ∧
      (Key.compareForSort caseSensitive (some (.text "a")) (some (.number ⟨1, 0⟩))).isLE = true ∧
      (Key.compareForSort caseSensitive (some (.number ⟨2, 0⟩)) (some (.number ⟨1, 0⟩))).isLE =
        false) ∧
    ∃ sorted, CompiledOrder.sortRows [⟨"x", none, .ascending⟩] ctx
        [noted ⟨2⟩ (.int 2), noted ⟨3⟩ (.text "a"), noted ⟨4⟩ (.int 1)] = .ok sorted ∧
      sorted.map (·.id.bits) = [2, 3, 4] :=
  ⟨fun _ => ⟨rfl, rfl, rfl⟩, exists_eq_ok_of_map rfl⟩

end Sample

end RecordQuery
