import RecordQuery.Proofs.Join.Agreement
import RecordQuery.Proofs.Join.Columns
import RecordQuery.Proofs.Query.LetterCase

/-!
# Rows with respelled columns

A link that lists its columns puts them into a row under the names as the list spells them, and
the wrapped values remember this spelling.  Two links that differ in the spelling of their
columns make rows that differ in these names and nothing else.

*Spellings.*  `Spelling a n n'` says that under the alias `a` the one row has a column as `n` and
the other has it as `n'`.  Names under which only one of the rows has a column must be free in the
other, so a row is known completely (`NameMap.Respelled`).

*Merging.*  What is put into two such rows in turn keeps them so (`NameMap.Respelled.insertAll`),
and what two alike joins put there is respelled in the same way (`Record.Respelled.merge`), provided
that each alias has no point, so columns under different aliases stay apart.
-/

namespace RecordQuery

open Text

/-! ## Spellings -/

/-- How columns under an alias are spelled in one row and in another. -/
abbrev Spelling := String → String → String → Prop

namespace Spelling

/-- A name has a column as the one row spells it. -/
def Left (K : Spelling) (key : String) : Prop := ∃ a n n', K a n n' ∧ key = mergedName a n

/-- A name has a column as the other row spells it. -/
def Right (K : Spelling) (key : String) : Prop := ∃ a n n', K a n n' ∧ key = mergedName a n'

/-- The spellings of the other row and of the one. -/
def swap (K : Spelling) : Spelling := fun a n n' => K a n' n

variable {K : Spelling} {key : String}

theorem left_swap : K.swap.Left key ↔ K.Right key := by
  constructor
  · exact fun ⟨a, n, n', hk, hkey⟩ => ⟨a, n', n, hk, hkey⟩
  · exact fun ⟨a, n, n', hk, hkey⟩ => ⟨a, n', n, hk, hkey⟩

theorem right_swap : K.swap.Right key ↔ K.Left key :=
  (left_swap (K := K.swap)).symm

end Spelling

theorem PointFree.mergedName_inj {a b n m : String} (ha : PointFree a) (hb : PointFree b)
    (h : mergedName a n = mergedName b m) : a = b ∧ n = m := by
  have hsplit := congrArg splitName? h
  rw [ha.splitName?_mergedName, hb.splitName?_mergedName] at hsplit
  exact Prod.mk.inj (Option.some.inj hsplit)

/-! ## Maps -/

/-- The maps differ in the spelling of columns.  Under the two spellings of a column they hold one
thing, as each of them writes it. -/
structure NameMap.Respelled (K : Spelling) (write : String → β → α) (m m' : NameMap α) : Prop where
  column : ∀ {a n n'}, K a n n' → ∃ x : Option β,
    get? m (mergedName a n) = x.map (write n) ∧ get? m' (mergedName a n') = x.map (write n')
  other : ∀ {key}, ¬ K.Left key → ¬ K.Right key → get? m key = get? m' key
  left : ∀ {key}, ¬ K.Left key → K.Right key → get? m key = none
  right : ∀ {key}, K.Left key → ¬ K.Right key → get? m' key = none

namespace NameMap

/-- The entries that a list of columns fills under an alias. -/
def columnsUnder (a : String) (f : String → Option α) (names : List String) : NameMap α :=
  names.filterMap fun n => (f n).map (mergedName a n, ·)

section Columns

variable {a : String} {f : String → Option α} {names : List String}

theorem mem_columnsUnder {e : String × α} : e ∈ columnsUnder a f names ↔
    ∃ n ∈ names, e.1 = mergedName a n ∧ f n = some e.2 := by
  obtain ⟨key, x⟩ := e
  simp only [columnsUnder, List.mem_filterMap, Option.map_eq_some_iff, Prod.mk.injEq]
  constructor
  · rintro ⟨n, hn, y, hy, rfl, rfl⟩
    exact ⟨n, hn, rfl, hy⟩
  · rintro ⟨n, hn, rfl, hx⟩
    exact ⟨n, hn, x, hx, rfl, rfl⟩

theorem get?_columnsUnder {n : String} (hn : n ∈ names) :
    get? (columnsUnder a f names).reverse (mergedName a n) = f n := by
  refine Option.ext fun x => ?_
  have hmem : ∀ y, (mergedName a n, y) ∈ (columnsUnder a f names).reverse ↔ f n = some y := by
    intro y
    rw [List.mem_reverse, mem_columnsUnder]
    constructor
    · rintro ⟨m, -, hname, hy⟩
      rwa [mergedName_injective hname]
    · exact fun hy => ⟨n, hn, rfl, hy⟩
  rw [get?_eq_some_iff_of_agree fun b c hb hc =>
    Option.some.inj (((hmem b).mp hb).symm.trans ((hmem c).mp hc)), hmem]

theorem get?_columnsUnder_eq_none {key : String} (hkey : ∀ n ∈ names, key ≠ mergedName a n) :
    get? (columnsUnder a f names).reverse key = none := by
  refine get?_eq_none_iff.mpr fun e he heq => ?_
  obtain ⟨n, hn, hname, -⟩ := mem_columnsUnder.mp (List.mem_reverse.mp he)
  exact hkey n hn (heq.symm.trans hname)

end Columns

namespace Respelled

variable {K : Spelling} {write : String → β → α} {m m' es es' : NameMap α}

/-- A map without columns whose spelling changes stays as it is. -/
theorem refl (h : ∀ e ∈ m, ¬ K.Left e.1 ∧ ¬ K.Right e.1) : Respelled K write m m where
  column := by
    intro a n n' hk
    refine ⟨none, get?_eq_none_iff.mpr fun e he heq => ?_, get?_eq_none_iff.mpr fun e he heq => ?_⟩
    · exact (h e he).1 ⟨a, n, n', hk, heq⟩
    · exact (h e he).2 ⟨a, n, n', hk, heq⟩
  other _ _ := rfl
  left := by
    intro key _ hright
    refine get?_eq_none_iff.mpr fun e he heq => (h e he).2 ?_
    rwa [heq]
  right := by
    intro key hleft _
    refine get?_eq_none_iff.mpr fun e he heq => (h e he).1 ?_
    rwa [heq]

theorem symm (h : Respelled K write m m') : Respelled K.swap write m' m where
  column hk := (h.column hk).imp fun _ hx => hx.symm
  other hleft hright :=
    (h.other (mt Spelling.right_swap.mpr hright) (mt Spelling.left_swap.mpr hleft)).symm
  left hleft hright := h.right (Spelling.right_swap.mp hright) (mt Spelling.left_swap.mpr hleft)
  right hleft hright := h.left (mt Spelling.right_swap.mpr hright) (Spelling.left_swap.mp hleft)

/-- Entries that differ in the spelling of columns are put into maps that do. -/
theorem insertAll (h : Respelled K write m m') (hes : Respelled K write es.reverse es'.reverse) :
    Respelled K write (NameMap.insertAll m es) (NameMap.insertAll m' es') where
  column := by
    intro a n n' hk
    obtain ⟨x, hx, hx'⟩ := hes.column hk
    obtain ⟨y, hy, hy'⟩ := h.column hk
    refine ⟨x.or y, ?_, ?_⟩
    · rw [get?_insertAll, hx, hy, Option.map_or]
    · rw [get?_insertAll, hx', hy', Option.map_or]
  other := by
    intro key hleft hright
    rw [get?_insertAll, get?_insertAll, hes.other hleft hright, h.other hleft hright]
  left := by
    intro key hleft hright
    rw [get?_insertAll, hes.left hleft hright, h.left hleft hright]
    rfl
  right := by
    intro key hleft hright
    rw [get?_insertAll, hes.right hleft hright, h.right hleft hright]
    rfl

end Respelled

end NameMap

/-- Two lists of columns under an alias are spelled in the two ways, and every column of one is
one of the other. -/
structure Spelling.Fits (K : Spelling) (a : String) (names names' : List String) : Prop where
  mem : ∀ {n n'}, K a n n' → n ∈ names ∧ n' ∈ names'
  left : ∀ n ∈ names, ∃ n', K a n n'
  right : ∀ n' ∈ names', ∃ n, K a n n'

/-- Only the letter case of columns changes, and only under aliases that can be told apart from
them. -/
structure Spelling.Recased (K : Spelling) : Prop where
  alike : ∀ {a n n'}, K a n n' → asciiLower n = asciiLower n'
  pointFree : ∀ {a n n'}, K a n n' → PointFree a

theorem Spelling.Recased.swap {K : Spelling} (hK : K.Recased) : K.swap.Recased :=
  ⟨fun hk => (hK.alike hk).symm, fun hk => hK.pointFree hk⟩

/-- The columns of two lists that fit differ in their spelling. -/
theorem NameMap.respelled_columnsUnder {K : Spelling} (write : String → β → α) {a : String}
    {names names' : List String} (hfits : K.Fits a names names') (hK : K.Recased)
    (ha : PointFree a) {f : String → Option β}
    (hf : ∀ {n n'}, asciiLower n = asciiLower n' → f n = f n') :
    Respelled K write (columnsUnder a (fun n => (f n).map (write n)) names).reverse
      (columnsUnder a (fun n => (f n).map (write n)) names').reverse where
  column := by
    intro b n n' hk
    by_cases hb : b = a
    · subst hb
      obtain ⟨hn, hn'⟩ := hfits.mem hk
      refine ⟨f n, get?_columnsUnder hn, ?_⟩
      rw [get?_columnsUnder hn', hf (hK.alike hk)]
    · have hapart : ∀ n m, mergedName b n ≠ mergedName a m := fun n m heq =>
        hb ((hK.pointFree hk).mergedName_inj ha heq).1
      exact ⟨none, get?_columnsUnder_eq_none fun m _ => hapart n m,
        get?_columnsUnder_eq_none fun m _ => hapart n' m⟩
  other := by
    intro key hleft hright
    rw [get?_columnsUnder_eq_none, get?_columnsUnder_eq_none]
    · rintro n' hn' rfl
      obtain ⟨n, hk⟩ := hfits.right n' hn'
      exact hright ⟨a, n, n', hk, rfl⟩
    · rintro n hn rfl
      obtain ⟨n', hk⟩ := hfits.left n hn
      exact hleft ⟨a, n, n', hk, rfl⟩
  left := by
    intro key hleft _
    refine get?_columnsUnder_eq_none ?_
    rintro n hn rfl
    obtain ⟨n', hk⟩ := hfits.left n hn
    exact hleft ⟨a, n, n', hk, rfl⟩
  right := by
    intro key _ hright
    refine get?_columnsUnder_eq_none ?_
    rintro n' hn' rfl
    obtain ⟨n, hk⟩ := hfits.right n' hn'
    exact hright ⟨a, n, n', hk, rfl⟩

/-! ## Rows -/

/-- The value of a column of an entity type as a row holds it. -/
def Value.asColumn (name : String) (x : String × Value) : Value := .aliased ⟨x.1, name, x.2⟩

/-- The rows differ in the spelling of columns: in the names under which they hold them, and in the
names that the wrapped values remember. -/
structure Record.Respelled (K : Spelling) (row row' : Record) : Prop where
  entity : row.entity = row'.entity
  id : row.id = row'.id
  sorted : row.Sorted
  sorted' : row'.Sorted
  attributes : NameMap.Respelled K Value.asColumn row.attributes row'.attributes
  formatted : NameMap.Respelled K (fun _ text => text) row.formatted row'.formatted

theorem Record.Sorted.merge {row : Record} (h : row.Sorted) (j : Join) (joined : Record) :
    (j.merge row joined).Sorted := by
  rw [Join.merge_eq_extend]
  exact ⟨h.attributes.insertAll _, h.formatted.insertAll _⟩

/-! ## What a join adds -/

/-- Where a list of no columns fits, no column under the alias has a spelling. -/
theorem Spelling.Fits.free {K : Spelling} {a : String} {names : List String}
    (hfits : K.Fits a [] names) (hK : K.Recased) (ha : PointFree a) (y : String) :
    ¬ K.Left (mergedName a y) ∧ ¬ K.Right (mergedName a y) := by
  constructor
  · rintro ⟨b, n, n', hk, heq⟩
    obtain ⟨rfl, -⟩ := ha.mergedName_inj (hK.pointFree hk) heq
    exact absurd (hfits.mem hk).1 List.not_mem_nil
  · rintro ⟨b, n, n', hk, heq⟩
    obtain ⟨rfl, -⟩ := ha.mergedName_inj (hK.pointFree hk) heq
    exact absurd (hfits.mem hk).1 List.not_mem_nil

namespace Join

variable {K : Spelling} {i j : Join} {joined : Record} {names : List String}

theorem addedEntries_eq_columnsUnder {write : String → α → β} {entries : NameMap α}
    (hcolumns : i.columns = .listed names) :
    i.addedEntries write entries = NameMap.columnsUnder i.aliasName
      (fun n => (NameMap.lookup? entries n).map (write n)) names := by
  simp only [addedEntries_listed hcolumns, NameMap.columnsUnder, Option.map_map]
  rfl

/-- What alike joins add to a row is respelled as their lists of columns are. -/
theorem Alike.respelled_added (hjoins : i.Alike j) (hK : K.Recased)
    (hfits : K.Fits i.aliasName i.columns.explicit j.columns.explicit)
    (ha : PointFree i.aliasName) (hjoined : joined.Canonical) :
    NameMap.Respelled K Value.asColumn (i.addedAttributes joined).reverse
        (j.addedAttributes joined).reverse ∧
      NameMap.Respelled K (fun _ text => text) (i.addedTexts joined).reverse
        (j.addedTexts joined).reverse := by
  rcases ColumnSet.folded_cases hjoins.columns with ⟨hi, hj⟩ | ⟨names, names', hi, hj, -⟩
  · cases hjoins.eq_of_same_columns (hi.trans hj.symm)
    rw [hi] at hfits
    -- all columns are asked for, so the joins list none and no spelling changes
    constructor
    · refine .refl fun e he => ?_
      obtain ⟨y, hy⟩ := exists_mergedName (List.mem_reverse.mp he)
      rw [hy]
      exact hfits.free hK ha y
    · refine .refl fun e he => ?_
      obtain ⟨y, hy⟩ := exists_mergedName (List.mem_reverse.mp he)
      rw [hy]
      exact hfits.free hK ha y
  · rw [hi, hj] at hfits
    have hvalues := NameMap.respelled_columnsUnder Value.asColumn hfits hK ha
      (f := fun n => (joined.get? n).map fun v => (i.entity.name, v.unaliased))
      fun hn => by rw [hjoined.get?_congr hn]
    have htexts := NameMap.respelled_columnsUnder (fun _ text => text) hfits hK ha
      (f := joined.formatted?) fun hn => hjoined.formatted?_congr hn
    simp only [Option.map_map] at hvalues
    simp only [addedAttributes, addedTexts, addedEntries_eq_columnsUnder hi,
      addedEntries_eq_columnsUnder hj, ← hjoins.aliasName, ← hjoins.entity]
    exact ⟨hvalues, htexts⟩

end Join

/-! ## Rows after a join -/

namespace Record.Respelled

variable {K : Spelling} {row row' : Record}

/-- A row without columns whose spelling changes. -/
theorem refl (hsorted : row.Sorted)
    (hattributes : ∀ e ∈ row.attributes, ¬ K.Left e.1 ∧ ¬ K.Right e.1)
    (hformatted : ∀ e ∈ row.formatted, ¬ K.Left e.1 ∧ ¬ K.Right e.1) : Respelled K row row :=
  ⟨rfl, rfl, hsorted, hsorted, .refl hattributes, .refl hformatted⟩

/-- **Merging keeps rows respelled.**  Alike joins whose lists of columns fit look the columns up in
the record that they add by names that differ in letter case, so both find the same. -/
theorem merge (h : Respelled K row row') (hK : K.Recased) {i j : Join} (hjoins : i.Alike j)
    (hfits : K.Fits i.aliasName i.columns.explicit j.columns.explicit)
    (ha : PointFree i.aliasName) {joined : Record} (hjoined : joined.Canonical) :
    Respelled K (i.merge row joined) (j.merge row' joined) := by
  obtain ⟨hattributes, hformatted⟩ := hjoins.respelled_added hK hfits ha hjoined
  have hsorted := h.sorted.merge i joined
  have hsorted' := h.sorted'.merge j joined
  rw [Join.merge_eq_extend] at hsorted hsorted' ⊢
  rw [Join.merge_eq_extend]
  refine ⟨h.entity, h.id, hsorted, hsorted', ?_, ?_⟩
  · simp only [Choice.extend, List.flatMap_singleton]
    exact h.attributes.insertAll hattributes
  · simp only [Choice.extend, List.flatMap_singleton]
    exact h.formatted.insertAll hformatted

/-- Rows agree on names under which no column is spelled in two ways. -/
theorem agreeOn (h : Respelled K row row') {names : List String}
    (hnames : ∀ key ∈ names, K.Left key ∨ K.Right key → ∃ a n, K a n n ∧ key = mergedName a n) :
    row.AgreeOn names row' where
  id := h.id
  attributes key hkey := by
    by_cases hcolumn : K.Left key ∨ K.Right key
    · obtain ⟨a, n, hk, rfl⟩ := hnames key hkey hcolumn
      obtain ⟨x, hx, hx'⟩ := h.attributes.column hk
      rw [hx, hx']
    · rw [not_or] at hcolumn
      exact h.attributes.other hcolumn.1 hcolumn.2

end Record.Respelled

end RecordQuery
