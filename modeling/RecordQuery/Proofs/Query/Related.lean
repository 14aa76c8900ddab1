import RecordQuery.Execute
import RecordQuery.Proofs.Join.Related

/-!
# Running queries on related rows

Two compiled queries keep a relation of rows when their joins do, and when related rows pass the
same tests and have the same keys (`CompiledQuery.Keeps`).  They then run together: both fail, or
their rows are related one by one (`CompiledQuery.Keeps.run_together`).  Neither the sorting nor
the search for repeated rows nor the window asks more of a row than the relation tells.
-/

namespace RecordQuery

/-! ## Sorting -/

section Sorting

variable {R : α → β → Prop} {before : α → α → Bool} {before' : β → β → Bool}
  (hbefore : ∀ a b a' b', R a a' → R b b' → before a b = before' a' b')

include hbefore

theorem insertBehind_rel {a : α} {a' : β} (ha : R a a') {as : List α} {bs : List β}
    (h : List.Forall₂ R as bs) :
    List.Forall₂ R (insertBehind before a as) (insertBehind before' a' bs) := by
  induction h with
  | nil => exact .cons ha .nil
  | cons hb hrest ih =>
      rw [insertBehind, insertBehind, hbefore _ _ _ _ ha hb]
      split
      · exact .cons hb ih
      · exact .cons ha (.cons hb hrest)

/-- Lists whose elements are related, and compare alike, are sorted to lists that are related. -/
theorem stableSort_rel {as : List α} {bs : List β} (h : List.Forall₂ R as bs) :
    List.Forall₂ R (stableSort before as) (stableSort before' bs) := by
  refine List.rel_reverse (List.rel_foldl (fun _ _ hsorted _ _ ha => ?_) .nil h)
  exact insertBehind_rel hbefore ha hsorted

end Sorting

section Rows

variable {R : Record → Record → Prop} {ctx : Context}

/-- Related rows with the same keys are sorted together. -/
theorem CompiledOrder.sortRows_together {os : List CompiledOrder}
    (hkeys : ∀ {row row' : Record}, R row row' → keysOf os row = keysOf os row')
    {rows rows' : List Record} (hrows : List.Forall₂ R rows rows') :
    Together (List.Forall₂ R) (sortRows os ctx rows) (sortRows os ctx rows') := by
  have hpairs : Together (List.Forall₂ fun p p' : List (Option Key) × Record =>
      p.1 = p'.1 ∧ R p.2 p'.2) (rows.mapM fun row => (keysOf os row).map (·, row))
      (rows'.mapM fun row => (keysOf os row).map (·, row)) :=
    .mapM hrows fun row row' hrow =>
      (Together.of_eq (hkeys hrow)).map fun _ _ hsame => ⟨hsame, hrow⟩
  refine hpairs.bind fun keyed keyed' hkeyed => .ok ?_
  refine List.rel_map (fun _ _ hpair => hpair.2) (stableSort_rel ?_ hkeyed)
  intro a b a' b' ha hb
  rw [ha.1, hb.1]

/-- Related rows with the same tests are filtered together. -/
theorem Filter.kept_together {f : Filter CompiledCondition}
    (htest : ∀ {row row' : Record}, R row row' →
      SameValue (f.evaluate ctx row) (f.evaluate ctx row'))
    {rows rows' : List Record} (hrows : List.Forall₂ R rows rows') :
    Together (fun kept kept' => List.Forall₂ R ((kept.filter (·.2)).map (·.1))
        ((kept'.filter (·.2)).map (·.1)))
      (rows.mapM fun row => (f.evaluate ctx row).map (row, ·))
      (rows'.mapM fun row => (f.evaluate ctx row).map (row, ·)) := by
  have hpairs : Together (List.Forall₂ fun p p' : Record × Bool => R p.1 p'.1 ∧ p.2 = p'.2)
      (rows.mapM fun row => (f.evaluate ctx row).map (row, ·))
      (rows'.mapM fun row => (f.evaluate ctx row).map (row, ·)) :=
    .mapM hrows fun row row' hrow =>
      (Together.of_sameValue (htest hrow)).map fun _ _ hsame => ⟨hrow, hsame⟩
  refine hpairs.mono fun kept kept' hkept => ?_
  refine List.rel_map (fun _ _ hpair => hpair.1) (List.rel_filter ?_ hkept)
  rintro ⟨row, b⟩ ⟨row', b'⟩ ⟨-, rfl⟩
  exact Iff.rfl

/-! ## Runs -/

/-- Two compiled queries differ in joins that keep rows in a relation and in their projections.
Related rows pass the same tests, if rows are tested, and have the same keys. -/
structure CompiledQuery.Keeps (ctx : Context) (R : Record → Record → Prop) (c c' : CompiledQuery) :
    Prop where
  joins : Tree.ForestRel (Join.Keeps R) c.joins c'.joins
  criteria : c.criteria = c'.criteria
  filtersJoined : c.filtersJoined = c'.filtersJoined
  orders : c.orders = c'.orders
  tests : c.filtersJoined = true → ∀ {row row' : Record}, R row row' →
    SameValue (c.criteria.evaluate ctx row) (c.criteria.evaluate ctx row')
  keys : ∀ {row row' : Record}, R row row' →
    CompiledOrder.keysOf c.orders row = CompiledOrder.keysOf c.orders row'

namespace CompiledQuery.Keeps

variable {c c' : CompiledQuery} (h : Keeps ctx R c c')

include h

/-- A record that is related to itself becomes rows that are related one by one. -/
theorem rowsOf_together {r : Record} (hr : R r r) :
    Together (List.Forall₂ R) (c.rowsOf ctx r) (c'.rowsOf ctx r) := by
  have hresolved : Together (List.Forall₂ R) (resolve c.joins r r) (resolve c'.joins r r) :=
    resolveFrom_together h.joins r (.cons hr .nil)
  rw [rowsOf, rowsOf, ← h.filtersJoined, ← h.criteria]
  cases hfilters : c.filtersJoined with
  | true =>
      refine hresolved.bind fun rows rows' hrows => ?_
      exact (Filter.kept_together (h.tests hfilters) hrows).bind fun _ _ hkept => .ok hkept
  | false =>
      refine (Together.refl (fun _ => rfl) (c.criteria.evaluate ctx r)).bind ?_
      rintro passed _ rfl
      cases passed with
      | true => exact hresolved
      | false => exact .ok .nil

/-- **Running goes together** where the projections, too, relate what they make of related rows. -/
theorem run_together {S : Record → Record → Prop} {records : List Record}
    (hrecords : ∀ r ∈ records, R r r)
    (hproject : ∀ {row row' : Record}, R row row' →
      S (c.projector.project row) (c'.projector.project row')) :
    Together (List.Forall₂ S) (c.run ctx records) (c'.run ctx records) := by
  have hparts : Together (List.Forall₂ (List.Forall₂ R)) (records.mapM (c.rowsOf ctx))
      (records.mapM (c'.rowsOf ctx)) := .mapM_same fun r hr => h.rowsOf_together (hrecords r hr)
  rw [run, run, ← h.orders]
  refine hparts.bind fun parts parts' hrows => ?_
  refine (CompiledOrder.sortRows_together h.keys (List.rel_flatten hrows)).bind ?_
  refine fun sorted sorted' hsorted => .ok ?_
  rw [List.forall₂_map_left_iff, List.forall₂_map_right_iff]
  exact hsorted.imp fun _ _ => hproject

end CompiledQuery.Keeps

/-! ## Repeated rows -/

theorem firstByKey_rel [BEq κ] [LawfulBEq κ] {R : α → β → Prop} {key : α → κ} {key' : β → κ}
    (hkeys : ∀ a b a' b', R a a' → R b b' → (key a = key b ↔ key' a' = key' b'))
    {seen : List α} {seen' : List β} (hseen : List.Forall₂ R seen seen') {as : List α}
    {bs : List β} (h : List.Forall₂ R as bs) :
    List.Forall₂ R (firstByKey key (seen.map key) as) (firstByKey key' (seen'.map key') bs) := by
  induction h generalizing seen seen' with
  | nil => exact .nil
  | @cons a b as bs hab hrest ih =>
      have hfound : (seen.map key).contains (key a) = (seen'.map key').contains (key' b) := by
        rw [Bool.eq_iff_iff, List.contains_iff_mem, List.contains_iff_mem]
        clear ih hrest
        induction hseen with
        | nil => simp
        | @cons c d _ _ hcd _ ih =>
            rw [List.map_cons, List.map_cons, List.mem_cons, List.mem_cons, ih,
              hkeys a c b d hab hcd]
      rw [firstByKey, firstByKey, hfound]
      split
      · exact ih hseen
      · exact .cons hab (ih (.cons hab hseen))

/-! ## Windows -/

/-- Two results of the same records in the same order, their rows related one by one. -/
structure ResultSet.Related (R : Record → Record → Prop) (result result' : ResultSet) : Prop where
  entity : result.entity = result'.entity
  rows : List.Forall₂ R result.rows result'.rows
  more : result.more = result'.more
  cookie : result.cookie = result'.cookie
  total : result.total = result'.total

variable (hid : ∀ {row row' : Record}, R row row' → row.id = row'.id)

include hid

theorem Cookie.ofRows_rel {rows rows' : List Record} (h : List.Forall₂ R rows rows')
    (page : UInt32) : ofRows page rows = ofRows page rows' := by
  have hids : rows.map (·.id) = rows'.map (·.id) := by
    induction h with
    | nil => rfl
    | cons hfirst _ ih => rw [List.map_cons, List.map_cons, hid hfirst, ih]
  rw [ofRows, ofRows, ← List.head?_map, ← List.getLast?_map, hids, List.head?_map,
    List.getLast?_map]

theorem PageRequest.cut_together (r : PageRequest) {rows rows' : List Record}
    (h : List.Forall₂ R rows rows') :
    Together (fun p p' => List.Forall₂ R p.rows p'.rows ∧ p.more = p'.more ∧ p.cookie = p'.cookie)
      (r.cut rows) (r.cut rows') := by
  have hrest := List.forall₂_drop r.offset h
  have honPage := List.forall₂_take r.count.toNat hrest
  refine (Together.refl (fun _ => rfl) r.validate).bind fun _ _ _ => .ok ⟨honPage, ?_, ?_⟩
  · rw [hrest.length_eq]
  · rw [Cookie.ofRows_rel hid honPage]

/-- Windows of related rows are cut together. -/
theorem Query.window_together {q q' : Query} (htop : q.top = q'.top) (hpage : q.page = q'.page)
    (htotal : q.countTotal = q'.countTotal) (entity : String) {rows rows' : List Record}
    (h : List.Forall₂ R rows rows') :
    Together (ResultSet.Related R) (q.window entity rows) (q'.window entity rows') := by
  have hlength := h.length_eq
  rw [window, window, ← htop, ← hpage, ← htotal, hlength]
  cases q.top with
  | some n => exact .ok ⟨rfl, List.forall₂_take n.toNat h, rfl, rfl, rfl⟩
  | none =>
      cases q.page with
      | none => exact .ok ⟨rfl, h, rfl, rfl, rfl⟩
      | some request =>
          refine (request.cut_together hid h).bind ?_
          rintro ⟨onPage, more, cookie⟩ ⟨onPage', _, _⟩ ⟨hrows, rfl, rfl⟩
          exact .ok ⟨rfl, hrows, rfl, rfl, rfl⟩

end Rows

end RecordQuery
