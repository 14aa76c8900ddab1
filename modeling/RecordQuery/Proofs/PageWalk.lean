import Mathlib.Algebra.Group.Nat.Defs
import RecordQuery.Proofs.Cookie
import RecordQuery.Proofs.Windowing

/-!
# Walking through the pages

A caller who asks for the first page and then for the page behind each result sees all rows of the
whole result, each once and in order, and comes to an end (`Database.exists_walk`).

A step of the walk shows its page and asks for the one behind (`Database.execute_withPage`).  The
token that it hands back is readable, and page numbers do not run over, since there are fewer rows
than page numbers; so the next request is granted too (`PageRequest.granted_after`).  The walk is
followed by induction on the rows that are left.

A query that ends after a number of rows has no pages: it is refused.
-/

namespace RecordQuery

/-! ## Walks -/

/-- The query for one page. -/
def Query.withPage (q : Query) (r : PageRequest) : Query := { q with page := some r }

/-- The results that a caller sees who sends a request and goes on with the request for the page
behind, until there is none. -/
inductive Database.Walk (db : Database) (ctx : Context) (q : Query) :
    PageRequest → List ResultSet → Prop where
  | last {r : PageRequest} {result : ResultSet} :
      db.execute ctx (q.withPage r) = .ok result → r.next? result = none →
      Walk db ctx q r [result]
  | more {r r' : PageRequest} {result : ResultSet} {results : List ResultSet} :
      db.execute ctx (q.withPage r) = .ok result → r.next? result = some r' →
      Walk db ctx q r' results → Walk db ctx q r (result :: results)

/-- The number of pages that some rows fill; without rows there is an empty page. -/
def pageCount (rows count : Nat) : Nat := max 1 ((rows + count - 1) / count)

theorem pageCount_of_le {rows count : Nat} (hcount : 0 < count) (h : rows ≤ count) :
    pageCount rows count = 1 := by
  have hpages : (rows + count - 1) / count ≤ 1 := by
    rw [Nat.div_le_iff_le_mul_add_pred hcount]
    omega
  exact Nat.max_eq_left hpages

theorem pageCount_of_lt {rows count : Nat} (hcount : 0 < count) (h : count < rows) :
    pageCount rows count = pageCount (rows - count) count + 1 := by
  have hpages : (rows + count - 1) / count = (rows - count + count - 1) / count + 1 := by
    rw [← Nat.add_div_right _ hcount]
    congr 1
    omega
  have hsome : 1 ≤ (rows - count + count - 1) / count := by
    rw [Nat.le_div_iff_mul_le hcount]
    omega
  rw [pageCount, pageCount, hpages]
  omega

/-! ## Steps -/

namespace PageRequest

/-- The request for the page behind some rows. -/
def after (r : PageRequest) (rows : List Record) : PageRequest :=
  ⟨r.number + 1, r.count, some (Cookie.ofRows r.number (r.rowsOf rows)).encode⟩

variable {r : PageRequest} {rows : List Record}

theorem toNat_number_succ (hcount : 1 ≤ r.count) (hfew : rows.length < 2 ^ 32)
    (hmore : r.number.toNat * r.count.toNat < rows.length) :
    (r.number + 1).toNat = r.number.toNat + 1 := by
  have hpages : r.number.toNat ≤ r.number.toNat * r.count.toNat :=
    Nat.le_mul_of_pos_right _ (UInt32.le_iff_toNat_le.mp hcount)
  rw [UInt32.toNat_add]
  exact Nat.mod_eq_of_lt (show r.number.toNat + 1 < 2 ^ 32 by omega)

theorem granted_after (hr : r.Granted) (hfew : rows.length < 2 ^ 32)
    (hmore : r.number.toNat * r.count.toNat < rows.length) : (r.after rows).Granted where
  number := by
    rw [UInt32.le_iff_toNat_le]
    show 1 ≤ (r.number + 1).toNat
    rw [toNat_number_succ hr.count hfew hmore]
    exact Nat.le_add_left _ _
  count := hr.count
  cookie := by
    rintro _ ⟨⟩
    exact ⟨_, Cookie.decode_encode _⟩

theorem offset_after (hr : r.Granted) (hfew : rows.length < 2 ^ 32)
    (hmore : r.number.toNat * r.count.toNat < rows.length) :
    (r.after rows).offset = r.offset + r.count.toNat := by
  have hnumber : 1 ≤ r.number.toNat := UInt32.le_iff_toNat_le.mp hr.number
  show ((r.number + 1).toNat - 1) * r.count.toNat = (r.number.toNat - 1) * r.count.toNat + _
  rw [toNat_number_succ hr.count hfew hmore, ← Nat.succ_mul]
  congr 1
  omega

end PageRequest

/-! ## Whole walks -/

namespace Database

section

variable {db : Database} {ctx : Context} {q : Query}

/-- A request has one walk at most. -/
theorem Walk.unique {r : PageRequest} {results others : List ResultSet}
    (h : db.Walk ctx q r results) (hothers : db.Walk ctx q r others) : others = results := by
  induction h generalizing others with
  | last hresult hnext =>
      cases hothers with
      | last hresult' _ =>
          cases hresult.symm.trans hresult'
          rfl
      | more hresult' hnext' _ =>
          cases hresult.symm.trans hresult'
          cases hnext.symm.trans hnext'
  | more hresult hnext _ ih =>
      cases hothers with
      | last hresult' hnext' =>
          cases hresult.symm.trans hresult'
          cases hnext.symm.trans hnext'
      | more hresult' hnext' hwalk =>
          cases hresult.symm.trans hresult'
          cases hnext.symm.trans hnext'
          rw [ih hwalk]

theorem execute_withPage (htop : q.top = none) (hpage : q.page = none) {whole : ResultSet}
    (h : db.execute ctx q = .ok whole) {r : PageRequest} (hr : r.Granted) :
    ∃ result, db.execute ctx (q.withPage r) = .ok result ∧
      result.rows = r.rowsOf whole.rows ∧
      r.next? result = if r.number.toNat * r.count.toNat < whole.rows.length
        then some (r.after whole.rows) else none := by
  have hquery : q.withPage r = q.withWindow none (some r) := by
    rw [Query.withWindow, ← htop]
    rfl
  have hresult := execute_page htop hpage h hr
  rw [← hquery] at hresult
  refine ⟨_, hresult, rfl, ?_⟩
  simp only [PageRequest.next?, decide_eq_true_eq]
  rfl

/-- From a granted request on, a walk sees the rows that stand behind the pages before. -/
theorem exists_walk_from (htop : q.top = none) (hpage : q.page = none) {whole : ResultSet}
    (h : db.execute ctx q = .ok whole) (hfew : whole.rows.length < 2 ^ 32) {r : PageRequest}
    (hr : r.Granted) :
    ∃ results, db.Walk ctx q r results ∧
      results.flatMap (·.rows) = whole.rows.drop r.offset ∧
      results.length = pageCount (whole.rows.drop r.offset).length r.count.toNat := by
  have hcount : 0 < r.count.toNat := UInt32.le_iff_toNat_le.mp hr.count
  obtain ⟨result, hresult, hrows, hnext⟩ := execute_withPage htop hpage h hr
  have hleft := PageRequest.lt_length_drop_iff hr.number whole.rows
  by_cases hmore : r.number.toNat * r.count.toNat < whole.rows.length
  · have hoffset := PageRequest.offset_after hr hfew hmore
    obtain ⟨results, hwalk, hrest, hpages⟩ :=
      exists_walk_from htop hpage h hfew (PageRequest.granted_after hr hfew hmore)
    rw [if_pos hmore] at hnext
    have hdrop : whole.rows.drop (r.after whole.rows).offset =
        (whole.rows.drop r.offset).drop r.count.toNat := by
      rw [hoffset, List.drop_drop]
    rw [hdrop] at hrest hpages
    refine ⟨result :: results, .more hresult hnext hwalk, ?_, ?_⟩
    · rw [List.flatMap_cons, hrows, hrest]
      exact List.take_append_drop _ _
    · rw [List.length_cons, hpages, List.length_drop,
        pageCount_of_lt hcount (hleft.mpr hmore)]
      rfl
  · rw [if_neg hmore] at hnext
    have hlast : (whole.rows.drop r.offset).length ≤ r.count.toNat := by
      rw [← hleft] at hmore
      exact Nat.le_of_not_lt hmore
    refine ⟨[result], .last hresult hnext, ?_, (pageCount_of_le hcount hlast).symm⟩
    rw [List.flatMap_cons, List.flatMap_nil, List.append_nil, hrows]
    exact List.take_of_length_le hlast
termination_by whole.rows.length - r.offset
decreasing_by
  rw [List.length_drop] at hleft
  omega

/-- **Walking through the pages shows every row once and ends.**  Where a query that asks for no
window succeeds, so does every request of the walk from the first page of some size; its pages are
the rows of the query in order, and there are as many of them as these rows fill. -/
theorem exists_walk (htop : q.top = none) (hpage : q.page = none) {whole : ResultSet}
    (h : db.execute ctx q = .ok whole) (hfew : whole.rows.length < 2 ^ 32) {count : UInt32}
    (hcount : 1 ≤ count) :
    ∃ results, db.Walk ctx q ⟨1, count, none⟩ results ∧
      (∀ others, db.Walk ctx q ⟨1, count, none⟩ others → others = results) ∧
      results.flatMap (·.rows) = whole.rows ∧
      results.length = max 1 ((whole.rows.length + count.toNat - 1) / count.toNat) := by
  have hfirst : PageRequest.Granted ⟨1, count, none⟩ :=
    PageRequest.granted_of_no_cookie (by decide) hcount
  have hoffset : PageRequest.offset ⟨1, count, none⟩ = 0 := Nat.zero_mul _
  obtain ⟨results, hwalk, hrows, hlength⟩ := exists_walk_from htop hpage h hfew hfirst
  rw [hoffset] at hrows hlength
  exact ⟨results, hwalk, fun _ => hwalk.unique, hrows, hlength⟩

/-! ## Queries that end after some rows -/

/-- A query that ends after a number of rows has no pages. -/
theorem execute_withPage_top (htop : q.top.isSome = true) (r : PageRequest) :
    db.execute ctx (q.withPage r) = .error (.malformed .topWithPaging) := by
  have hinvalid : (q.withPage r).validate ctx = .error (.malformed .topWithPaging) := by
    simp [Query.validate, Query.withPage, htop]
  rw [execute, hinvalid, error_bind]

theorem not_walk_of_top (htop : q.top.isSome = true) (r : PageRequest) (results : List ResultSet) :
    ¬ db.Walk ctx q r results := by
  intro hwalk
  have hrefused : ∀ result, db.execute ctx (q.withPage r) ≠ .ok result := by
    intro result h
    rw [execute_withPage_top htop] at h
    cases h
  cases hwalk with
  | last h _ => exact hrefused _ h
  | more h _ _ => exact hrefused _ h

end

end Database

namespace Sample

/-- In pages of two, the three contacts are seen on two. -/
theorem contacts_walk : ∃ whole results, db.execute ctx contacts = .ok whole ∧
    whole.rows.length = 3 ∧ db.Walk ctx contacts ⟨1, 2, none⟩ results ∧
      results.flatMap (·.rows) = whole.rows ∧ results.length = 2 := by
  obtain ⟨whole, hwhole, hthree⟩ := exists_eq_ok_of_map
    (x := db.execute ctx contacts) (f := (·.rows.length)) (b := 3) (by decide +kernel)
  have hfew : whole.rows.length < 2 ^ 32 := by
    rw [hthree]
    decide
  obtain ⟨results, hwalk, -, hrows, hlength⟩ :=
    Database.exists_walk rfl rfl hwhole hfew (show (1 : UInt32) ≤ 2 by decide)
  rw [hthree] at hlength
  exact ⟨whole, results, hwhole, hthree, hwalk, hrows, hlength⟩

/-- The first contact only. -/
def firstContact : Query := { contacts with top := some 1 }

/-- The query for the first contact succeeds and has no pages. -/
theorem firstContact_no_walk : ∃ whole, db.execute ctx firstContact = .ok whole ∧
    whole.rows.length = 1 ∧ ∀ results, ¬ db.Walk ctx firstContact ⟨1, 1, none⟩ results := by
  obtain ⟨whole, hwhole, hone⟩ := exists_eq_ok_of_map
    (x := db.execute ctx firstContact) (f := (·.rows.length)) (b := 1) (by decide +kernel)
  exact ⟨whole, hwhole, hone, Database.not_walk_of_top rfl ⟨1, 1, none⟩⟩

end Sample

end RecordQuery
