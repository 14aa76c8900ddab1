import RecordQuery.Proofs.Execution
import RecordQuery.Proofs.Sample

/-!
# Windowing

A query may ask for the first rows of its result or for one page of it.  Neither changes what the
rest of the query does: a windowed query is the whole query followed by its window
(`Database.execute_withWindow`).  So it fails where the whole query fails, and its rows are cut out
of the whole result (`Database.execute_windowed`).

The number of all rows is counted before anything is cut.
-/

namespace RecordQuery

/-! ## Pages -/

namespace PageRequest

/-- The rows of a page, the first page being 1. -/
def rowsOf (r : PageRequest) (rows : List Record) : List Record :=
  (rows.drop r.offset).take r.count.toNat

/-- Rows are left behind a page exactly when there are more than on all pages up to it. -/
theorem lt_length_drop_iff {r : PageRequest} (hnumber : 1 ≤ r.number) (rows : List Record) :
    r.count.toNat < (rows.drop r.offset).length ↔
      r.number.toNat * r.count.toNat < rows.length := by
  have hpage : 1 ≤ r.number.toNat := UInt32.le_iff_toNat_le.mp hnumber
  have hpages : r.number.toNat * r.count.toNat = r.offset + r.count.toNat := by
    calc r.number.toNat * r.count.toNat
        = (r.number.toNat - 1 + 1) * r.count.toNat := by rw [Nat.sub_add_cancel hpage]
      _ = r.offset + r.count.toNat := Nat.succ_mul _ _
  rw [List.length_drop, hpages]
  omega

/-- The request is for some rows of some page, and what cookie it hands back is readable. -/
structure Granted (r : PageRequest) : Prop where
  number : 1 ≤ r.number
  count : 1 ≤ r.count
  cookie : ∀ token, r.cookie = some token → ∃ c, Cookie.decode token = .ok c

theorem granted_of_no_cookie {p c : UInt32} (hnumber : 1 ≤ p) (hcount : 1 ≤ c) :
    Granted ⟨p, c, none⟩ :=
  ⟨hnumber, hcount, fun _ h => nomatch h⟩

theorem validate_eq_ok {r : PageRequest} (h : r.Granted) : r.validate = .ok () := by
  have hsome : ¬ (r.number = 0 ∨ r.count = 0) := by
    rintro (hzero | hzero)
    · exact absurd (hzero ▸ h.number) (by decide)
    · exact absurd (hzero ▸ h.count) (by decide)
  cases hcookie : r.cookie with
  | none => simp [validate, hsome, hcookie]
  | some token =>
      obtain ⟨c, hread⟩ := h.cookie token hcookie
      simp [validate, hsome, hcookie, hread]

theorem cut_eq_ok {r : PageRequest} (h : r.Granted) (rows : List Record) :
    r.cut rows = .ok ⟨r.rowsOf rows, decide (r.number.toNat * r.count.toNat < rows.length),
      (Cookie.ofRows r.number (r.rowsOf rows)).encode⟩ := by
  simp only [cut, validate_eq_ok h, ok_bind, pure_eq_ok, lt_length_drop_iff h.number rows]
  rfl

end PageRequest

/-! ## Windows -/

namespace Query

variable {q : Query}

/-- The query with a number of rows after which its result ends, or with a page. -/
def withWindow (q : Query) (top : Option UInt32) (page : Option PageRequest) : Query :=
  { q with top := top, page := page }

/-- A query that asks for one window at most is checked like the query without a window. -/
theorem validate_withWindow (htop : q.top = none) {top : Option UInt32}
    {page : Option PageRequest} (hone : top = none ∨ page = none) (ctx : Context) :
    (q.withWindow top page).validate ctx = q.validate ctx := by
  have hboth : (top.isSome && page.isSome) = false := by
    rcases hone with rfl | rfl
    · rfl
    · exact Bool.and_false _
  simp [validate, withWindow, htop, hboth]

/-- The rows that are in the window of a query. -/
def inWindow (q : Query) (rows : List α) : List α :=
  match q.top, q.page with
  | some n, _ => rows.take n.toNat
  | none, some r => (rows.drop r.offset).take r.count.toNat
  | none, none => rows

theorem inWindow_sublist (q : Query) (rows : List α) : (q.inWindow rows).Sublist rows := by
  unfold inWindow
  split
  · exact List.take_sublist ..
  · exact (List.take_sublist ..).trans (List.drop_sublist ..)
  · exact .refl rows

theorem map_inWindow (q : Query) (f : α → β) (rows : List α) :
    (q.inWindow rows).map f = q.inWindow (rows.map f) := by
  unfold inWindow
  split
  · rw [List.map_take]
  · rw [List.map_take, List.map_drop]
  · rfl

/-- A window only chooses among the rows. -/
theorem rows_of_window {entity : String} {rows : List Record} {result : ResultSet}
    (h : q.window entity rows = .ok result) : result.rows = q.inWindow rows := by
  unfold window at h
  unfold inWindow
  cases htop : q.top with
  | some n =>
      rw [htop] at h
      cases h
      rfl
  | none =>
      cases hpage : q.page with
      | none =>
          rw [htop, hpage] at h
          cases h
          rfl
      | some r =>
          rw [htop, hpage] at h
          obtain ⟨page, hcut, h⟩ := bind_eq_ok_iff.mp h
          obtain ⟨-, -, hcut⟩ := bind_eq_ok_iff.mp hcut
          cases hcut
          cases h
          rfl

/-- Without a window all rows are returned. -/
theorem window_whole (htop : q.top = none) (hpage : q.page = none) (entity : String)
    (rows : List Record) : q.window entity rows =
      .ok ⟨entity, rows, false, none, if q.countTotal then some rows.length else none⟩ := by
  simp [window, htop, hpage]

end Query

/-! ## Execution -/

namespace Database

variable {db : Database} {ctx : Context} {q : Query}

/-- Every returned row is one of the run. -/
theorem mem_run_of_execute {result : ResultSet} (h : db.execute ctx q = .ok result) :
    ∃ e c rows, db.schema.find q.entity = .ok e ∧
      db.compile ctx q e (db.store.snapshot e).length = .ok c ∧
      c.run ctx (db.store.snapshot e) = .ok rows ∧ ∀ row ∈ result.rows, row ∈ rows := by
  obtain ⟨-, e, c, rows, he, hc, hrun, hwindow⟩ := execute_eq_ok h
  refine ⟨e, c, rows, he, hc, hrun, fun row hrow => ?_⟩
  rw [Query.rows_of_window hwindow] at hrow
  have hrow := (Query.inWindow_sublist _ _).subset hrow
  split at hrow
  · exact (firstByKey_sublist _ _ _).subset hrow
  · exact hrow

/-- Without a window and with repeated rows a query returns what its run gives. -/
theorem execute_whole_eq_ok (hdistinct : q.distinct = false) (htop : q.top = none)
    (hpage : q.page = none) {result : ResultSet} (h : db.execute ctx q = .ok result) :
    ∃ e c, db.schema.find q.entity = .ok e ∧
      db.compile ctx q e (db.store.snapshot e).length = .ok c ∧
      c.run ctx (db.store.snapshot e) = .ok result.rows := by
  obtain ⟨-, e, c, rows, he, hc, hrun, hwindow⟩ := execute_eq_ok h
  rw [hdistinct, Query.window_whole htop hpage] at hwindow
  cases hwindow
  exact ⟨e, c, he, hc, hrun⟩

/-- A windowed query is the whole query followed by its window. -/
theorem execute_withWindow (htop : q.top = none) (hpage : q.page = none) {top : Option UInt32}
    {page : Option PageRequest} (hone : top = none ∨ page = none) :
    db.execute ctx (q.withWindow top page) =
      db.execute ctx q >>= fun result =>
        (q.withWindow top page).window result.entity result.rows := by
  have hvalid := Query.validate_withWindow htop hone ctx
  have hwhole := Query.window_whole htop hpage
  simp only [execute, hvalid, hwhole]
  -- The phases before the window read neither kind of window.
  cases q.validate ctx with
  | error failure => rfl
  | ok _ =>
      show (db.schema.find q.entity >>= fun e => db.allRows ctx q e >>= _) = _
      cases db.schema.find q.entity with
      | error failure => rfl
      | ok e =>
          show (db.allRows ctx q e >>= _) = (db.allRows ctx q e >>= _) >>= _
          cases db.allRows ctx q e with
          | error failure => rfl
          | ok rows => rfl

/-- A result without a window counts its own rows. -/
theorem total_eq (htop : q.top = none) (hpage : q.page = none) {result : ResultSet}
    (h : db.execute ctx q = .ok result) :
    result.total = if q.countTotal then some result.rows.length else none := by
  obtain ⟨-, e, c, rows, -, -, -, hwindow⟩ := execute_eq_ok h
  rw [Query.window_whole htop hpage] at hwindow
  cases hwindow
  rfl

/-- A granted page is cut out of the whole result. -/
theorem execute_page (htop : q.top = none) (hpage : q.page = none) {result : ResultSet}
    (h : db.execute ctx q = .ok result) {r : PageRequest} (hr : r.Granted) :
    db.execute ctx (q.withWindow none (some r)) =
      .ok ⟨result.entity, r.rowsOf result.rows,
        decide (r.number.toNat * r.count.toNat < result.rows.length),
        some (Cookie.ofRows r.number (r.rowsOf result.rows)).encode, result.total⟩ := by
  have htotal := total_eq htop hpage h
  rw [execute_withWindow htop hpage (.inl rfl), h, htotal]
  simp only [ok_bind, Query.window, Query.withWindow, PageRequest.cut_eq_ok hr, pure_eq_ok]
  rfl

/-- **Windowing only cuts the result.**  Where a query without a window succeeds, the first `n` rows
and every page are cut out of its rows, with the same number of all rows; where it fails, so does
every window of it, for the same reason. -/
theorem execute_windowed (htop : q.top = none) (hpage : q.page = none) :
    (∀ result, db.execute ctx q = .ok result →
      result.total = (if q.countTotal then some result.rows.length else none) ∧
      (∀ n : UInt32, db.execute ctx (q.withWindow (some n) none) =
        .ok ⟨result.entity, result.rows.take n.toNat, false, none, result.total⟩) ∧
      ∀ p c : UInt32, 1 ≤ p → 1 ≤ c →
        ∃ cookie, db.execute ctx (q.withWindow none (some ⟨p, c, none⟩)) =
          .ok ⟨result.entity, (result.rows.drop ((p.toNat - 1) * c.toNat)).take c.toNat,
            decide (p.toNat * c.toNat < result.rows.length), some cookie, result.total⟩) ∧
    ∀ failure, db.execute ctx q = .error failure →
      (∀ n : UInt32, db.execute ctx (q.withWindow (some n) none) = .error failure) ∧
      ∀ request : PageRequest, db.execute ctx (q.withWindow none (some request)) =
        .error failure := by
  constructor
  · intro result h
    have htotal := total_eq htop hpage h
    refine ⟨htotal, fun n => ?_, fun p c hp hc => ?_⟩
    · rw [execute_withWindow htop hpage (.inr rfl), h, htotal]
      rfl
    · exact ⟨_, execute_page htop hpage h (PageRequest.granted_of_no_cookie hp hc)⟩
  · intro failure h
    constructor
    · intro n
      rw [execute_withWindow htop hpage (.inr rfl), h, error_bind]
    · intro request
      rw [execute_withWindow htop hpage (.inl rfl), h, error_bind]

end Database

namespace Sample

/-- All contacts, counted. -/
def contacts : Query := { Query.new "contact" with countTotal := true }

/-- The second page of two contacts holds the last of the three, and counts all of them. -/
theorem contacts_windowed : ∃ result cookie,
    db.execute ctx contacts = .ok result ∧ result.rows.length = 3 ∧
      db.execute ctx (contacts.withWindow none (some ⟨2, 2, none⟩)) =
        .ok ⟨result.entity, (result.rows.drop 2).take 2, false, some cookie, some 3⟩ := by
  obtain ⟨result, hresult, hthree⟩ := exists_eq_ok_of_map
    (x := db.execute ctx contacts) (f := (·.rows.length)) (b := 3) (by decide +kernel)
  obtain ⟨hwhole, -⟩ := @Database.execute_windowed db ctx contacts rfl rfl
  obtain ⟨htotal, -, hpages⟩ := hwhole result hresult
  obtain ⟨cookie, hpage⟩ := hpages 2 2 (by decide) (by decide)
  rw [hthree] at htotal hpage
  rw [htotal] at hpage
  exact ⟨result, cookie, hresult, hthree, hpage⟩

end Sample

end RecordQuery
