import Mathlib.Data.List.Nodup
import RecordQuery.Store

/-!
# Tables and their index

A table holds its records twice: in their order, and as positions under their identifiers.  The
two agree when the index knows exactly the identifiers of the rows, each with its position
(`Table.Indexed`).  Then no identifier stands twice, and a lookup through the index finds what a
search of the rows finds.

Every operation keeps the agreement.  To the rows alone an insertion is a replacement in place or
an addition at the end (`rows_insert`), and a removal is a filter (`rows_erase`).
-/

namespace RecordQuery

/-! ## Places of lists -/

theorem map_getElem?_concat {f : α → β} {l : List α} {a : α} {b : β} {i : Nat} :
    (l ++ [a])[i]?.map f = some b ↔ l[i]?.map f = some b ∨ i = l.length ∧ f a = b := by
  rcases Nat.lt_trichotomy i l.length with hlt | rfl | hgt
  · rw [List.getElem?_append_left hlt]
    simp [Nat.ne_of_lt hlt]
  · simp
  · have hlength : (l ++ [a]).length ≤ i := by
      rw [List.length_append, List.length_singleton]
      omega
    rw [List.getElem?_eq_none hlength, List.getElem?_eq_none (Nat.le_of_lt hgt)]
    simp [Nat.ne_of_gt hgt]

/-- Where a test fails at one place only, keeping what passes drops that place. -/
theorem eraseIdx_eq_filter {p : α → Bool} {l : List α} {i : Nat}
    (h : ∀ j a, l[j]? = some a → (p a = false ↔ j = i)) : l.eraseIdx i = l.filter p := by
  induction l generalizing i with
  | nil => rfl
  | cons a l ih =>
      have hfirst := h 0 a rfl
      cases i with
      | zero =>
          have hrest : ∀ b ∈ l, p b = true := by
            intro b hb
            obtain ⟨j, hj⟩ := List.mem_iff_getElem?.mp hb
            have hpass := h (j + 1) b hj
            simpa using hpass
          rw [List.eraseIdx_cons_zero, List.filter_cons_of_neg (by simp [hfirst.mpr rfl]),
            List.filter_eq_self.mpr hrest]
      | succ i =>
          have hpass : p a = true := by simpa using hfirst
          rw [List.eraseIdx_cons_succ, List.filter_cons_of_pos hpass]
          refine congrArg (a :: ·) (ih fun j b hj => ?_)
          rw [h (j + 1) b hj, Nat.add_right_cancel_iff]

namespace Table

/-! ## The index -/

/-- The index knows exactly the identifiers of the rows, each with its position. -/
def Indexed (t : Table) : Prop :=
  ∀ id i, t.position? id = some i ↔ t.rows.toList[i]?.map (·.id) = some id

variable {t : Table} {id : RecordId} {r : Record} {i : Nat}

theorem position?_empty (id : RecordId) : empty.position? id = none :=
  Std.HashMap.getElem?_empty

theorem find?_empty (id : RecordId) : empty.find? id = none := by
  rw [find?, position?_empty]
  rfl

theorem indexed_empty : empty.Indexed := by
  intro id i
  rw [position?_empty]
  simp [empty]

namespace Indexed

/-- An identifier has a position where a record of it stands. -/
theorem exists_row (h : t.Indexed) (hi : t.position? id = some i) :
    ∃ r, t.rows.toList[i]? = some r ∧ r.id = id :=
  Option.map_eq_some_iff.mp ((h id i).mp hi)

theorem position_eq (h : t.Indexed) (hi : t.rows.toList[i]? = some r) :
    t.position? r.id = some i :=
  (h r.id i).mpr (by rw [hi]; rfl)

/-- Only one place has an identifier. -/
theorem id_eq_iff (h : t.Indexed) (hposition : t.position? id = some i) {j : Nat}
    (hj : t.rows.toList[j]? = some r) : r.id = id ↔ j = i := by
  constructor
  · rintro rfl
    rw [h.position_eq hj] at hposition
    exact Option.some.inj hposition
  · rintro rfl
    obtain ⟨s, hs, rfl⟩ := h.exists_row hposition
    rw [hj] at hs
    rw [Option.some.inj hs]

/-- Where an identifier has no position no row has it. -/
theorem id_ne (h : t.Indexed) (hnone : t.position? id = none) (hr : r ∈ t.rows.toList) :
    r.id ≠ id := by
  rintro rfl
  obtain ⟨i, hi⟩ := List.mem_iff_getElem?.mp hr
  rw [h.position_eq hi] at hnone
  cases hnone

/-- No identifier stands twice. -/
theorem nodup (h : t.Indexed) : (t.rows.toList.map (·.id)).Nodup := by
  refine List.nodup_iff_getElem?_ne_getElem?.mpr fun i j hij hj heq => ?_
  rw [List.length_map] at hj
  rw [List.getElem?_map, List.getElem?_map, List.getElem?_eq_getElem hj,
    List.getElem?_eq_getElem (Nat.lt_trans hij hj), Option.map_some, Option.map_some] at heq
  have hi := h.position_eq (List.getElem?_eq_getElem (Nat.lt_trans hij hj))
  rw [Option.some.inj heq, h.position_eq (List.getElem?_eq_getElem hj)] at hi
  exact Nat.ne_of_gt hij (Option.some.inj hi)

/-- The index leads to the record that a search of the rows finds. -/
theorem find?_eq (h : t.Indexed) (id : RecordId) :
    t.find? id = t.rows.toList.find? (·.id = id) := by
  cases hposition : t.position? id with
  | none =>
      have hsearch : t.rows.toList.find? (·.id = id) = none :=
        List.find?_eq_none.mpr fun r hr => by simpa using h.id_ne hposition hr
      rw [hsearch, find?, hposition]
      rfl
  | some i =>
      obtain ⟨r, hr, hid⟩ := h.exists_row hposition
      obtain ⟨hi, hrow⟩ := List.getElem?_eq_some_iff.mp hr
      have hsearch : t.rows.toList.find? (·.id = id) = some r := by
        refine List.find?_eq_some_iff_getElem.mpr ⟨by simpa using hid, i, hi, hrow, fun j hj => ?_⟩
        have hplace := h.id_eq_iff hposition (List.getElem?_eq_getElem (Nat.lt_trans hj hi))
        simpa using mt hplace.mp (Nat.ne_of_lt hj)
      rw [hsearch, find?, hposition, ← hr]
      exact Array.getElem?_toList.symm

end Indexed

/-! ## Insertions -/

theorem insert_of_none (h : t.position? r.id = none) :
    t.insert r = (none, ⟨t.rows.push r, t.positions.insert r.id t.rows.size⟩) := by
  rw [insert, h]

theorem insert_of_some (h : t.position? r.id = some i) :
    t.insert r = (t.rows[i]?, { t with rows := t.rows.setIfInBounds i r }) := by
  rw [insert, h]

/-- An insertion gives back the record that it replaces. -/
theorem insert_fst (t : Table) (r : Record) : (t.insert r).1 = t.find? r.id := by
  cases hposition : t.position? r.id with
  | none => rw [insert_of_none hposition, find?, hposition]; rfl
  | some i => rw [insert_of_some hposition, find?, hposition]; rfl

/-- Records with one more in the place of that with its identifier, else behind all others. -/
def upserted (rs : List Record) (r : Record) : List Record :=
  if rs.any (·.id = r.id) then rs.map fun s => if s.id = r.id then r else s else rs ++ [r]

theorem mem_upserted {rs : List Record} {s : Record} :
    s ∈ upserted rs r ↔ s = r ∨ s ∈ rs ∧ s.id ≠ r.id := by
  unfold upserted
  split
  next hthere =>
    obtain ⟨old, hold, hid⟩ := List.any_eq_true.mp hthere
    rw [List.mem_map]
    constructor
    · rintro ⟨s', hs', rfl⟩
      split
      next hsame => exact .inl rfl
      next hother => exact .inr ⟨hs', hother⟩
    · rintro (rfl | ⟨hs, hother⟩)
      · exact ⟨old, hold, if_pos (of_decide_eq_true hid)⟩
      · exact ⟨s, hs, if_neg hother⟩
  next hnew =>
    have hother : ∀ s ∈ rs, s.id ≠ r.id := by simpa using hnew
    rw [List.mem_append, List.mem_singleton, or_comm]
    exact or_congr_right ⟨fun hs => ⟨hs, hother s hs⟩, And.left⟩

/-- An insertion keeps the order of the identifiers. -/
theorem ids_upserted (rs : List Record) (r : Record) :
    (upserted rs r).map (·.id) =
      if r.id ∈ rs.map (·.id) then rs.map (·.id) else rs.map (·.id) ++ [r.id] := by
  have hthere : rs.any (·.id = r.id) = true ↔ r.id ∈ rs.map (·.id) := by simp
  by_cases hid : r.id ∈ rs.map (·.id)
  · rw [upserted, if_pos (hthere.mpr hid), if_pos hid, List.map_map]
    refine List.map_congr_left fun s hs => ?_
    rw [Function.comp_apply]
    split
    next hsame => exact hsame.symm
    next hother => rfl
  · rw [upserted, if_neg (mt hthere.mp hid), if_neg hid, List.map_append]
    rfl

theorem rows_insert (h : t.Indexed) (r : Record) :
    (t.insert r).2.rows.toList = upserted t.rows.toList r := by
  cases hposition : t.position? r.id with
  | none =>
      have hnew : t.rows.toList.any (·.id = r.id) = false :=
        List.any_eq_false.mpr fun s hs => by simpa using h.id_ne hposition hs
      rw [insert_of_none hposition, upserted, hnew, Array.toList_push]
      rfl
  | some i =>
      obtain ⟨old, hold, hid⟩ := h.exists_row hposition
      have hthere : t.rows.toList.any (·.id = r.id) = true :=
        List.any_eq_true.mpr ⟨old, List.mem_of_getElem? hold, by simpa using hid⟩
      rw [insert_of_some hposition, upserted, hthere, if_pos rfl, Array.toList_setIfInBounds]
      refine List.ext_getElem? fun j => ?_
      rw [List.getElem?_map, List.getElem?_set]
      cases hj : t.rows.toList[j]? with
      | none =>
          have hlength := List.getElem?_eq_none_iff.mp hj
          split
          next hij => rw [if_neg (by omega)]; rfl
          next => rfl
      | some s =>
          have hlength := (List.getElem?_eq_some_iff.mp hj).1
          have hplace := h.id_eq_iff hposition hj
          by_cases hij : i = j
          · rw [if_pos hij, if_pos (by omega), Option.map_some, if_pos (hplace.mpr hij.symm)]
          · rw [if_neg hij, Option.map_some, if_neg (mt hplace.mp (Ne.symm hij))]

theorem Indexed.insert (h : t.Indexed) (r : Record) : (t.insert r).2.Indexed := by
  intro id i
  cases hposition : t.position? r.id with
  | none =>
      have hindex : (t.insert r).2.position? id =
          if r.id = id then some t.rows.size else t.position? id := by
        rw [insert_of_none hposition]
        simp [position?, Std.HashMap.getElem?_insert]
      rw [hindex, insert_of_none hposition, Array.toList_push, map_getElem?_concat, ← h id i,
        Array.length_toList]
      by_cases hid : r.id = id
      · subst hid
        simp [hposition, eq_comm]
      · simp [hid]
  | some p =>
      obtain ⟨old, hold, hid⟩ := h.exists_row hposition
      have hp : p < t.rows.toList.length := (List.getElem?_eq_some_iff.mp hold).1
      rw [insert_of_some hposition, Array.toList_setIfInBounds, List.getElem?_set]
      show t.position? id = some i ↔ _
      rw [h id i]
      by_cases hpi : p = i
      · subst hpi
        rw [if_pos rfl, if_pos hp, hold, Option.map_some, Option.map_some, hid]
      · rw [if_neg hpi]

/-! ## Removals -/

theorem erase_of_none (h : t.position? id = none) : t.erase id = (none, t) := by
  rw [erase, h]

theorem erase_empty (id : RecordId) : empty.erase id = (none, empty) :=
  erase_of_none (position?_empty id)

theorem erase_of_some (h : t.position? id = some i) :
    t.erase id = (t.rows[i]?, ⟨t.rows.eraseIdxIfInBounds i,
      (t.positions.erase id).map fun _ j => if i < j then j - 1 else j⟩) := by
  rw [erase, h]

/-- A removal gives back the record that it takes away. -/
theorem erase_fst (t : Table) (id : RecordId) : (t.erase id).1 = t.find? id := by
  cases hposition : t.position? id with
  | none => rw [erase_of_none hposition, find?, hposition]; rfl
  | some i => rw [erase_of_some hposition, find?, hposition]; rfl

theorem rows_erase (h : t.Indexed) (id : RecordId) :
    (t.erase id).2.rows.toList = t.rows.toList.filter (·.id ≠ id) := by
  cases hposition : t.position? id with
  | none =>
      have hall : ∀ r ∈ t.rows.toList, decide (r.id ≠ id) = true := fun r hr =>
        decide_eq_true (h.id_ne hposition hr)
      rw [erase_of_none hposition, List.filter_eq_self.mpr hall]
  | some i =>
      rw [erase_of_some hposition, Array.toList_eraseIdxIfInBounds]
      refine eraseIdx_eq_filter fun j r hj => ?_
      rw [decide_eq_false_iff_not, not_not, h.id_eq_iff hposition hj]

/-- The rows behind the one that is taken away stand one place before. -/
theorem position?_erase (h : t.position? id = some i) (k : RecordId) :
    (t.erase id).2.position? k =
      if id = k then none else (t.position? k).map fun j => if i < j then j - 1 else j := by
  rw [erase_of_some h]
  by_cases hk : id = k
  · simp [position?, hk]
  · simp [position?, Std.HashMap.getElem?_erase, hk]

theorem Indexed.erase (h : t.Indexed) (id : RecordId) : (t.erase id).2.Indexed := by
  intro k j
  cases hposition : t.position? id with
  | none =>
      rw [erase_of_none hposition]
      exact h k j
  | some i =>
      rw [position?_erase hposition, erase_of_some hposition, Array.toList_eraseIdxIfInBounds,
        List.getElem?_eraseIdx]
      -- the row at a place stood there before, or one place behind
      have hplace :
          (if j < i then t.rows.toList[j]? else t.rows.toList[j + 1]?).map (·.id) = some k ↔
            t.position? k = some (if j < i then j else j + 1) := by
        split
        · exact (h k j).symm
        · exact (h k (j + 1)).symm
      rw [hplace]
      by_cases hk : id = k
      · subst hk
        rw [if_pos rfl, hposition, Option.some.injEq]
        split
        · simp only [reduceCtorEq, false_iff]
          omega
        · simp only [reduceCtorEq, false_iff]
          omega
      · rw [if_neg hk]
        cases hother : t.position? k with
        | none => simp
        | some p =>
            have hpi : p ≠ i := by
              rintro rfl
              obtain ⟨r, hr, rfl⟩ := h.exists_row hother
              exact hk ((h.id_eq_iff hposition hr).mpr rfl).symm
            rw [Option.map_some, Option.some.injEq, Option.some.injEq]
            split
            · split
              · omega
              · omega
            · split
              · omega
              · omega

end Table

end RecordQuery
