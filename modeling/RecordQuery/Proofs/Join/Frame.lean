import RecordQuery.Proofs.Join.Agreement
import RecordQuery.Proofs.Join.Columns

/-!
# What joins leave alone

A join changes a row only by merging records into it, at whatever depth.  So what every merge keeps
holds of all rows that a record becomes (`expand_keeps`, `resolveFrom_keeps`), for any tree of joins
and whether or not it was planned.

Merged columns have a point in their names.  Names without one are therefore read from a joined row
as from the record itself (`resolve_agreeOn`).
-/

namespace RecordQuery

/-! ## Keeping -/

/-- A property of rows that no merge takes away. -/
def MergesKeep (P : Record → Prop) : Prop :=
  ∀ (j : Join) (row joined : Record), P row → P (j.merge row joined)

variable {P : Record → Prop}

mutual

/-- What merges keep holds of every row that a row becomes. -/
theorem expand_keeps (hP : MergesKeep P) : ∀ {t : Tree Join} {row source : Record}
    {rows : List Record}, P row → expand row source t = .ok rows → ∀ row' ∈ rows, P row'
  | .node j ts, row, source, rows, hrow, h => by
      simp only [expand] at h
      obtain ⟨found, -, h⟩ := bind_eq_ok_iff.mp h
      obtain ⟨parts, hparts, h⟩ := bind_eq_ok_iff.mp h
      cases h
      have hall : ∀ row' ∈ parts.flatten, P row' := by
        intro row' hrow'
        obtain ⟨part, hpart, hrow'⟩ := List.mem_flatten.mp hrow'
        obtain ⟨joined, -, hjoined⟩ := mem_of_mapM hparts hpart
        have hmerged : ∀ r ∈ [j.merge row joined], P r :=
          List.forall_mem_singleton.mpr (hP j row joined hrow)
        exact resolveFrom_keeps hP hmerged hjoined row' hrow'
      split
      · exact List.forall_mem_singleton.mpr hrow
      · exact hall

/-- What merges keep holds of every row that some rows become. -/
theorem resolveFrom_keeps (hP : MergesKeep P) : ∀ {ts : List (Tree Join)} {source : Record}
    {rows all : List Record}, (∀ row ∈ rows, P row) → resolveFrom source ts rows = .ok all →
      ∀ row ∈ all, P row
  | [], source, rows, all, hrows, h => by
      cases h
      exact hrows
  | t :: ts, source, rows, all, hrows, h => by
      simp only [resolveFrom] at h
      obtain ⟨parts, hparts, h⟩ := bind_eq_ok_iff.mp h
      refine resolveFrom_keeps hP (fun row hrow => ?_) h
      obtain ⟨part, hpart, hrow⟩ := List.mem_flatten.mp hrow
      obtain ⟨row', hrow', hpart'⟩ := mem_of_mapM hparts hpart
      exact expand_keeps hP (hrows row' hrow') hpart' row hrow

end

/-! ## Names without a point -/

section Names

variable {names : List String} (hnames : ∀ n ∈ names, PointFree n)

include hnames

/-- A merge changes nothing under names without a point. -/
theorem mergesKeep_agreeOn (r : Record) : MergesKeep (r.AgreeOn names) := by
  intro j row joined hrow
  refine ⟨by rw [j.id_merge, hrow.id], fun n hn => ?_⟩
  rw [j.get?_merge_of_pointFree row joined (hnames n hn), hrow.attributes n hn]

/-- All rows that a record becomes agree with it on names without a point. -/
theorem resolve_agreeOn {joins : List (Tree Join)} {r source : Record} {rows : List Record}
    (h : resolve joins r source = .ok rows) : ∀ row ∈ rows, r.AgreeOn names row :=
  resolveFrom_keeps (mergesKeep_agreeOn hnames r) (List.forall_mem_singleton.mpr (.refl names r)) h

end Names

end RecordQuery
