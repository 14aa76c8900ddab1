import RecordQuery.Proofs.Join.Planned
import RecordQuery.Proofs.Together

/-!
# Joining related rows

Two joins keep a relation of rows when they find the same records and merging one of them takes
related rows to related rows (`Join.Keeps`).  Expanding then goes together: both expansions fail, or
they give rows that are related one by one (`expand_together`, `resolveFrom_together`).  What is
found does not depend on the row, so failures need no relation at all.
-/

namespace RecordQuery

/-- Two joins find the same records and keep rows in a relation. -/
structure Join.Keeps (R : Record → Record → Prop) (i j : Join) : Prop where
  matchesOf : ∀ source, i.matchesOf source = j.matchesOf source
  kind : i.kind = j.kind
  merge : ∀ {source : Record} {found : List Record}, i.matchesOf source = .ok found →
    ∀ joined ∈ found, ∀ {row row' : Record}, R row row' →
      R (i.merge row joined) (j.merge row' joined)

variable {R : Record → Record → Prop}

mutual

/-- Related rows become rows that are related one by one. -/
theorem expand_together : ∀ {t u : Tree Join}, Tree.Rel (Join.Keeps R) t u →
    ∀ {row row' : Record} (source : Record), R row row' →
      Together (List.Forall₂ R) (expand row source t) (expand row' source u)
  | .node i ts, .node j us, .node hjoin hbelow, row, row', source, hrow => by
      rw [expand, expand, ← hjoin.matchesOf]
      cases hfound : i.matchesOf source with
      | error failure => exact .error _ _
      | ok found =>
          have heach : Together (List.Forall₂ (List.Forall₂ R))
              (found.mapM fun joined => resolveFrom joined ts [i.merge row joined])
              (found.mapM fun joined => resolveFrom joined us [j.merge row' joined]) :=
            .mapM_same fun joined hjoined => resolveFrom_together hbelow joined
              (.cons (hjoin.merge hfound joined hjoined hrow) .nil)
          refine heach.bind fun parts parts' hparts => .ok ?_
          have hall : List.Forall₂ R parts.flatten parts'.flatten := List.rel_flatten hparts
          have hempty : parts.flatten.isEmpty = parts'.flatten.isEmpty := by
            rw [Bool.eq_iff_iff, List.isEmpty_iff_length_eq_zero, List.isEmpty_iff_length_eq_zero,
              hall.length_eq]
          simp only [hempty, hjoin.kind]
          split
          · exact .cons hrow .nil
          · exact hall

/-- Rows that are related one by one become rows that are related one by one. -/
theorem resolveFrom_together : ∀ {ts us : List (Tree Join)},
    Tree.ForestRel (Join.Keeps R) ts us → ∀ {rows rows' : List Record} (source : Record),
      List.Forall₂ R rows rows' →
        Together (List.Forall₂ R) (resolveFrom source ts rows) (resolveFrom source us rows')
  | [], [], .nil, rows, rows', source, hrows => .ok hrows
  | t :: ts, u :: us, .cons htree hforest, rows, rows', source, hrows => by
      rw [resolveFrom, resolveFrom]
      refine (Together.mapM hrows fun _ _ hrow => expand_together htree source hrow).bind ?_
      exact fun _ _ hparts => resolveFrom_together hforest source (List.rel_flatten hparts)

end

end RecordQuery
