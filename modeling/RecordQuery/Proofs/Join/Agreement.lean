import RecordQuery.Proofs.Join.Related

/-!
# Rows that agree

Two rows agree on some names when they have one identifier and hold the same values under these
names, whatever else they hold.  Joins that put the same values under the names (`Join.Agrees`) keep
rows in agreement.
-/

namespace RecordQuery

open Text

/-! ## Agreement -/

/-- Two rows are of one record and hold the same values under some names. -/
structure Record.AgreeOn (names : List String) (row row' : Record) : Prop where
  id : row.id = row'.id
  attributes : ∀ n ∈ names, NameMap.get? row.attributes n = NameMap.get? row'.attributes n

namespace Record.AgreeOn

variable {names : List String} {row row' : Record}

theorem refl (names : List String) (row : Record) : AgreeOn names row row := ⟨rfl, fun _ _ => rfl⟩

/-- The lookup of an attribute tries its name and then its lower case. -/
theorem get?_eq (h : AgreeOn names row row') {column : String} (hcolumn : column ∈ names)
    (hlower : lowercase column ∈ names) : row.get? column = row'.get? column := by
  simp only [Record.get?, NameMap.lookup?, h.attributes column hcolumn,
    h.attributes (lowercase column) hlower]

end Record.AgreeOn

/-- Two joins find the same records and keep rows in agreement. -/
structure Join.Agrees (names : List String) (i j : Join) : Prop where
  matchesOf : ∀ source, i.matchesOf source = j.matchesOf source
  kind : i.kind = j.kind
  merge : ∀ {source : Record} {found : List Record}, i.matchesOf source = .ok found →
    ∀ joined ∈ found, ∀ {row row' : Record}, row.AgreeOn names row' →
      (i.merge row joined).AgreeOn names (j.merge row' joined)

theorem Join.Agrees.keeps {names : List String} {i j : Join} (h : i.Agrees names j) :
    i.Keeps (Record.AgreeOn names) j :=
  ⟨h.matchesOf, h.kind, h.merge⟩

end RecordQuery
