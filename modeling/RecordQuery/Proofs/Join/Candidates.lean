import RecordQuery.Proofs.Failure
import RecordQuery.Query.Join

/-!
# Finding matches

An index and a search find the same records in the same order.

*Building.*  The index is a map from join keys to records.  It is built from the right, so the
records under a key stand in the order of the table (`JoinIndex.getD_ofKeyed`).

*Finding.*  A search reads the keys of all records once more for every row and keeps the records
with the key in question.  An index answers from its map.  `Candidates.withKey_prepare` says that
both are the search, as far as the records could be made ready at all: a record whose key cannot
be read lets an index fail already when it is built.
-/

namespace RecordQuery

namespace JoinIndex

/-- The records under a key are those with that key, in their order. -/
theorem getD_ofKeyed (k : Key) (rs : List (Option Key × Record)) :
    (ofKeyed rs).getD k [] = (rs.filter (·.1 = some k)).map (·.2) := by
  induction rs with
  | nil => simp [ofKeyed]
  | cons keyed rs ih =>
      obtain ⟨key, r⟩ := keyed
      cases key with
      | none => simpa [ofKeyed] using ih
      | some k' =>
          simp only [ofKeyed, List.foldr_cons] at ih ⊢
          rw [Std.HashMap.getD_insert]
          by_cases hk : k' = k
          · subst hk
            simp [ih]
          · simp [hk, ih]

end JoinIndex

/-- More rows never lead from an index back to a search. -/
theorem JoinStrategy.select_mono {m n records : Nat} (hle : m ≤ n)
    (h : select m records = .hashJoin) : select n records = .hashJoin := by
  unfold select at h ⊢
  split at h
  next hmany => rw [if_pos (by omega)]
  next => cases h

namespace Candidates

/-- However records were made ready, those with a key are found as by a search. -/
theorem withKey_prepare {strategy : JoinStrategy} {name : String} {rs : List Record}
    {c : Candidates} (h : prepare strategy name rs = .ok c) (k : Key) :
    c.withKey name k = (searched rs).withKey name k := by
  cases strategy with
  | nestedLoop =>
      cases h
      rfl
  | hashJoin =>
      obtain ⟨keyed, hkeyed, hc⟩ := bind_eq_ok_iff.mp h
      cases hc
      simp only [withKey, hkeyed, ok_bind, pure_eq_ok, JoinIndex.getD_ofKeyed]

/-- An index can be built if the keys of all records can be read. -/
theorem exists_prepare_hashJoin_iff {name : String} {rs : List Record} :
    (∃ c, prepare .hashJoin name rs = .ok c) ↔ ∀ r ∈ rs, ∃ key, joinKey? name r = .ok key := by
  have hall : (∀ r ∈ rs, ∃ key, joinKey? name r = .ok key) ↔
      ∃ keyed, rs.mapM (fun r => (joinKey? name r).map (·, r)) = .ok keyed := by
    rw [exists_mapM_eq_ok_iff]
    refine forall₂_congr fun r _ => ?_
    cases joinKey? name r <;> simp [Except.map]
  rw [hall]
  constructor
  · rintro ⟨c, hc⟩
    obtain ⟨keyed, hkeyed, -⟩ := bind_eq_ok_iff.mp hc
    exact ⟨keyed, hkeyed⟩
  · rintro ⟨keyed, hkeyed⟩
    exact ⟨_, bind_eq_ok_iff.mpr ⟨keyed, hkeyed, rfl⟩⟩

/-- A search finds the records with the key, where all keys can be read. -/
theorem withKey_searched {name : String} {rs : List Record} (k : Key)
    (h : ∀ r ∈ rs, ∃ key, joinKey? name r = .ok key) :
    (searched rs).withKey name k =
      .ok (rs.filter fun r => (joinKey? name r).toOption.any (· = some k)) := by
  have hall : ∀ r ∈ rs, ∃ p, (joinKey? name r).map (·, r) = .ok p := by
    intro r hr
    obtain ⟨key, hkey⟩ := h r hr
    exact ⟨(key, r), by rw [hkey, ok_map]⟩
  obtain ⟨keyed, hkeyed⟩ := exists_mapM_eq_ok_iff.mpr hall
  have hkept := kept_eq_filter (fun r key => (key, r)) (·.2) (fun e => e.1 = some k) (fun _ _ => rfl)
    hkeyed
  simp only [withKey, hkeyed, ok_bind, pure_eq_ok, hkept]

/-- A search that ends has read all keys. -/
theorem joinKey?_of_withKey {name : String} {rs : List Record} {k : Key} {found : List Record}
    (h : (searched rs).withKey name k = .ok found) :
    ∀ r ∈ rs, ∃ key, joinKey? name r = .ok key := by
  intro r hr
  obtain ⟨keyed, hkeyed, -⟩ := bind_eq_ok_iff.mp h
  obtain ⟨p, hp⟩ := exists_mapM_eq_ok_iff.mp ⟨keyed, hkeyed⟩ r hr
  obtain ⟨key, hkey, -⟩ := map_eq_ok_iff.mp hp
  exact ⟨key, hkey⟩

end Candidates

end RecordQuery
