import RecordQuery.NameMap

/-!
# Lookups in maps from names

What a lookup finds after an insertion.  `get?_insert` holds of every list of entries, sorted or
not, because an insertion replaces the entry that a lookup would find.

*Many insertions.*  `insertAll` puts entries in one after another.  A lookup then finds the last
of them under the name, else what stood there before (`get?_insertAll`).

*Order.*  Insertions keep the order of the names (`Sorted.insert`), so each name stands once and a
lookup may start at either end (`get?_reverse`).  The entries of a map in order, put in one after
another in whatever order, are that map again (`Sorted.ofList_perm`).
-/

namespace RecordQuery

namespace NameMap

/-! ## One insertion -/

theorem get?_insert (n k : String) (a : α) (m : NameMap α) :
    get? (insert m n a) k = if n = k then some a else get? m k := by
  induction m with
  | nil => simp [insert, get?]
  | cons e m ih =>
      obtain ⟨k', b⟩ := e
      by_cases hn : n = k'
      · subst hn
        by_cases hk : n = k
        · simp [insert, get?, hk]
        · simp [insert, get?, hk]
      · by_cases hlt : n < k'
        · simp [insert, get?, hn, hlt]
        · by_cases hk : k' = k
          · subst hk
            simp [insert, get?, hn, hlt]
          · simp [insert, get?, hn, hlt, hk, ih]

/-! ## Many insertions -/

/-- Puts entries into a map one after another. -/
def insertAll (m : NameMap α) (entries : List (String × α)) : NameMap α :=
  entries.foldl (fun m e => insert m e.1 e.2) m

theorem insertAll_append (m : NameMap α) (es fs : List (String × α)) :
    insertAll m (es ++ fs) = insertAll (insertAll m es) fs :=
  List.foldl_append

theorem get?_append (k : String) (m m' : NameMap α) :
    get? (m ++ m') k = (get? m k).or (get? m' k) := by
  induction m with
  | nil => simp [get?]
  | cons e m ih =>
      obtain ⟨n, a⟩ := e
      by_cases hn : n = k
      · simp [get?, hn]
      · simpa [get?, hn] using ih

/-- The last entry under a name is found, else what stood there. -/
theorem get?_insertAll (k : String) (es : List (String × α)) (m : NameMap α) :
    get? (insertAll m es) k = (get? es.reverse k).or (get? m k) := by
  induction es generalizing m with
  | nil => simp [insertAll, get?]
  | cons e es ih =>
      obtain ⟨n, a⟩ := e
      show get? (insertAll (insert m n a) es) k = _
      rw [ih, List.reverse_cons, get?_append, Option.or_assoc, get?_insert]
      by_cases hn : n = k
      · simp [get?, hn]
      · simp [get?, hn]

/-! ## Insertions under different names -/

theorem insert_comm_of_lt {n k : String} (hlt : n < k) (a b : α) (m : NameMap α) :
    insert (insert m n a) k b = insert (insert m k b) n a := by
  have hne : n ≠ k := Std.ne_of_lt hlt
  have hback : ¬ k < n := fun h => Std.lt_irrefl (String.lt_trans h hlt)
  induction m with
  | nil => simp [insert, hne, Ne.symm hne, hlt, hback]
  | cons e m ih =>
      obtain ⟨x, c⟩ := e
      by_cases hnx : n = x
      · subst hnx
        simp [insert, Ne.symm hne, hback]
      · by_cases hltx : n < x
        · by_cases hkx : k = x
          · subst hkx
            simp [insert, hne, Ne.symm hne, hlt, hback]
          · by_cases hkltx : k < x <;>
              simp [insert, hnx, hltx, hkx, hkltx, hne, Ne.symm hne, hlt, hback]
        · have hxn : x < n := Std.lt_of_le_of_ne (Std.not_lt.mp hltx) (Ne.symm hnx)
          have hxk : x < k := String.lt_trans hxn hlt
          have hkx : k ≠ x := Ne.symm (Std.ne_of_lt hxk)
          have hkbelow : ¬ k < x := fun h => Std.lt_irrefl (String.lt_trans h hxk)
          simp [insert, hnx, hltx, hkx, hkbelow, ih]

/-- Insertions under different names can be exchanged, in sorted lists and in others: each looks
only for the first name that is not below its own. -/
theorem insert_comm {n k : String} (hne : n ≠ k) (a b : α) (m : NameMap α) :
    insert (insert m n a) k b = insert (insert m k b) n a := by
  by_cases hlt : n < k
  · exact insert_comm_of_lt hlt a b m
  · have hgt : k < n := Std.lt_of_le_of_ne (Std.not_lt.mp hlt) (Ne.symm hne)
    exact (insert_comm_of_lt hgt b a m).symm

theorem insertAll_insert {n : String} (a : α) {es : List (String × α)} (h : ∀ e ∈ es, e.1 ≠ n)
    (m : NameMap α) : insertAll (insert m n a) es = insert (insertAll m es) n a := by
  induction es generalizing m with
  | nil => rfl
  | cons e es ih =>
      obtain ⟨hfirst, hrest⟩ := List.forall_mem_cons.mp h
      change insertAll (insert (insert m n a) e.1 e.2) es =
        insert (insertAll (insert m e.1 e.2) es) n a
      rw [insert_comm (Ne.symm hfirst), ih hrest]

/-- Entries under disjoint names can be put in in either order. -/
theorem insertAll_comm {es fs : List (String × α)} (h : ∀ e ∈ es, ∀ f ∈ fs, e.1 ≠ f.1)
    (m : NameMap α) : insertAll (insertAll m es) fs = insertAll (insertAll m fs) es := by
  induction fs generalizing m with
  | nil => rfl
  | cons f fs ih =>
      have hfirst : ∀ e ∈ es, e.1 ≠ f.1 := fun e he => h e he f (.head _)
      have hrest : ∀ e ∈ es, ∀ g ∈ fs, e.1 ≠ g.1 := fun e he g hg => h e he g (.tail _ hg)
      change insertAll (insert (insertAll m es) f.1 f.2) fs =
        insertAll (insertAll (insert m f.1 f.2) fs) es
      rw [← insertAll_insert f.2 hfirst, ih hrest]

/-! ## Order -/

instance (m : NameMap α) : Decidable (Sorted m) :=
  inferInstanceAs (Decidable (m.Pairwise fun a b => a.1 < b.1))

theorem mem_insert {n : String} {a : α} {e : String × α} {m : NameMap α}
    (h : e ∈ insert m n a) : e = (n, a) ∨ e ∈ m := by
  induction m with
  | nil => exact .inl (List.mem_singleton.mp h)
  | cons old m ih =>
      simp only [insert] at h
      split at h
      next hsame =>
        rcases List.mem_cons.mp h with rfl | hrest
        · exact .inl rfl
        · exact .inr (.tail _ hrest)
      next hother =>
        split at h
        next hbefore => exact List.mem_cons.mp h
        next hbehind =>
          rcases List.mem_cons.mp h with rfl | hrest
          · exact .inr (.head _)
          · exact (ih hrest).imp id (.tail _)

/-- Insertions keep the order of the names. -/
theorem Sorted.insert {n : String} {a : α} {m : NameMap α} (h : Sorted m) :
    Sorted (insert m n a) := by
  induction m with
  | nil => exact List.pairwise_singleton ..
  | cons old m ih =>
      obtain ⟨k, b⟩ := old
      obtain ⟨hfirst, hrest⟩ := List.pairwise_cons.mp h
      simp only [NameMap.insert]
      split
      next hsame =>
        subst hsame
        exact .cons hfirst hrest
      next hother =>
        split
        next hbefore =>
          refine .cons (fun e he => ?_) (.cons hfirst hrest)
          rcases List.mem_cons.mp he with rfl | he
          · exact hbefore
          · exact String.lt_trans hbefore (hfirst e he)
        next hbehind =>
          have hlt : k < n := Std.lt_of_le_of_ne (Std.not_lt.mp hbehind) (Ne.symm hother)
          refine .cons (fun e he => ?_) (ih hrest)
          rcases mem_insert he with rfl | he
          · exact hlt
          · exact hfirst e he

theorem Sorted.insertNew {m : NameMap α} (h : Sorted m) (n : String) (a : α) :
    Sorted (insertNew m n a) := by
  unfold NameMap.insertNew
  split
  · exact h
  · exact h.insert

theorem mem_insertNew {m : NameMap α} {n : String} {a : α} {e : String × α}
    (h : e ∈ insertNew m n a) : e = (n, a) ∨ e ∈ m := by
  unfold NameMap.insertNew at h
  split at h
  · exact .inr h
  · exact mem_insert h

/-- Many insertions keep the order of the names. -/
theorem Sorted.insertAll (es : List (String × α)) {m : NameMap α} (h : Sorted m) :
    Sorted (insertAll m es) := by
  induction es generalizing m with
  | nil => exact h
  | cons e es ih => exact ih h.insert

theorem erase_sublist (n : String) (m : NameMap α) : (erase m n).Sublist m := by
  induction m with
  | nil => exact .slnil
  | cons e m ih =>
      rw [NameMap.erase]
      split
      · exact List.sublist_cons_self ..
      · exact ih.cons_cons _

theorem Sorted.erase {m : NameMap α} (h : Sorted m) (n : String) : Sorted (erase m n) :=
  h.sublist (erase_sublist n m)

theorem mem_of_get? {k : String} {a : α} {m : NameMap α} (h : get? m k = some a) :
    (k, a) ∈ m := by
  induction m with
  | nil => cases h
  | cons e m ih =>
      obtain ⟨n, b⟩ := e
      by_cases hn : n = k
      · subst hn
        simp only [get?, if_true, Option.some.injEq] at h
        subst h
        exact .head _
      · simp only [get?, hn, if_false] at h
        exact .tail _ (ih h)

theorem get?_eq_none_iff {k : String} {m : NameMap α} :
    get? m k = none ↔ ∀ e ∈ m, e.1 ≠ k := by
  induction m with
  | nil => simp [get?]
  | cons e m ih =>
      obtain ⟨n, a⟩ := e
      by_cases hn : n = k
      · simp [get?, hn]
      · simp [get?, hn, ih]

/-- Where all entries under a name agree, each is what a lookup under the name finds. -/
theorem get?_eq_some_iff_of_agree {k : String} {a : α} {m : NameMap α}
    (h : ∀ b c, (k, b) ∈ m → (k, c) ∈ m → b = c) : get? m k = some a ↔ (k, a) ∈ m := by
  refine ⟨mem_of_get?, fun hmem => ?_⟩
  cases hfound : get? m k with
  | none => exact absurd rfl (get?_eq_none_iff.mp hfound _ hmem)
  | some b => rw [h b a (mem_of_get? hfound) hmem]

/-- Where each name stands once, an entry is what a lookup under its name finds. -/
theorem get?_eq_some_iff_mem {k : String} {a : α} {m : NameMap α}
    (h : m.Pairwise fun e f => e.1 ≠ f.1) : get? m k = some a ↔ (k, a) ∈ m := by
  induction m with
  | nil => simp [get?]
  | cons e m ih =>
      obtain ⟨n, b⟩ := e
      obtain ⟨hfirst, hrest⟩ := List.pairwise_cons.mp h
      by_cases hn : n = k
      · subst hn
        have hother : (n, a) ∉ m := fun hmem => hfirst _ hmem rfl
        simp [get?, hother, eq_comm]
      · simp [get?, hn, Ne.symm hn, ih hrest]

theorem Sorted.names_ne {m : NameMap α} (h : Sorted m) : m.Pairwise fun e f => e.1 ≠ f.1 :=
  h.imp fun hlt => Std.ne_of_lt hlt

/-- In a map in order, an entry is what a lookup under its name finds. -/
theorem Sorted.get?_eq_some_iff {m : NameMap α} (h : Sorted m) {k : String} {a : α} :
    get? m k = some a ↔ (k, a) ∈ m :=
  get?_eq_some_iff_mem h.names_ne

/-- Where each name stands once, a lookup may start at either end. -/
theorem get?_reverse {m : NameMap α} (h : m.Pairwise fun e f => e.1 ≠ f.1) (k : String) :
    get? m.reverse k = get? m k := by
  have hreverse : m.reverse.Pairwise fun e f => e.1 ≠ f.1 :=
    List.pairwise_reverse.mpr (h.imp Ne.symm)
  refine Option.ext fun a => ?_
  rw [get?_eq_some_iff_mem hreverse, get?_eq_some_iff_mem h, List.mem_reverse]

/-- Maps in order with the same entries are the same. -/
theorem Sorted.eq_of_perm {m m' : NameMap α} (h : Sorted m) (h' : Sorted m')
    (hperm : List.Perm m m') : m = m' := by
  refine hperm.eq_of_pairwise (fun a b _ _ hab hba => ?_) h h'
  exact absurd (String.lt_trans hab hba) (Std.lt_irrefl)

/-- Where each name stands once, no entry stands twice. -/
theorem nodup_of_names_ne {m : NameMap α} (h : m.Pairwise fun e f => e.1 ≠ f.1) : m.Nodup :=
  h.imp fun hne heq => hne (congrArg Prod.fst heq)

/-- Maps in order in which all lookups find the same are the same. -/
theorem Sorted.ext {m m' : NameMap α} (h : Sorted m) (h' : Sorted m')
    (hget : ∀ k, get? m k = get? m' k) : m = m' := by
  have hmem : ∀ e, e ∈ m ↔ e ∈ m' := by
    rintro ⟨k, a⟩
    rw [← h.get?_eq_some_iff, hget, h'.get?_eq_some_iff]
  exact h.eq_of_perm h' ((List.perm_ext_iff_of_nodup (nodup_of_names_ne h.names_ne)
    (nodup_of_names_ne h'.names_ne)).mpr hmem)

/-- Keeping some entries, changed under their names, keeps the order of the names. -/
theorem Sorted.filterMap {m : NameMap α} (h : Sorted m) (f : String → α → Option β) :
    Sorted (m.filterMap fun e => (f e.1 e.2).map (e.1, ·)) := by
  refine List.Pairwise.filterMap _ (fun e e' hlt b hb b' hb' => ?_) h
  obtain ⟨c, -, rfl⟩ := Option.map_eq_some_iff.mp hb
  obtain ⟨c', -, rfl⟩ := Option.map_eq_some_iff.mp hb'
  exact hlt

/-- A lookup among entries that are kept and changed finds the entry changed, if it is kept. -/
theorem get?_filterMap {m : NameMap α} (h : m.Pairwise fun e f => e.1 ≠ f.1)
    (f : String → α → Option β) (k : String) :
    get? (m.filterMap fun e => (f e.1 e.2).map (e.1, ·)) k = (get? m k).bind (f k) := by
  induction m with
  | nil => rfl
  | cons e m ih =>
      obtain ⟨n, a⟩ := e
      obtain ⟨hfirst, hrest⟩ := List.pairwise_cons.mp h
      by_cases hn : n = k
      · subst hn
        have hnone : get? m n = none := get?_eq_none_iff.mpr fun e he => (hfirst e he).symm
        cases hkept : f n a with
        | none => simp [hkept, ih hrest, hnone, get?]
        | some b => simp [hkept, get?]
      · cases hkept : f n a with
        | none => simp [hkept, ih hrest, get?, hn]
        | some b => simp [hkept, ih hrest, get?, hn]

/-! ## Lists in order -/

theorem insert_of_forall_lt {n : String} {a : α} {m : NameMap α} (h : ∀ e ∈ m, e.1 < n) :
    insert m n a = m ++ [(n, a)] := by
  induction m with
  | nil => rfl
  | cons e m ih =>
      obtain ⟨k, b⟩ := e
      obtain ⟨hfirst, hrest⟩ := List.forall_mem_cons.mp h
      rw [insert, if_neg (Ne.symm (Std.ne_of_lt hfirst)),
        if_neg (Std.not_lt.mpr (Std.le_of_lt hfirst)), ih hrest, List.cons_append]

theorem insertAll_of_sorted {m es : NameMap α} (h : Sorted (m ++ es)) :
    insertAll m es = m ++ es := by
  induction es generalizing m with
  | nil => rw [List.append_nil]; rfl
  | cons e es ih =>
      obtain ⟨n, a⟩ := e
      have hbefore : ∀ e ∈ m, e.1 < n := fun e he =>
        (List.pairwise_append.mp h).2.2 e he (n, a) (.head _)
      show insertAll (insert m n a) es = _
      rw [List.append_cons] at h ⊢
      rw [insert_of_forall_lt hbefore]
      exact ih h

/-- A list in order is the map of its entries. -/
theorem Sorted.ofList_eq {m : NameMap α} (h : Sorted m) : ofList m = m :=
  insertAll_of_sorted (m := []) h

/-- Entries under different names are the entries of their map. -/
theorem ofList_perm {es : List (String × α)} (h : es.Pairwise fun e f => e.1 ≠ f.1) :
    List.Perm (ofList es) es := by
  have hsorted : Sorted (ofList es) := Sorted.insertAll es .nil
  refine (List.perm_ext_iff_of_nodup (nodup_of_names_ne hsorted.names_ne)
    (nodup_of_names_ne h)).mpr fun ⟨k, a⟩ => ?_
  have hlast : get? (ofList es) k = get? es k := by
    rw [← get?_reverse h]
    exact (get?_insertAll k es []).trans Option.or_none
  rw [← hsorted.get?_eq_some_iff, hlast, get?_eq_some_iff_mem h]

/-- The entries of a map in any order make up the map. -/
theorem Sorted.ofList_perm {m es : NameMap α} (h : Sorted m) (hes : es.Perm m) : ofList es = m := by
  have hnames : es.Pairwise fun e f => e.1 ≠ f.1 :=
    (hes.pairwise_iff fun hne => Ne.symm hne).mpr h.names_ne
  have hsorted : Sorted (ofList es) := Sorted.insertAll es .nil
  exact hsorted.eq_of_perm h ((NameMap.ofList_perm hnames).trans hes)

theorem Sorted.map_snd {m : NameMap α} (h : Sorted m) (f : α → β) :
    Sorted (m.map fun e => (e.1, f e.2)) :=
  List.pairwise_map.mpr h

/-! ## Names -/

theorem mem_names_iff {k : String} {m : NameMap α} : k ∈ names m ↔ ∃ a, (k, a) ∈ m := by
  simp [names]

theorem contains_eq_false_iff {k : String} {m : NameMap α} :
    contains m k = false ↔ get? m k = none := by
  simp [contains]

theorem contains_iff {k : String} {m : NameMap α} : contains m k = true ↔ k ∈ names m := by
  constructor
  · intro h
    obtain ⟨a, ha⟩ := Option.isSome_iff_exists.mp h
    exact mem_names_iff.mpr ⟨a, mem_of_get? ha⟩
  · intro h
    obtain ⟨a, ha⟩ := mem_names_iff.mp h
    refine Bool.of_not_eq_false fun hnone => ?_
    exact get?_eq_none_iff.mp (contains_eq_false_iff.mp hnone) _ ha rfl

theorem contains_insert (m : NameMap α) (n k : String) (a : α) :
    contains (insert m n a) k = true ↔ n = k ∨ contains m k = true := by
  rw [contains, get?_insert]
  by_cases hn : n = k <;> simp [hn, contains]

theorem contains_insertNew (m : NameMap α) (n k : String) (a : α) :
    contains (insertNew m n a) k = true ↔ n = k ∨ contains m k = true := by
  unfold insertNew
  split
  next hold =>
    refine ⟨.inr, ?_⟩
    rintro (rfl | h)
    · exact hold
    · exact h
  next hnew => exact contains_insert m n k a

theorem get?_insertNew (n k : String) (a : α) (m : NameMap α) :
    get? (insertNew m n a) k = (get? m k).or (if n = k then some a else none) := by
  unfold insertNew
  split
  next hold =>
    obtain ⟨b, hb⟩ := Option.isSome_iff_exists.mp hold
    by_cases hk : n = k
    · rw [← hk, hb]
      rfl
    · simp [hk]
  next hnew =>
    have hnone : get? m n = none := contains_eq_false_iff.mp (Bool.eq_false_iff.mpr hnew)
    rw [get?_insert]
    by_cases hk : n = k
    · rw [← hk, hnone]
      simp
    · simp [hk]

/-- Renaming entries by an injective function renames lookups. -/
theorem get?_map {f : String → String} (hf : ∀ n k, f n = f k → n = k) (g : String → α → β)
    (k : String) (m : NameMap α) :
    get? (m.map fun e => (f e.1, g e.1 e.2)) (f k) = (get? m k).map (g k) := by
  induction m with
  | nil => rfl
  | cons e m ih =>
      obtain ⟨n, a⟩ := e
      by_cases hn : n = k
      · simp [get?, hn]
      · have hne : f n ≠ f k := fun h => hn (hf n k h)
        simpa [get?, hn, hne] using ih

end NameMap

end RecordQuery
