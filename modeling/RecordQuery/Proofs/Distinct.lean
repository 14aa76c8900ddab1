import RecordQuery.Proofs.Execution
import RecordQuery.Proofs.Sample
import RecordQuery.Proofs.Wire.SameText

/-!
# Repeated rows

Rows are told apart by their JSON text.  So the rows that are dropped are those that an earlier row
is written like (`distinctRows_eq`): what the text does not show is not told apart, such as two
doubles without a finite value, and what the text shows beyond the value is, such as the digits of a
decimal.

Equal rows, and no others, are dropped if and only if each row that is written like an earlier one
equals an earlier one, and the other way round (`distinctRows_dropsRepeats`).  This is so where all
numbers have one spelling.
-/

namespace RecordQuery

/-! ## Elements without repeats -/

/-- The elements that are not the same as an earlier one, `earlier` standing before all of them. -/
def withoutRepeats (same : α → α → Bool) (earlier : List α) : List α → List α
  | [] => []
  | a :: as =>
    if earlier.any (same · a) then withoutRepeats same (earlier ++ [a]) as
    else a :: withoutRepeats same (earlier ++ [a]) as

/-- It is enough to compare keys with those of the elements that were kept: a dropped element has
the key of one of them. -/
theorem firstByKey_eq_withoutRepeats [BEq κ] [LawfulBEq κ] (key : α → κ) {seen : List κ}
    {earlier as : List α} (hseen : ∀ k, k ∈ seen ↔ k ∈ earlier.map key) :
    firstByKey key seen as = withoutRepeats (fun a b => key a == key b) earlier as := by
  induction as generalizing seen earlier with
  | nil => rfl
  | cons a as ih =>
      have hfound : seen.contains (key a) = earlier.any (fun b => key b == key a) := by
        rw [Bool.eq_iff_iff, List.contains_iff_mem, hseen, List.any_eq_true, List.mem_map]
        simp only [beq_iff_eq]
      rw [firstByKey, withoutRepeats, ← hfound]
      split
      next hold =>
        refine ih fun k => ?_
        rw [List.map_append, List.mem_append, ← hseen, List.map_singleton, List.mem_singleton]
        exact ⟨.inl, fun h => h.elim id fun h => h ▸ List.contains_iff_mem.mp hold⟩
      next hnew =>
        refine congrArg (a :: ·) (ih fun k => ?_)
        rw [List.map_append, List.mem_append, ← hseen, List.map_singleton, List.mem_singleton,
          List.mem_cons, or_comm]

section Repeats

variable {same same' : α → α → Bool} {earlier as : List α}

theorem withoutRepeats_sublist (same : α → α → Bool) (earlier as : List α) :
    (withoutRepeats same earlier as).Sublist as := by
  induction as generalizing earlier with
  | nil => exact .slnil
  | cons a as ih =>
      rw [withoutRepeats]
      split
      · exact (ih _).cons a
      · exact (ih _).cons_cons a

/-- Further elements leave what is kept of the first ones as it is. -/
theorem withoutRepeats_prefix (same : α → α → Bool) (earlier as bs : List α) :
    withoutRepeats same earlier as <+: withoutRepeats same earlier (as ++ bs) := by
  induction as generalizing earlier with
  | nil => exact List.nil_prefix
  | cons a as ih =>
      rw [List.cons_append, withoutRepeats, withoutRepeats]
      split
      · exact ih _
      · exact (List.prefix_cons_inj a).mpr (ih _)

/-- What is kept repeats nothing that stands before all. -/
theorem same_eq_false_of_mem {a b : α} (ha : a ∈ earlier)
    (hb : b ∈ withoutRepeats same earlier as) : same a b = false := by
  induction as generalizing earlier with
  | nil => cases hb
  | cons c as ih =>
      rw [withoutRepeats] at hb
      split at hb
      next hrepeat => exact ih (List.mem_append_left _ ha) hb
      next hnew =>
        rcases List.mem_cons.mp hb with rfl | hb
        · exact Bool.eq_false_iff.mpr fun h => hnew (List.any_eq_true.mpr ⟨a, ha, h⟩)
        · exact ih (List.mem_append_left _ ha) hb

theorem withoutRepeats_pairwise (same : α → α → Bool) (earlier as : List α) :
    (withoutRepeats same earlier as).Pairwise fun a b => same a b = false := by
  induction as generalizing earlier with
  | nil => exact .nil
  | cons a as ih =>
      rw [withoutRepeats]
      split
      · exact ih _
      · exact .cons (fun b hb => same_eq_false_of_mem (by simp) hb) (ih _)

/-- Nothing is dropped where nothing repeats. -/
theorem withoutRepeats_of_pairwise (hnew : ∀ a ∈ earlier, ∀ b ∈ as, same a b = false)
    (h : as.Pairwise fun a b => same a b = false) : withoutRepeats same earlier as = as := by
  induction h generalizing earlier with
  | nil => rfl
  | @cons a as ha hrest ih =>
      have hfirst : ¬ earlier.any (same · a) = true := fun hany => by
        obtain ⟨b, hb, hsame⟩ := List.any_eq_true.mp hany
        rw [hnew b hb a (.head _)] at hsame
        cases hsame
      rw [withoutRepeats, if_neg hfirst]
      refine congrArg (a :: ·) (ih fun b hb c hc => ?_)
      rcases List.mem_append.mp hb with hb | hb
      · exact hnew b hb c (.tail _ hc)
      · rw [List.mem_singleton.mp hb]
        exact ha c hc

/-- What repeats an element repeats one that is kept. -/
theorem exists_mem_withoutRepeats
    (htrans : ∀ a b c, same a b = true → same b c = true → same a c = true)
    (earlier : List α) {a b : α} (ha : a ∈ as) (hab : same a b = true) :
    (∃ c ∈ earlier, same c b = true) ∨ ∃ c ∈ withoutRepeats same earlier as, same c b = true := by
  induction as generalizing earlier with
  | nil => cases ha
  | cons d as ih =>
      -- an element before `d` that is the same as `d` is the same as what `d` is
      have hfirst : ∀ e ∈ earlier ++ [d], same e b = true →
          (∃ c ∈ earlier, same c b = true) ∨
            ∃ c ∈ withoutRepeats same earlier (d :: as), same c b = true := by
        intro e he hsame
        rcases List.mem_append.mp he with he | he
        · exact .inl ⟨e, he, hsame⟩
        · rw [List.mem_singleton.mp he] at hsame
          rw [withoutRepeats]
          split
          next hrepeat =>
            obtain ⟨c, hc, hcd⟩ := List.any_eq_true.mp hrepeat
            exact .inl ⟨c, hc, htrans c d b hcd hsame⟩
          next hnew => exact .inr ⟨d, .head _, hsame⟩
      rcases List.mem_cons.mp ha with rfl | ha
      · exact hfirst a (by simp) hab
      · rcases ih (earlier ++ [d]) ha with ⟨c, hc, hsame⟩ | ⟨c, hc, hsame⟩
        · exact hfirst c hc hsame
        · refine .inr ⟨c, ?_, hsame⟩
          rw [withoutRepeats]
          split
          · exact hc
          · exact .tail _ hc

/-- Where the same elements are kept, a repeat in one way is a repeat in the other: it could not be
made up for by a later element, which would be a repeat, too. -/
theorem any_of_withoutRepeats_eq {a : α} (h : withoutRepeats same earlier (a :: as) =
      withoutRepeats same' earlier (a :: as)) (hrepeat : earlier.any (same · a) = true) :
    earlier.any (same' · a) = true := by
  by_contra hnew
  obtain ⟨b, hb, hsame⟩ := List.any_eq_true.mp hrepeat
  have hkept : a ∈ withoutRepeats same earlier (a :: as) := by
    rw [h, withoutRepeats, if_neg hnew]
    exact .head _
  rw [same_eq_false_of_mem hb hkept] at hsame
  cases hsame

/-- The same elements are kept if and only if the same elements are repeats. -/
theorem withoutRepeats_eq_iff :
    withoutRepeats same earlier as = withoutRepeats same' earlier as ↔
      ∀ before a after, as = before ++ a :: after →
        (earlier ++ before).any (same · a) = (earlier ++ before).any (same' · a) := by
  induction as generalizing earlier with
  | nil =>
      refine iff_of_true rfl fun before a after h => ?_
      cases (List.append_eq_nil_iff.mp h.symm).2
  | cons b as ih =>
      constructor
      · intro h before a after hsplit
        have hfirst : earlier.any (same · b) = earlier.any (same' · b) :=
          Bool.eq_iff_iff.mpr ⟨any_of_withoutRepeats_eq h, any_of_withoutRepeats_eq h.symm⟩
        have hrest : withoutRepeats same (earlier ++ [b]) as =
            withoutRepeats same' (earlier ++ [b]) as := by
          rw [withoutRepeats, withoutRepeats, hfirst] at h
          split at h
          · exact h
          · exact (List.cons.inj h).2
        cases before with
        | nil =>
            cases hsplit
            rw [List.append_nil, hfirst]
        | cons c before =>
            obtain ⟨hhead, htail⟩ := List.cons.inj hsplit
            rw [← hhead, List.append_cons]
            exact ih.mp hrest before a after htail
      · intro h
        have hfirst := h [] b as rfl
        have hrest := ih.mpr fun before a after hsplit => by
          rw [← List.append_cons]
          exact h (b :: before) a after (congrArg (b :: ·) hsplit)
        rw [List.append_nil] at hfirst
        rw [withoutRepeats, withoutRepeats, hfirst, hrest]

end Repeats

/-! ## Rows without repeats -/

/-- What it means that repeats are dropped, and only repeats. -/
structure DropsRepeats (same : Record → Record → Bool) (rows kept : List Record) : Prop where
  /-- The rows are kept that are not the same as an earlier row, in their order. -/
  eq : kept = withoutRepeats same [] rows
  /-- No two rows that are kept are the same. -/
  apart : kept.Pairwise fun a b => same a b = false
  /-- A row that repeats an earlier one is the same as a row that is kept before it. -/
  covered : ∀ before row after, rows = before ++ row :: after → before.any (same · row) = true →
    ∃ first, first <+: kept ∧ first.Sublist before ∧ first.any (same · row) = true
  again : distinctRows kept = kept

theorem Record.writtenAlike_eq : writtenAlike = fun a b => a.toJson.text == b.toJson.text := by
  funext a b
  rw [Bool.eq_iff_iff, beq_iff_eq, text_eq_iff_writtenAlike]

theorem Record.writtenAlike_trans {a b c : Record} (h : a.writtenAlike b = true)
    (h' : b.writtenAlike c = true) : a.writtenAlike c = true := by
  rw [← text_eq_iff_writtenAlike] at h h' ⊢
  exact h.trans h'

/-- Rows are dropped that are written like an earlier one. -/
theorem distinctRows_eq (rows : List Record) :
    distinctRows rows = withoutRepeats Record.writtenAlike [] rows := by
  rw [Record.writtenAlike_eq]
  exact firstByKey_eq_withoutRepeats _ fun _ => Iff.rfl

theorem distinctRows_distinctRows (rows : List Record) :
    distinctRows (distinctRows rows) = distinctRows rows := by
  rw [distinctRows_eq (distinctRows rows)]
  refine withoutRepeats_of_pairwise (fun _ h => nomatch h) ?_
  rw [distinctRows_eq]
  exact withoutRepeats_pairwise _ _ _

theorem dropsRepeats_of_eq {same : Record → Record → Bool} {rows : List Record}
    (htrans : ∀ a b c, same a b = true → same b c = true → same a c = true)
    (h : distinctRows rows = withoutRepeats same [] rows) :
    DropsRepeats same rows (distinctRows rows) where
  eq := h
  apart := by
    rw [h]
    exact withoutRepeats_pairwise same [] rows
  covered before row after hrows hrepeat := by
    obtain ⟨a, ha, hsame⟩ := List.any_eq_true.mp hrepeat
    refine ⟨withoutRepeats same [] before, ?_, withoutRepeats_sublist same [] before, ?_⟩
    · rw [h, hrows]
      exact withoutRepeats_prefix same [] before _
    · obtain ⟨b, hb, -⟩ | hkept := exists_mem_withoutRepeats htrans [] ha hsame
      · cases hb
      · exact List.any_eq_true.mpr hkept
  again := distinctRows_distinctRows rows

/-- **Rows are dropped that are written like an earlier row.**  So equal rows, and only these, are
dropped if and only if the rows that are written like an earlier one are those that equal an earlier
one.  This is so for rows whose numbers have one spelling. -/
theorem distinctRows_dropsRepeats (rows : List Record) :
    DropsRepeats Record.writtenAlike rows (distinctRows rows) ∧
    (DropsRepeats Record.equals rows (distinctRows rows) ↔
      ∀ before row after, rows = before ++ row :: after →
        before.any (·.writtenAlike row) = before.any (·.equals row)) ∧
    ∀ P Q, OneSpelling P Q → (∀ row ∈ rows, row.HasNumbers P Q) →
      DropsRepeats Record.equals rows (distinctRows rows) := by
  have hiff : DropsRepeats Record.equals rows (distinctRows rows) ↔
      ∀ before row after, rows = before ++ row :: after →
        before.any (·.writtenAlike row) = before.any (·.equals row) := by
    constructor
    · intro h
      exact withoutRepeats_eq_iff.mp ((distinctRows_eq rows).symm.trans h.eq)
    · intro h
      exact dropsRepeats_of_eq (fun _ _ _ => Record.equals_trans)
        ((distinctRows_eq rows).trans (withoutRepeats_eq_iff.mpr h))
  refine ⟨dropsRepeats_of_eq (fun _ _ _ => Record.writtenAlike_trans) (distinctRows_eq rows), hiff,
    fun P Q hspelling hnumbers => hiff.mpr fun before row after hrows => ?_⟩
  have hrow := hnumbers row (by simp [hrows])
  have hbefore : ∀ a ∈ before, a.writtenAlike row = a.equals row := fun a ha =>
    Record.writtenAlike_eq_equals hspelling (hnumbers a (by simp [hrows, ha])) hrow
  rw [Bool.eq_iff_iff, List.any_eq_true, List.any_eq_true]
  exact exists_congr fun a => and_congr_right fun ha => by rw [hbefore a ha]

namespace Sample

/-- A contact with a code. -/
def coded (code : Decimal) : Record := (Record.new "contact" ⟨2⟩).set "code" (.decimal code)

/-- A contact with a score. -/
def scored (score : Double) : Record := (Record.new "contact" ⟨2⟩).set "score" (.double score)

/-- Two codes and a score, some of them twice. -/
def repeated : List Record :=
  [coded ⟨15, 1⟩, scored ⟨0⟩, coded ⟨20, 1⟩, scored ⟨0⟩, coded ⟨15, 1⟩]

/-- Rows with codes of one scale and with finite scores lose their repeats. -/
theorem repeated_distinct : (distinctRows repeated).length = 3 ∧
    DropsRepeats Record.equals repeated (distinctRows repeated) := by
  have hspelling := oneSpelling_of_scale (s := 1) (by decide)
  have hcoded : ∀ c, c.scale = 1 → (coded c).HasNumbers (·.scale = 1)
      fun d => d.isFinite = true ∧ d ≠ Double.neg ⟨0⟩ := fun c hc => ⟨hc, trivial⟩
  have hscored : (scored ⟨0⟩).HasNumbers (·.scale = 1)
      fun d => d.isFinite = true ∧ d ≠ Double.neg ⟨0⟩ := ⟨⟨rfl, by decide⟩, trivial⟩
  have hnumbers : ∀ row ∈ repeated, row.HasNumbers (·.scale = 1)
      fun d => d.isFinite = true ∧ d ≠ Double.neg ⟨0⟩ := by
    refine List.forall_mem_cons.mpr ⟨hcoded _ rfl, List.forall_mem_cons.mpr ⟨hscored, ?_⟩⟩
    refine List.forall_mem_cons.mpr ⟨hcoded _ rfl, List.forall_mem_cons.mpr ⟨hscored, ?_⟩⟩
    exact List.forall_mem_singleton.mpr (hcoded _ rfl)
  have hdrops := (distinctRows_dropsRepeats repeated).2.2 _ _ hspelling hnumbers
  refine ⟨?_, hdrops⟩
  rw [hdrops.eq]
  rfl

/-- Both infinities are written as null, and decimals of one value with different digits. -/
theorem infinities_not_told_apart :
    ¬ DropsRepeats Record.equals [scored .infinity, scored Double.infinity.neg]
        (distinctRows [scored .infinity, scored Double.infinity.neg]) ∧
      ¬ DropsRepeats Record.equals [coded ⟨15, 1⟩, coded ⟨150, 2⟩]
        (distinctRows [coded ⟨15, 1⟩, coded ⟨150, 2⟩]) := by
  have hlength : ∀ {a b : Record}, DropsRepeats Record.equals [a, b] (distinctRows [a, b]) →
      (withoutRepeats Record.writtenAlike [] [a, b]).length =
        (withoutRepeats Record.equals [] [a, b]).length := fun h => by
    rw [← distinctRows_eq, ← h.eq]
  exact ⟨fun h => absurd (hlength h) (by decide), fun h => absurd (hlength h) (by decide)⟩

end Sample

end RecordQuery
