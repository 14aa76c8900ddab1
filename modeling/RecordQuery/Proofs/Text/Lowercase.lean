import RecordQuery.Text.Lowercase

/-!
# Lower case is reached at once

The lower case of a text is its own lower case, whatever the neighbours of its letters are.

*Characters.*  A character is lower when no row changes it (`IsLower`).  The rows lead to lower
characters only: what a row gives is in no row (`rows_apart`), which is a fact about pairs of rows
and needs no look at single characters.

*Texts.*  Lower characters stay and never look at their neighbours, so a lower text stays
(`lowerFrom_of_lower`) and stands unchanged behind any other text (`lowerFrom_append_lower`).
-/

namespace RecordQuery.Text

/-! ## Rows -/

/-- A row changes a code point. -/
def InRow (r : Nat × Nat × Nat × Int) (n : Nat) : Prop :=
  r.1 ≤ n ∧ n ≤ r.2.1 ∧ (n - r.1) % r.2.2.1 = 0

instance : Decidable (InRow r n) := inferInstanceAs (Decidable (_ ∧ _ ∧ _))

/-- The rows of the table and those of the characters that it leaves out: `A` to `Z`, and `İ`. -/
def caseRows : List (Nat × Nat × Nat × Int) :=
  (0x41, 0x5A, 1, 32) :: (0x130, 0x130, 1, 0) :: lowerCaseRows

/-- What the first row gives is not in the second: it lies before it, behind it or, in a row of
every other character, between its characters. -/
def apart (r s : Nat × Nat × Nat × Int) : Bool :=
  !s.1.ble (r.2.1 + r.2.2.2).toNat || !(r.1 + r.2.2.2).toNat.ble s.2.1 ||
    (r.2.2.1 == 2 || r.1 == r.2.1) && s.2.2.1 == 2 && ((r.1 + r.2.2.2).toNat + s.1) % 2 == 1

theorem rows_apart : lowerCaseRows.all (fun r => caseRows.all (apart r)) = true := by
  decide +kernel

/-- What a row gives are code points of characters. -/
theorem rows_valid : ∀ r ∈ lowerCaseRows, 0 ≤ r.1 + r.2.2.2 ∧
    (r.2.1 + r.2.2.2 < 0xD800 ∨ 0xDFFF < r.1 + r.2.2.2 ∧ r.2.1 + r.2.2.2 < 0x110000) := by
  decide +kernel

theorem rows_above_ascii : ∀ r ∈ lowerCaseRows, 0x80 ≤ r.1 := by decide +kernel

/-- Where what a row gives is apart from another row, no character leads from one into the other. -/
theorem not_inRow_of_apart {r s : Nat × Nat × Nat × Int} {n m : Nat} (h : apart r s = true)
    (hn : InRow r n) (hnonneg : 0 ≤ r.1 + r.2.2.2) (hm : (m : Int) = n + r.2.2.2) :
    ¬ InRow s m := by
  rintro ⟨hfirst, hlast, hstep⟩
  obtain ⟨hfirst', hlast', hstep'⟩ := hn
  simp only [apart, Bool.or_eq_true, Bool.not_eq_true', Bool.and_eq_true, beq_iff_eq,
    ← Bool.not_eq_true, Nat.ble_eq] at h
  rcases h with (hbefore | hbehind) | ⟨⟨hr, hs⟩, hodd⟩
  · omega
  · omega
  · rw [hs] at hstep
    rcases hr with hr | hr
    · rw [hr] at hstep'
      omega
    · omega

/-! ## Characters -/

/-- No row changes the character. -/
def IsLower (c : Char) : Prop := ∀ r ∈ caseRows, ¬ InRow r c.toNat

instance (c : Char) : Decidable (IsLower c) := inferInstanceAs (Decidable (∀ r ∈ caseRows, _))

theorem lowerByRows_cases (c : Char) (rows : List (Nat × Nat × Nat × Int)) :
    (lowerByRows rows c = c ∧ ∀ r ∈ rows, ¬ InRow r c.toNat) ∨
      ∃ r ∈ rows, InRow r c.toNat ∧
        lowerByRows rows c = Char.ofNat (c.toNat + r.2.2.2).toNat := by
  induction rows with
  | nil => exact .inl ⟨rfl, by simp⟩
  | cons row rows ih =>
      obtain ⟨first, last, step, shift⟩ := row
      by_cases hrow : InRow (first, last, step, shift) c.toNat
      · refine .inr ⟨_, .head _, hrow, ?_⟩
        obtain ⟨hfirst, hlast, hstep⟩ := hrow
        simp only at hfirst hlast hstep
        simp [lowerByRows, hfirst, hlast, hstep]
      · have hnext : lowerByRows ((first, last, step, shift) :: rows) c = lowerByRows rows c := by
          simp only [lowerByRows]
          rw [if_neg]
          simpa [InRow, and_assoc] using hrow
        rw [hnext]
        rcases ih with ⟨hself, hnone⟩ | ⟨r, hr, hin, hlower⟩
        · exact .inl ⟨hself, List.forall_mem_cons.mpr ⟨hrow, hnone⟩⟩
        · exact .inr ⟨r, .tail _ hr, hin, hlower⟩

theorem toLower_ascii : ∀ n < 0x80, (Char.ofNat n).toLower.toNat < 0x80 ∧
    ¬ InRow (0x41, 0x5A, 1, 32) (Char.ofNat n).toLower.toNat ∧
      (¬ InRow (0x41, 0x5A, 1, 32) n → (Char.ofNat n).toLower = Char.ofNat n) := by
  decide

theorem toNat_ofNat {n : Nat} (h : n.isValidChar) : (Char.ofNat n).toNat = n := by
  rw [Char.ofNat, dif_pos h]
  rfl

/-- The code point of what a row gives. -/
theorem toNat_inRow {r : Nat × Nat × Nat × Int} (hr : r ∈ lowerCaseRows) {c : Char}
    (hrow : InRow r c.toNat) :
    ((Char.ofNat (c.toNat + r.2.2.2).toNat).toNat : Int) = c.toNat + r.2.2.2 := by
  obtain ⟨hnonneg, hvalid⟩ := rows_valid r hr
  obtain ⟨hfirst, hlast, -⟩ := hrow
  have hchar : (c.toNat + r.2.2.2).toNat.isValidChar := by
    rcases hvalid with hlow | ⟨hhigh, hmax⟩
    · exact .inl (by omega)
    · exact .inr ⟨by omega, by omega⟩
  rw [toNat_ofNat hchar]
  omega

/-- An ASCII character is lower unless it is one of `A` to `Z`. -/
theorem isLower_of_ascii {c : Char} (hc : c.toNat < 0x80)
    (hletter : ¬ InRow (0x41, 0x5A, 1, 32) c.toNat) : IsLower c := by
  intro r hr hrow
  rcases List.mem_cons.mp hr with rfl | hr
  · exact hletter hrow
  · rcases List.mem_cons.mp hr with rfl | hr
    · exact absurd hrow.1 (by omega)
    · have habove := rows_above_ascii r hr
      exact absurd hrow.1 (by omega)

/-- The lower case of a character is made of lower characters. -/
theorem isLower_of_mem_lowerChar {c d : Char} (h : d ∈ lowerChar c) : IsLower d := by
  unfold lowerChar at h
  split at h
  next hascii =>
    rw [List.mem_singleton.mp h, ← Char.ofNat_toNat c]
    obtain ⟨hlt, hletter, -⟩ := toLower_ascii c.toNat hascii
    exact isLower_of_ascii hlt hletter
  next hascii =>
    split at h
    next hdotted =>
      have hboth : IsLower 'i' ∧ IsLower '\u0307' := by decide +kernel
      rcases List.mem_cons.mp h with rfl | h
      · exact hboth.1
      · rw [List.mem_singleton.mp h]
        exact hboth.2
    next hdotted =>
      rw [List.mem_singleton.mp h]
      rcases lowerByRows_cases c lowerCaseRows with ⟨hself, hnone⟩ | ⟨r, hr, hrow, hlower⟩
      · rw [hself]
        intro r hr hrow
        rcases List.mem_cons.mp hr with rfl | hr
        · obtain ⟨-, hlast, -⟩ := hrow
          change c.toNat ≤ 0x5A at hlast
          omega
        · rcases List.mem_cons.mp hr with rfl | hr
          · have hpoint : c.toNat = 0x130 := Nat.le_antisymm hrow.2.1 hrow.1
            exact hdotted (by rw [← Char.ofNat_toNat c, hpoint])
          · exact hnone r hr hrow
      · rw [hlower]
        intro s hs
        obtain ⟨hnonneg, -⟩ := rows_valid r hr
        have hapart := List.all_eq_true.mp (List.all_eq_true.mp rows_apart r hr) s hs
        exact not_inRow_of_apart hapart hrow hnonneg (toNat_inRow hr hrow)

/-- A lower character is its own lower case. -/
theorem IsLower.lowerChar_eq {c : Char} (h : IsLower c) : lowerChar c = [c] := by
  unfold lowerChar
  split
  next hascii =>
    obtain ⟨-, -, hself⟩ := toLower_ascii c.toNat hascii
    rw [Char.ofNat_toNat] at hself
    rw [hself (h _ (.head _))]
  next hascii =>
    split
    next hdotted =>
      subst hdotted
      exact absurd (by decide) (h (0x130, 0x130, 1, 0) (.tail _ (.head _)))
    next hdotted =>
      rcases lowerByRows_cases c lowerCaseRows with ⟨hself, -⟩ | ⟨r, hr, hrow, -⟩
      · rw [hself]
      · exact absurd hrow (h r (.tail _ (.tail _ hr)))

theorem IsLower.ne_sigma {c : Char} (h : IsLower c) : c ≠ 'Σ' := by
  rintro rfl
  have hsigma : ¬ IsLower 'Σ' := by decide
  exact hsigma h

/-- The lower case of a character is not empty. -/
theorem lowerChar_ne_nil (c : Char) : lowerChar c ≠ [] := by
  unfold lowerChar
  split
  · simp
  · split <;> simp

theorem isLower_lowerSigma (before after : List Char) : IsLower (lowerSigma before after) := by
  have hboth : IsLower 'ς' ∧ IsLower 'σ' := by decide +kernel
  unfold lowerSigma
  split
  · exact hboth.1
  · exact hboth.2

/-! ## Texts -/

theorem isLower_of_mem_lowerFrom {d : Char} {before cs : List Char}
    (h : d ∈ lowerFrom before cs) : IsLower d := by
  induction cs generalizing before with
  | nil => cases h
  | cons c cs ih =>
      rw [lowerFrom, List.mem_append] at h
      rcases h with hfirst | hrest
      · split at hfirst
        next hsigma =>
          rw [List.mem_singleton.mp hfirst]
          exact isLower_lowerSigma before cs
        next hother => exact isLower_of_mem_lowerChar hfirst
      · exact ih hrest

/-- A lower text stays as it is, whatever stands before it. -/
theorem lowerFrom_of_lower {before cs : List Char} (h : ∀ c ∈ cs, IsLower c) :
    lowerFrom before cs = cs := by
  induction cs generalizing before with
  | nil => rfl
  | cons c cs ih =>
      obtain ⟨hfirst, hrest⟩ := List.forall_mem_cons.mp h
      rw [lowerFrom, if_neg hfirst.ne_sigma, hfirst.lowerChar_eq, ih hrest,
        List.singleton_append]

/-- A lower text stands unchanged behind the lower case of another, which is no shorter than that
other text. -/
theorem lowerFrom_append_lower {ds : List Char} (hds : ∀ d ∈ ds, IsLower d)
    (before cs : List Char) : ∃ low : List Char,
      cs.length ≤ low.length ∧ lowerFrom before (cs ++ ds) = low ++ ds := by
  induction cs generalizing before with
  | nil => exact ⟨[], Nat.le_refl _, lowerFrom_of_lower hds⟩
  | cons c cs ih =>
      obtain ⟨low, hlength, hlow⟩ := ih (c :: before)
      refine ⟨(if c = 'Σ' then [lowerSigma before (cs ++ ds)] else lowerChar c) ++ low, ?_, ?_⟩
      · have hpos : 0 < (if c = 'Σ' then [lowerSigma before (cs ++ ds)] else lowerChar c).length := by
          split
          · simp
          · exact List.length_pos_iff.mpr (lowerChar_ne_nil c)
        rw [List.length_append, List.length_cons]
        omega
      · rw [List.cons_append, lowerFrom, hlow, List.append_assoc]

theorem toList_lowercase (s : String) : (lowercase s).toList = lowerFrom [] s.toList := by
  rw [lowercase, String.toList_ofList]

theorem isLower_of_mem_lowercase {s : String} {c : Char} (h : c ∈ (lowercase s).toList) :
    IsLower c := by
  rw [toList_lowercase] at h
  exact isLower_of_mem_lowerFrom h

/-- The lower case of a text is its own lower case. -/
theorem lowercase_lowercase (s : String) : lowercase (lowercase s) = lowercase s := by
  have hlower : ∀ c ∈ (lowercase s).toList, IsLower c := fun c hc => isLower_of_mem_lowercase hc
  rw [lowercase, lowerFrom_of_lower hlower, String.ofList_toList]

end RecordQuery.Text
