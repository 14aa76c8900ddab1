import RecordQuery.Proofs.Text.Lowercase

/-!
# The letters A to Z in either case

Two texts are alike when they differ in the case of the letters `A` to `Z` at most.  Folding these
letters gives alike texts one form (`asciiLower`), which is what `equalIgnoringAsciiCase` compares.

Alike texts have one lower case (`lowercase_asciiLower`).  The lower case of a character looks at
its neighbours, but only at their classes, and the two letters of a pair are in the same classes
(`SameClass`).
-/

namespace RecordQuery.Text

/-- A text with the letters `A` to `Z` in lower case and all else as it is. -/
def asciiLower (s : String) : String := String.ofList (s.toList.map Char.toLower)

theorem asciiLower_eq_iff {s t : String} :
    asciiLower s = asciiLower t ↔ s.toList.map Char.toLower = t.toList.map Char.toLower := by
  rw [asciiLower, asciiLower, String.ofList_inj]

theorem equalIgnoringAsciiCase_iff {s t : String} :
    equalIgnoringAsciiCase s t = true ↔ asciiLower s = asciiLower t := by
  rw [equalIgnoringAsciiCase, beq_iff_eq, asciiLower_eq_iff]

/-- The comparison does not see the case of the letters on its left. -/
theorem equalIgnoringAsciiCase_congr {s s' : String} (h : asciiLower s = asciiLower s')
    (t : String) : equalIgnoringAsciiCase s t = equalIgnoringAsciiCase s' t := by
  rw [Bool.eq_iff_iff, equalIgnoringAsciiCase_iff, equalIgnoringAsciiCase_iff, h]

/-! ## Characters -/

theorem toLower_of_not_ascii {c : Char} (h : ¬ c.toNat < 0x80) : c.toLower = c := by
  refine dif_neg ?_
  rintro ⟨-, hlast⟩
  exact h (Nat.lt_of_le_of_lt (UInt32.le_iff_toNat_le.mp hlast) (by decide))

/-- Two characters are in the same classes and have one lower case. -/
structure SameClass (c d : Char) : Prop where
  cased : isCased c = isCased d
  ignorable : isCaseIgnorable c = isCaseIgnorable d
  lower : lowerChar c = lowerChar d
  sigma : c = 'Σ' ↔ d = 'Σ'

instance (c d : Char) : Decidable (SameClass c d) :=
  decidable_of_iff (isCased c = isCased d ∧ isCaseIgnorable c = isCaseIgnorable d ∧
      lowerChar c = lowerChar d ∧ (c = 'Σ' ↔ d = 'Σ'))
    ⟨fun h => ⟨h.1, h.2.1, h.2.2.1, h.2.2.2⟩, fun h => ⟨h.cased, h.ignorable, h.lower, h.sigma⟩⟩

theorem sameClass_ascii : ∀ n < 0x80, SameClass (Char.ofNat n).toLower (Char.ofNat n) := by
  decide

/-- The letters of a pair are in the same classes. -/
theorem sameClass_toLower (c : Char) : SameClass c.toLower c := by
  by_cases hascii : c.toNat < 0x80
  · have hclass := sameClass_ascii c.toNat hascii
    rwa [Char.ofNat_toNat] at hclass
  · rw [toLower_of_not_ascii hascii]
    exact ⟨rfl, rfl, rfl, Iff.rfl⟩

/-! ## Lower case -/

theorem reachesCased_map (cs : List Char) :
    reachesCased (cs.map Char.toLower) = reachesCased cs := by
  induction cs with
  | nil => rfl
  | cons c cs ih =>
      obtain ⟨hcased, hignorable, -, -⟩ := sameClass_toLower c
      rw [List.map_cons, reachesCased, reachesCased, hcased, hignorable, ih]

theorem lowerFrom_map (before cs : List Char) :
    lowerFrom (before.map Char.toLower) (cs.map Char.toLower) = lowerFrom before cs := by
  induction cs generalizing before with
  | nil => rfl
  | cons c cs ih =>
      obtain ⟨-, -, hlower, hsigma⟩ := sameClass_toLower c
      have hform : lowerSigma (before.map Char.toLower) (cs.map Char.toLower) =
          lowerSigma before cs := by
        rw [lowerSigma, lowerSigma, reachesCased_map, reachesCased_map]
      rw [List.map_cons, lowerFrom, lowerFrom, ← List.map_cons, ih, hlower, hform]
      simp only [hsigma]

/-- The lower case of a text does not see the case of the letters `A` to `Z`. -/
theorem lowercase_asciiLower (s : String) : lowercase (asciiLower s) = lowercase s := by
  rw [lowercase, asciiLower, String.toList_ofList, lowercase]
  exact congrArg String.ofList (lowerFrom_map [] s.toList)

/-- Alike texts have one lower case. -/
theorem lowercase_congr {s t : String} (h : asciiLower s = asciiLower t) :
    lowercase s = lowercase t := by
  rw [← lowercase_asciiLower s, h, lowercase_asciiLower]

end RecordQuery.Text
