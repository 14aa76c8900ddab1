import RecordQuery.Proofs.Text.Hex
import RecordQuery.RecordId

/-!
# Identifiers are read back

The text of an identifier is read as the identifier (`RecordId.ofText?_text`).  Hyphens stand at
fixed places between digits, so dropping them gives the digits, and putting them back the text.
-/

namespace RecordQuery.RecordId

open Text

/-! ## Hyphens -/

theorem ne_hyphen_of_mem {c : Char} (h : c ∈ hexAlphabet) : c ≠ '-' := by
  rintro rfl
  exact absurd h (by decide)

/-- The groups of digits make up the digits. -/
theorem groups_eq (ds : List Char) :
    ds.take 8 ++ ((ds.drop 8).take 4 ++ ((ds.drop 12).take 4 ++
      ((ds.drop 16).take 4 ++ ds.drop 20))) = ds := by
  calc ds.take 8 ++ ((ds.drop 8).take 4 ++ ((ds.drop 12).take 4 ++
        ((ds.drop 16).take 4 ++ ds.drop 20)))
      = ds.take 8 ++ ((ds.drop 8).take 4 ++ ((ds.drop 12).take 4 ++
          ((ds.drop 16).take 4 ++ (ds.drop 16).drop 4))) := by rw [List.drop_drop]
    _ = ds.take 8 ++ ((ds.drop 8).take 4 ++ ((ds.drop 12).take 4 ++ (ds.drop 12).drop 4)) := by
          rw [List.take_append_drop, List.drop_drop]
    _ = ds.take 8 ++ ((ds.drop 8).take 4 ++ (ds.drop 8).drop 4) := by
          rw [List.take_append_drop, List.drop_drop]
    _ = ds := by rw [List.take_append_drop, List.take_append_drop]

/-- Without its hyphens a hyphenated list of digits is the list. -/
theorem filter_hyphenate {ds : List Char} (h : ∀ d ∈ ds, d ≠ '-') :
    (hyphenate ds).filter (· ≠ '-') = ds := by
  have hkeep : ds.filter (· ≠ '-') = ds :=
    List.filter_eq_self.mpr fun d hd => decide_eq_true (h d hd)
  calc (hyphenate ds).filter (· ≠ '-')
      = (ds.take 8 ++ ((ds.drop 8).take 4 ++ ((ds.drop 12).take 4 ++
          ((ds.drop 16).take 4 ++ ds.drop 20)))).filter (· ≠ '-') := by
        simp [hyphenate, List.filter_append]
    _ = ds := by rw [groups_eq, hkeep]

theorem length_hyphenate {ds : List Char} (h : ds.length = 32) : (hyphenate ds).length = 36 := by
  simp [hyphenate, h]

/-! ## Reading -/

theorem ofDigits?_hexDigits (id : RecordId) :
    ofDigits? (hexDigits 32 id.bits.toNat) = some id := by
  have hbound : id.bits.toNat < 16 ^ 32 := id.bits.isLt
  rw [ofDigits?, if_pos (length_hexDigits _ _), hexNumber?_hexDigits hbound, Option.map_some,
    BitVec.ofNat_toNat, BitVec.setWidth_eq]

/-- Identifiers begin with a digit, so nothing marks them as a name. -/
theorem take_chars_ne (id : RecordId) :
    (id.chars.take urnMark.length).map Char.toLower ≠ urnMark := by
  have hfirst : ∃ d ds, hexDigits 32 id.bits.toNat = d :: ds := by
    have hlength := length_hexDigits 32 id.bits.toNat
    cases hdigits : hexDigits 32 id.bits.toNat with
    | nil =>
        rw [hdigits] at hlength
        cases hlength
    | cons d ds => exact ⟨d, ds, rfl⟩
  obtain ⟨d, ds, hdigits⟩ := hfirst
  have hmem : d ∈ hexAlphabet := mem_hexDigits (by rw [hdigits]; exact .head _)
  have hlower : hexAlphabet.any (·.toLower = 'u') = false := by decide
  intro heq
  rw [chars, hdigits] at heq
  exact List.any_eq_false.mp hlower d hmem (decide_eq_true (List.cons.inj heq).1)

/-- The text of an identifier is read as the identifier. -/
theorem ofText?_text (id : RecordId) : ofText? id.text = some id := by
  have hlength : id.chars.length = 36 := length_hyphenate (length_hexDigits 32 _)
  have hdigits : (hyphenate (hexDigits 32 id.bits.toNat)).filter (· ≠ '-') = _ :=
    filter_hyphenate fun d hd => ne_hyphen_of_mem (mem_hexDigits hd)
  rw [ofText?, text, String.toList_ofList, ofChars?, if_neg (by omega),
    if_neg (by omega), if_neg id.take_chars_ne, ofHyphenated?, chars, hdigits, if_pos rfl,
    ofDigits?_hexDigits]

end RecordQuery.RecordId
