import Mathlib.Algebra.Group.Nat.Defs
import RecordQuery.Proofs.Failure
import RecordQuery.Proofs.Text.Utf8
import RecordQuery.Text.Hex

/-!
# Hexadecimal digits are read back

A digit is read as its number (`hexValue?_hexDigit`).  From it follow the readings of numbers in a
fixed number of digits (`hexNumber?_hexDigits`) and of bytes in pairs of digits
(`bytesOfHex_toUTF8`).
-/

namespace RecordQuery.Text

/-! ## Digits -/

theorem hexValue?_hexDigit {n : Nat} (h : n < 16) : hexValue? (hexDigit n) = some n := by
  have hall : ∀ n < 16, hexValue? (hexDigit n) = some n := by decide
  exact hall n h

/-- The digits that are written. -/
def hexAlphabet : List Char := "0123456789abcdef".toList

theorem hexDigit_mem {n : Nat} (h : n < 16) : hexDigit n ∈ hexAlphabet := by
  have hall : ∀ n < 16, hexDigit n ∈ hexAlphabet := by decide
  exact hall n h

/-- The one byte of a digit is read as its number. -/
theorem exists_byte_of_hexDigit {n : Nat} (h : n < 16) :
    ∃ b, String.utf8EncodeChar (hexDigit n) = [b] ∧ ∀ position, hexNibble b position = .ok n := by
  have hall : ∀ n < 16, String.utf8EncodeChar (hexDigit n) = [(hexDigit n).val.toUInt8] ∧
      hexValue? (Char.ofNat (hexDigit n).val.toUInt8.toNat) = some n := by
    decide
  obtain ⟨hbyte, hvalue⟩ := hall n h
  refine ⟨_, hbyte, fun position => ?_⟩
  rw [hexNibble, hvalue]

/-! ## Numbers -/

theorem length_hexDigits (width n : Nat) : (hexDigits width n).length = width := by
  induction width generalizing n with
  | zero => rfl
  | succ w ih => rw [hexDigits, List.length_append, ih, List.length_singleton]

theorem mem_hexDigits {width n : Nat} {c : Char} (h : c ∈ hexDigits width n) :
    c ∈ hexAlphabet := by
  induction width generalizing n with
  | zero => cases h
  | succ w ih =>
      rw [hexDigits, List.mem_append, List.mem_singleton] at h
      rcases h with h | rfl
      · exact ih h
      · exact hexDigit_mem (Nat.mod_lt _ (by decide))

theorem hexNumber?_append (cs : List Char) {c : Char} {n d : Nat} (hn : hexNumber? cs = some n)
    (hd : hexValue? c = some d) : hexNumber? (cs ++ [c]) = some (16 * n + d) := by
  rw [hexNumber?] at hn ⊢
  rw [List.foldlM_append, hn]
  simp [hd]

/-- A number is read back from its digits if they are enough. -/
theorem hexNumber?_hexDigits {width n : Nat} (h : n < 16 ^ width) :
    hexNumber? (hexDigits width n) = some n := by
  induction width generalizing n with
  | zero =>
      rw [Nat.pow_zero, Nat.lt_one_iff] at h
      rw [h]
      rfl
  | succ w ih =>
      have hhigh : n / 16 < 16 ^ w :=
        Nat.div_lt_of_lt_mul (by rwa [Nat.pow_succ, Nat.mul_comm] at h)
      have hlow := hexValue?_hexDigit (Nat.mod_lt n (show 0 < 16 by decide))
      rw [hexDigits, hexNumber?_append _ (ih hhigh) hlow, Nat.div_add_mod]

/-! ## Bytes -/

theorem mem_hexOfBytes {bytes : List UInt8} {c : Char} (h : c ∈ hexOfBytes bytes) :
    c ∈ hexAlphabet := by
  induction bytes with
  | nil => cases h
  | cons b bytes ih =>
      have hbound := b.toNat_lt
      rcases List.mem_cons.mp h with rfl | h
      · exact hexDigit_mem (by omega)
      rcases List.mem_cons.mp h with rfl | h
      · exact hexDigit_mem (Nat.mod_lt _ (by decide))
      · exact ih h

theorem length_hexOfBytes (bytes : List UInt8) :
    (hexOfBytes bytes).length = 2 * bytes.length := by
  induction bytes with
  | nil => rfl
  | cons b bytes ih =>
      rw [hexOfBytes, List.length_cons, List.length_cons, ih, List.length_cons, Nat.mul_succ]

/-- Two bytes of text stand for every byte. -/
theorem length_flatMap_hexOfBytes (bytes : List UInt8) :
    ((hexOfBytes bytes).flatMap String.utf8EncodeChar).length = 2 * bytes.length := by
  induction bytes with
  | nil => rfl
  | cons b bytes ih =>
      have hbound := b.toNat_lt
      obtain ⟨high, hhigh, -⟩ := exists_byte_of_hexDigit (n := b.toNat / 16) (by omega)
      obtain ⟨low, hlow, -⟩ := exists_byte_of_hexDigit (Nat.mod_lt b.toNat (show 0 < 16 by decide))
      rw [hexOfBytes, List.flatMap_cons, List.flatMap_cons, hhigh, hlow, List.singleton_append,
        List.singleton_append, List.length_cons, List.length_cons, ih, List.length_cons]
      omega

theorem bytesOfPairs_hexOfBytes (position : Nat) (bytes : List UInt8) :
    bytesOfPairs position ((hexOfBytes bytes).flatMap String.utf8EncodeChar) = .ok bytes := by
  induction bytes generalizing position with
  | nil => rfl
  | cons b bytes ih =>
      have hbound := b.toNat_lt
      obtain ⟨high, hhigh, hread⟩ := exists_byte_of_hexDigit (n := b.toNat / 16) (by omega)
      obtain ⟨low, hlow, hread'⟩ :=
        exists_byte_of_hexDigit (Nat.mod_lt b.toNat (show 0 < 16 by decide))
      simp only [hexOfBytes, List.flatMap_cons, hhigh, hlow, List.singleton_append, bytesOfPairs,
        hread, hread', ih, ok_bind, pure_eq_ok, Nat.div_add_mod, UInt8.ofNat_toNat]

/-- Bytes are read back from their digits. -/
theorem bytesOfHex_toUTF8 (bytes : List UInt8) :
    bytesOfHex (String.ofList (hexOfBytes bytes)).toUTF8.toList = .ok bytes := by
  have heven : ((hexOfBytes bytes).flatMap String.utf8EncodeChar).length % 2 = 0 := by
    rw [length_flatMap_hexOfBytes, Nat.mul_mod_right]
  rw [toList_toUTF8_ofList, bytesOfHex, if_pos heven, bytesOfPairs_hexOfBytes]

end RecordQuery.Text
