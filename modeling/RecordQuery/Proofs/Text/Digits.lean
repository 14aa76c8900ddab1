import Mathlib.Algebra.Group.Nat.Defs
import Mathlib.Data.List.Basic
import RecordQuery.Text.Blank
import RecordQuery.Text.Digits

/-!
# Digits are read back

The digits of a number write the number, also behind zeros that fill them up to a width
(`natOfDigits?_paddedDigits`) and behind a sign (`intOfDigits?_intDigits`).  A text that is cut at a
character falls into what stands before the first such character and what stands behind it.
-/

namespace RecordQuery.Text

/-! ## Cutting -/

section Cutting

variable {p : Char → Bool} {cs : List Char}

theorem cutAt_eq_none (h : ∀ c ∈ cs, p c = false) : cutAt p cs = (cs, none) := by
  induction cs with
  | nil => rfl
  | cons c cs ih =>
      obtain ⟨hfirst, hrest⟩ := List.forall_mem_cons.mp h
      rw [cutAt, hfirst, ih hrest]
      rfl

theorem cutAt_append (h : ∀ c ∈ cs, p c = false) {d : Char} (hd : p d = true) (ds : List Char) :
    cutAt p (cs ++ d :: ds) = (cs, some ds) := by
  induction cs with
  | nil => simp [cutAt, hd]
  | cons c cs ih =>
      obtain ⟨hfirst, hrest⟩ := List.forall_mem_cons.mp h
      rw [List.cons_append, cutAt, hfirst, ih hrest]
      rfl

end Cutting

/-! ## Digits -/

theorem isDigit_of_mem_natDigits {n : Nat} {d : Char} (h : d ∈ natDigits n) : d.isDigit = true :=
  Nat.isDigit_of_mem_toDigits (by decide) (by decide) h

theorem natDigits_ne_nil (n : Nat) : natDigits n ≠ [] := Nat.toDigits_ne_nil

theorem ofDigitChars_natDigits (n : Nat) : Nat.ofDigitChars 10 (natDigits n) 0 = n :=
  Nat.ofDigitChars_ten_toDigits

theorem toList_toString (n : Nat) : (toString n).toList = natDigits n := Nat.toList_repr

/-- A smaller number has no more digits. -/
theorem length_natDigits_mono {m n : Nat} (h : m ≤ n) :
    (natDigits m).length ≤ (natDigits n).length := by
  have hpos : 0 < (natDigits n).length := List.length_pos_iff.mpr (natDigits_ne_nil n)
  refine (Nat.length_toDigits_le_iff (by decide) hpos).mpr (Nat.lt_of_le_of_lt h ?_)
  exact (Nat.length_toDigits_le_iff (by decide) hpos).mp (Nat.le_refl _)

theorem natDigits_injective {m n : Nat} (h : natDigits m = natDigits n) : m = n := by
  rw [← ofDigitChars_natDigits m, h, ofDigitChars_natDigits]

/-- A digit is none of some characters that are no digits. -/
theorem forall_ne_of_isDigit {c : Char} (hc : c.isDigit = true) {ds : List Char}
    (hds : ds.any Char.isDigit = false) : ∀ d ∈ ds, c ≠ d := by
  rintro _ hd rfl
  exact absurd hc (List.any_eq_false.mp hds c hd)

theorem ne_of_isDigit {c d : Char} (hc : c.isDigit = true) (hd : d.isDigit = false) : c ≠ d := by
  rintro rfl
  rw [hd] at hc
  cases hc

section Numbers

variable {ds : List Char}

theorem natOfDigits?_of_isDigit (hne : ds ≠ []) (hds : ∀ d ∈ ds, d.isDigit = true) :
    natOfDigits? ds = some (Nat.ofDigitChars 10 ds 0) := by
  have hall : ds.all Char.isDigit = true := List.all_eq_true.mpr hds
  simp [natOfDigits?, hne, hall]

theorem natOfDigits?_natDigits (n : Nat) : natOfDigits? (natDigits n) = some n := by
  rw [natOfDigits?_of_isDigit (natDigits_ne_nil n) fun _ => isDigit_of_mem_natDigits,
    ofDigitChars_natDigits]

/-- Digits carry no sign. -/
theorem intOfDigits?_of_isDigit (hne : ds ≠ []) (hds : ∀ d ∈ ds, d.isDigit = true) :
    intOfDigits? ds = some (Nat.ofDigitChars 10 ds 0 : Int) := by
  have hread := natOfDigits?_of_isDigit hne hds
  cases ds with
  | nil => exact absurd rfl hne
  | cons d ds =>
      have hd : d.isDigit = true := hds d (.head _)
      rw [intOfDigits?]
      · rw [hread]
        rfl
      · exact fun _ h => ne_of_isDigit hd (by decide) (List.cons.inj h).1
      · exact fun _ h => ne_of_isDigit hd (by decide) (List.cons.inj h).1

theorem intOfDigits?_plus (n : Nat) : intOfDigits? ('+' :: natDigits n) = some (n : Int) := by
  rw [intOfDigits?, natOfDigits?_natDigits]
  rfl

/-- A whole number is read from its digits. -/
theorem intOfDigits?_intDigits (i : Int) : intOfDigits? (intDigits i) = some i := by
  unfold intDigits
  split
  next hneg =>
    have hvalue : -(i.natAbs : Int) = i := by omega
    rw [intOfDigits?, natOfDigits?_natDigits]
    exact congrArg some hvalue
  next hpos =>
    rw [intOfDigits?_of_isDigit (natDigits_ne_nil _) fun _ => isDigit_of_mem_natDigits,
      ofDigitChars_natDigits]
    exact congrArg some (by omega)

end Numbers

/-- Digits write a number below the power of ten with one more digit. -/
theorem ofDigitChars_lt {ds : List Char} (hds : ∀ d ∈ ds, d.isDigit = true) :
    Nat.ofDigitChars 10 ds 0 < 10 ^ ds.length := by
  induction ds with
  | nil => exact Nat.one_pos
  | cons d ds ih =>
      obtain ⟨hfirst, hrest⟩ := List.forall_mem_cons.mp hds
      have hdigit : d.toNat - '0'.toNat ≤ 9 :=
        Nat.sub_le_sub_right (Char.isDigit_iff_toNat.mp hfirst).2 48
      have hhigh := Nat.mul_le_mul_left (10 ^ ds.length) hdigit
      rw [Nat.ofDigitChars_cons, Nat.ofDigitChars_eq_ofDigitChars_zero, Nat.mul_zero, Nat.zero_add,
        List.length_cons, Nat.pow_succ]
      have := ih hrest
      omega

/-! ## Blanks -/

theorem trimLeft_cons {c : Char} (h : isBlank c = false) (cs : List Char) :
    trimLeft (c :: cs) = c :: cs :=
  List.dropWhile_cons_of_neg (by simp [h])

theorem isBlank_of_isDigit {c : Char} (h : c.isDigit = true) : isBlank c = false := by
  have hlow : 48 ≤ c.toNat := (Char.isDigit_iff_toNat.mp h).1
  have hhigh : c.toNat ≤ 57 := (Char.isDigit_iff_toNat.mp h).2
  simp [isBlank]
  omega

/-! ## Digits of a fixed width -/

section Padded

variable {width n : Nat}

theorem isDigit_of_mem_paddedDigits {d : Char} (h : d ∈ paddedDigits width n) :
    d.isDigit = true := by
  rcases List.mem_append.mp h with hzero | hdigit
  · rw [List.eq_of_mem_replicate hzero]
    decide
  · exact isDigit_of_mem_natDigits hdigit

theorem ofDigitChars_paddedDigits (width n : Nat) :
    Nat.ofDigitChars 10 (paddedDigits width n) 0 = n := by
  rw [paddedDigits, Nat.ofDigitChars_append, Nat.ofDigitChars_replicate_zero, Nat.mul_zero,
    ofDigitChars_natDigits]

theorem le_length_paddedDigits (width n : Nat) : width ≤ (paddedDigits width n).length := by
  rw [paddedDigits, List.length_append, List.length_replicate]
  omega

theorem length_paddedDigits (hwidth : 0 < width) (hn : n < 10 ^ width) :
    (paddedDigits width n).length = width := by
  have hlength : (natDigits n).length ≤ width :=
    (Nat.length_toDigits_le_iff (by decide) hwidth).mpr hn
  rw [paddedDigits, List.length_append, List.length_replicate]
  omega

/-- No blanks stand before digits. -/
theorem trimLeft_paddedDigits (width n : Nat) (rest : List Char) :
    trimLeft (paddedDigits width n ++ rest) = paddedDigits width n ++ rest := by
  cases hdigits : paddedDigits width n with
  | nil => exact absurd (List.append_eq_nil_iff.mp hdigits).2 (natDigits_ne_nil n)
  | cons d ds =>
      have hd : d ∈ paddedDigits width n := by
        rw [hdigits]
        exact .head _
      exact trimLeft_cons (isBlank_of_isDigit (isDigit_of_mem_paddedDigits hd)) _

end Padded

end RecordQuery.Text
