import Mathlib.Algebra.Order.Field.Basic
import Mathlib.Algebra.Order.Field.Power
import Mathlib.Algebra.Order.Ring.Rat
import Mathlib.Order.Compare
import RecordQuery.Number.Decimal

/-!
# Decimals compare by value

Decimals are compared by their signs, then by the positions of their leading digits and only then by
their digits at one scale.  This is the order of the numbers that they write, whatever digits they
are written with (`Decimal.compare_eq`), so it is a preorder (`Decimal.instTransOrd`).

*Normal forms.*  A normal form has no zero at the end of its digits, and only one decimal without
such zeros writes a number.  So decimals write one number exactly where their normal forms are the
same (`Decimal.normalize_eq_normalize_iff`).
-/

namespace RecordQuery.Decimal

/-! ## Digits -/

theorem lt_pow_digitCount (n : ℕ) : n < 10 ^ digitCount n :=
  (Nat.length_toDigits_le_iff (by decide) Nat.length_toDigits_pos).mp le_rfl

theorem pow_digitCount_le {n : ℕ} (h : 0 < n) : 10 ^ (digitCount n - 1) ≤ n := by
  have hpos : 0 < digitCount n := Nat.length_toDigits_pos
  rcases Nat.eq_zero_or_pos (digitCount n - 1) with hone | hmore
  · rw [hone]
    exact h
  · by_contra hlt
    have hle := (Nat.length_toDigits_le_iff (by decide) hmore).mpr (Nat.lt_of_not_le hlt)
    change digitCount n ≤ digitCount n - 1 at hle
    omega

/-! ## Sizes -/

/-- The number `m / 10 ^ s`. -/
def size (m : ℕ) (s : ℤ) : ℚ := m * 10 ^ (-s)

theorem size_pos {m : ℕ} (h : 0 < m) (s : ℤ) : 0 < size m s :=
  mul_pos (Nat.cast_pos.mpr h) (zpow_pos (by norm_num) _)

theorem size_lt (m : ℕ) (s : ℤ) : size m s < 10 ^ ((digitCount m : ℤ) - s) := by
  have hdigits : (m : ℚ) < 10 ^ (digitCount m : ℤ) := by
    rw [zpow_natCast]
    exact_mod_cast lt_pow_digitCount m
  rw [sub_eq_add_neg, zpow_add₀ (by norm_num)]
  exact mul_lt_mul_of_pos_right hdigits (zpow_pos (by norm_num) _)

theorem le_size {m : ℕ} (h : 0 < m) (s : ℤ) : 10 ^ ((digitCount m : ℤ) - s - 1) ≤ size m s := by
  have hpos : 0 < digitCount m := Nat.length_toDigits_pos
  have hdigits : (10 : ℚ) ^ ((digitCount m - 1 : ℕ) : ℤ) ≤ m := by
    rw [zpow_natCast]
    exact_mod_cast pow_digitCount_le h
  have hexponent : (digitCount m : ℤ) - s - 1 = ((digitCount m - 1 : ℕ) : ℤ) + -s := by omega
  rw [hexponent, zpow_add₀ (by norm_num)]
  exact mul_le_mul_of_nonneg_right hdigits (zpow_pos (by norm_num) _).le

/-- The number whose leading digit stands further right is the smaller one. -/
theorem size_lt_size {m n : ℕ} {s t : ℤ} (hn : 0 < n)
    (h : (digitCount m : ℤ) - s < digitCount n - t) : size m s < size n t :=
  calc size m s
      < 10 ^ ((digitCount m : ℤ) - s) := size_lt m s
    _ ≤ 10 ^ ((digitCount n : ℤ) - t - 1) := zpow_le_zpow_right₀ (by norm_num) (by omega)
    _ ≤ size n t := le_size hn t

/-- A number at a larger scale. -/
theorem size_eq_of_le {s u : ℤ} (h : s ≤ u) (m : ℕ) :
    size m s = ((m * tenTo (u - s).toNat : ℕ) : ℚ) * 10 ^ (-u) := by
  have hexponent : -s = ((u - s).toNat : ℤ) + -u := by omega
  rw [size, hexponent, zpow_add₀ (by norm_num), zpow_natCast, tenTo, Nat.pow_eq]
  push_cast
  rw [mul_assoc]

theorem compareSizes_eq {m n : ℕ} (hm : 0 < m) (hn : 0 < n) (s t : ℤ) :
    compareSizes m s n t = compare (size m s) (size n t) := by
  unfold compareSizes
  rcases lt_trichotomy ((digitCount m : ℤ) - s) (digitCount n - t) with hlt | heq | hgt
  · rw [compare_lt_iff_lt.mpr hlt, compare_lt_iff_lt.mpr (size_lt_size hn hlt)]
    rfl
  · -- at the larger of both scales the sizes are whole numbers
    have hmono : StrictMono fun k : ℕ => (k : ℚ) * 10 ^ (-max s t) := by
      intro k l hkl
      exact mul_lt_mul_of_pos_right (Nat.cast_lt.mpr hkl) (zpow_pos (by norm_num) _)
    have hs : (max s t - s).toNat = (t - s).toNat := by omega
    have ht : (max s t - t).toNat = (s - t).toNat := by omega
    rw [compare_eq_iff_eq.mpr heq, size_eq_of_le (le_max_left s t) m,
      size_eq_of_le (le_max_right s t) n, hs, ht, ← cmp_eq_compare, ← cmp_eq_compare]
    exact (hmono.cmp_map_eq _ _).symm
  · rw [compare_gt_iff_gt.mpr hgt, compare_gt_iff_gt.mpr (size_lt_size hm hgt)]
    rfl

/-! ## Values -/

/-- The number that a decimal writes. -/
def value (d : Decimal) : ℚ := d.coefficient * 10 ^ (-d.scale)

variable {a b : Decimal}

theorem value_of_pos (h : 0 < a.coefficient) : a.value = size a.coefficient.natAbs a.scale := by
  have habs : ((a.coefficient.natAbs : ℤ) : ℚ) = a.coefficient := by
    rw [Int.natAbs_of_nonneg h.le]
  rw [value, size, ← habs]
  rfl

theorem value_of_neg (h : a.coefficient < 0) : a.value = -size a.coefficient.natAbs a.scale := by
  have habs : ((a.coefficient.natAbs : ℤ) : ℚ) = -a.coefficient := by
    rw [Int.ofNat_natAbs_of_nonpos h.le, Int.cast_neg]
  rw [value, size, ← neg_mul]
  congr 1
  rw [← neg_eq_iff_eq_neg.mpr habs]
  rfl

theorem value_of_zero (h : a.coefficient = 0) : a.value = 0 := by
  rw [value, h, Int.cast_zero, zero_mul]

theorem value_pos (h : 0 < a.coefficient) : 0 < a.value := by
  rw [value_of_pos h]
  exact size_pos (Int.natAbs_pos.mpr h.ne') _

theorem value_neg (h : a.coefficient < 0) : a.value < 0 := by
  rw [value_of_neg h]
  exact neg_neg_of_pos (size_pos (Int.natAbs_pos.mpr h.ne) _)

theorem compare_neg (x y : ℚ) : compare (-x) (-y) = compare y x := by
  rcases lt_trichotomy x y with hlt | rfl | hgt
  · rw [compare_gt_iff_gt.mpr hlt, compare_gt_iff_gt.mpr (neg_lt_neg hlt)]
  · rw [compare_eq_iff_eq.mpr rfl, compare_eq_iff_eq.mpr rfl]
  · rw [compare_lt_iff_lt.mpr hgt, compare_lt_iff_lt.mpr (neg_lt_neg hgt)]

theorem value_nonneg (h : 0 ≤ a.coefficient) : 0 ≤ a.value := by
  rcases h.lt_or_eq with hpos | hzero
  · exact (value_pos hpos).le
  · rw [value_of_zero hzero.symm]

theorem value_lt_of_sign_lt (h : a.coefficient.sign < b.coefficient.sign) : a.value < b.value := by
  rcases lt_or_ge a.coefficient 0 with ha | ha
  · have hb : 0 ≤ b.coefficient := by
      by_contra hneg
      rw [Int.sign_eq_neg_one_of_neg ha, Int.sign_eq_neg_one_of_neg (Int.not_le.mp hneg)] at h
      exact lt_irrefl _ h
    exact (value_neg ha).trans_le (value_nonneg hb)
  · have hb : 0 < b.coefficient := Int.sign_pos_iff.mp ((Int.sign_nonneg_iff.mpr ha).trans_lt h)
    have hzero : a.coefficient = 0 := by
      by_contra hne
      rw [Int.sign_eq_one_of_pos hb, Int.sign_eq_one_of_pos (lt_of_le_of_ne ha (Ne.symm hne))] at h
      exact lt_irrefl _ h
    rw [value_of_zero hzero]
    exact value_pos hb

/-- **Decimals compare as the numbers that they write.** -/
theorem compare_eq (a b : Decimal) : compare a b = compare a.value b.value := by
  change Decimal.compare a b = _
  unfold Decimal.compare
  rcases lt_trichotomy a.coefficient.sign b.coefficient.sign with hlt | heq | hgt
  · rw [compare_lt_iff_lt.mpr hlt, compare_lt_iff_lt.mpr (value_lt_of_sign_lt hlt)]
    rfl
  · rw [compare_eq_iff_eq.mpr heq]
    rcases lt_trichotomy a.coefficient 0 with ha | ha | ha
    · have hb : b.coefficient < 0 := by
        rw [← Int.sign_neg_iff, ← heq]
        exact Int.sign_neg_iff.mpr ha
      rw [Ordering.eq_then, if_neg ha.ne, if_neg ha.not_gt, value_of_neg ha, value_of_neg hb,
        compareSizes_eq (Int.natAbs_pos.mpr hb.ne) (Int.natAbs_pos.mpr ha.ne), compare_neg]
    · have hb : b.coefficient = 0 := by
        rw [← Int.sign_eq_zero_iff_zero, ← heq, ha]
        rfl
      rw [Ordering.eq_then, if_pos ha, value_of_zero ha, value_of_zero hb]
      rfl
    · have hb : 0 < b.coefficient := by
        rw [← Int.sign_pos_iff, ← heq]
        exact Int.sign_pos_iff.mpr ha
      rw [Ordering.eq_then, if_neg ha.ne', if_pos ha, value_of_pos ha, value_of_pos hb,
        compareSizes_eq (Int.natAbs_pos.mpr ha.ne') (Int.natAbs_pos.mpr hb.ne')]
  · rw [compare_gt_iff_gt.mpr hgt, compare_gt_iff_gt.mpr (value_lt_of_sign_lt hgt)]
    rfl

instance instTransOrd : Std.TransOrd Decimal where
  eq_swap {a b} := by
    rw [compare_eq, compare_eq]
    exact Std.OrientedOrd.eq_swap
  isLE_trans {a b c} := by
    rw [compare_eq, compare_eq, compare_eq]
    exact Std.TransOrd.isLE_trans

/-! ## One form for one value -/

theorem value_dropZeros (fuel : ℕ) (c s : ℤ) : (dropZeros fuel c s).value = value ⟨c, s⟩ := by
  induction fuel generalizing c s with
  | zero => rfl
  | succ fuel ih =>
      rw [dropZeros]
      split
      next hzero =>
        have hten : c = c / 10 * 10 := (Int.ediv_mul_cancel (Int.dvd_of_emod_eq_zero hzero)).symm
        have hexponent : -(s - 1) = 1 + -s := by omega
        rw [ih, value, value, hexponent, zpow_add₀ (by norm_num), zpow_one, ← mul_assoc]
        congr 1
        exact_mod_cast hten.symm
      next hlast => rfl

/-- With a step for each digit all zeros at the end are dropped. -/
theorem dropZeros_last {fuel : ℕ} {c s : ℤ} (hc : c ≠ 0) (hfuel : c.natAbs < 10 ^ fuel) :
    (dropZeros fuel c s).coefficient % 10 ≠ 0 := by
  induction fuel generalizing c s with
  | zero => omega
  | succ fuel ih =>
      rw [dropZeros]
      split
      next hzero =>
        rw [pow_succ] at hfuel
        exact ih (by omega) (by omega)
      next hlast => exact hlast

theorem value_normalize (d : Decimal) : d.normalize.value = d.value := by
  unfold normalize
  split
  next hzero => rw [value_of_zero hzero, value_of_zero rfl]
  next hother => exact value_dropZeros ..

theorem value_eq_zero_iff : a.value = 0 ↔ a.coefficient = 0 := by
  refine ⟨fun h => ?_, value_of_zero⟩
  rcases lt_trichotomy a.coefficient 0 with hneg | hzero | hpos
  · exact absurd h (value_neg hneg).ne
  · exact hzero
  · exact absurd h (value_pos hpos).ne'

/-- Two decimals of one value whose coefficients do not end in zero are the same. -/
theorem eq_of_value_eq (ha : a.coefficient % 10 ≠ 0) (hb : b.coefficient % 10 ≠ 0)
    (h : a.value = b.value) : a = b := by
  wlog hle : a.scale ≤ b.scale generalizing a b
  · exact (this hb ha h.symm (by omega)).symm
  have hcoefficient : b.coefficient = a.coefficient * 10 ^ (b.scale - a.scale).toNat := by
    have hexponent : -a.scale = ((b.scale - a.scale).toNat : ℤ) + -b.scale := by omega
    rw [value, value, hexponent, zpow_add₀ (by norm_num), zpow_natCast, ← mul_assoc] at h
    exact_mod_cast (mul_right_cancel₀ (zpow_pos (by norm_num) _).ne' h).symm
  have hnone : (b.scale - a.scale).toNat = 0 := by
    by_contra hmore
    -- a factor ten would leave a zero at the end
    obtain ⟨k, hk⟩ := Nat.exists_eq_succ_of_ne_zero hmore
    rw [hk, pow_succ, ← mul_assoc] at hcoefficient
    omega
  have hscale : a.scale = b.scale := by omega
  rw [hnone, pow_zero, mul_one] at hcoefficient
  calc a = ⟨a.coefficient, a.scale⟩ := rfl
    _ = b := by rw [← hcoefficient, hscale]

/-- **Decimals have one normal form just when they write one number.** -/
theorem normalize_eq_normalize_iff : a.normalize = b.normalize ↔ a.value = b.value := by
  constructor
  · intro h
    rw [← value_normalize a, h, value_normalize]
  · intro h
    have hzero : a.coefficient = 0 ↔ b.coefficient = 0 := by
      rw [← value_eq_zero_iff, h, value_eq_zero_iff]
    by_cases ha : a.coefficient = 0
    · rw [normalize, normalize, if_pos ha, if_pos (hzero.mp ha)]
    · have hb : b.coefficient ≠ 0 := mt hzero.mpr ha
      rw [← value_normalize a, ← value_normalize b, normalize, normalize, if_neg ha, if_neg hb] at h
      rw [normalize, normalize, if_neg ha, if_neg hb]
      exact eq_of_value_eq (dropZeros_last ha (lt_pow_digitCount _))
        (dropZeros_last hb (lt_pow_digitCount _)) h

end RecordQuery.Decimal
