import RecordQuery.Proofs.Number.Shortest

/-!
# Whole numbers among decimals and doubles

A decimal is a 32-bit whole number where the number that it writes is one, however it is written
(`Decimal.toInt32?_eq_some_iff`).

*Doubles.*  A double is lowered by its shortest digits, which may write another number than the
double has.  Whole numbers are not changed that way: the shortest digits of a double write a 32-bit
whole number exactly where the double is this number (`Double.value_toDecimal?_iff`).  Such digits
are read as the double, and of all whole numbers in this range only the double itself is
(`Double.eq_of_readAs_whole`).  The search for them finds the double on the grid of the whole
numbers, if not on a wider one, and every point of a wider grid is a whole number too.
-/

namespace RecordQuery

/-! ## Decimals -/

namespace Decimal

variable {d : Decimal} {c : Int32}

theorem int32_eq_some_iff {i : Int} :
    (if fitsSigned 32 i then some (Int32.ofInt i) else none) = some c ↔ i = c.toInt := by
  have hhalf : (twoTo (32 - 1) : Int) = 2 ^ 31 := by decide
  constructor
  · intro h
    split at h
    next hfits =>
      rw [fitsSigned, hhalf, Bool.and_eq_true, decide_eq_true_iff, decide_eq_true_iff] at hfits
      rw [← Option.some.inj h, Int32.toInt_ofInt_of_le (by omega) (by omega)]
    next => cases h
  · rintro rfl
    have hlow := c.le_toInt
    have hhigh := c.toInt_lt
    have hfits : fitsSigned 32 c.toInt = true := by
      rw [fitsSigned, hhalf, Bool.and_eq_true, decide_eq_true_iff, decide_eq_true_iff]
      omega
    rw [if_pos hfits, Int32.ofInt_toInt]

theorem abs_value (d : Decimal) : |d.value| = size d.coefficient.natAbs d.scale := by
  have hten : (0 : ℚ) < 10 ^ (-d.scale) := zpow_pos (by norm_num) _
  rw [value, abs_mul, abs_of_pos hten, size, Nat.cast_natAbs, Int.cast_abs]

/-- A number with more than ten digits in front of the point is no 32-bit number. -/
theorem value_ne_of_large (h : d.coefficient ≠ 0)
    (hlarge : 10 < (digitCount d.coefficient.natAbs : ℤ) - d.scale) : d.value ≠ c.toInt := by
  intro heq
  have hsize := le_size (Int.natAbs_pos.mpr h) d.scale
  have hten : (10 : ℚ) ^ (10 : ℤ) ≤ 10 ^ ((digitCount d.coefficient.natAbs : ℤ) - d.scale - 1) :=
    zpow_le_zpow_right₀ (by norm_num) (by omega)
  rw [← abs_value, heq, ← Int.cast_abs] at hsize
  have hcode : |c.toInt| < 10 ^ 10 := by
    have hlow := c.le_toInt
    have hhigh := c.toInt_lt
    exact abs_lt.mpr ⟨by omega, by omega⟩
  have hcode' : ((|c.toInt| : ℤ) : ℚ) < 10 ^ (10 : ℤ) := by exact_mod_cast hcode
  exact absurd (hten.trans hsize) (not_le.mpr hcode')

/-- A number with nothing but zero in front of the point is no whole number. -/
theorem value_ne_of_small (h : d.coefficient ≠ 0)
    (hsmall : (digitCount d.coefficient.natAbs : ℤ) ≤ d.scale) (n : ℤ) : d.value ≠ n := by
  intro heq
  have hpos := size_pos (Int.natAbs_pos.mpr h) d.scale
  have hlt := size_lt d.coefficient.natAbs d.scale
  have hone : (10 : ℚ) ^ ((digitCount d.coefficient.natAbs : ℤ) - d.scale) ≤ 1 :=
    zpow_le_one_of_nonpos₀ (by norm_num) (by omega)
  rw [← abs_value, heq, ← Int.cast_abs] at hpos hlt
  have hlower : 0 < |n| := by exact_mod_cast hpos
  have hupper : |n| < 1 := by exact_mod_cast hlt.trans_le hone
  omega

/-- **A decimal is a 32-bit whole number where the number that it writes is one.** -/
theorem toInt32?_eq_some_iff : d.toInt32? = some c ↔ d.value = c.toInt := by
  unfold toInt32?
  dsimp only
  split
  next hzero =>
    rw [value_of_zero hzero, Option.some.injEq, ← Int32.toInt_inj]
    exact_mod_cast Iff.rfl
  next hcoefficient =>
    split
    next hoff =>
      refine iff_of_false (by rintro ⟨⟩) ?_
      rcases hoff with hlarge | hsmall
      · exact value_ne_of_large hcoefficient hlarge
      · exact value_ne_of_small hcoefficient hsmall _
    next =>
      split
      next hwhole =>
        obtain ⟨k, hk⟩ : ∃ k : ℕ, -d.scale = k := ⟨(-d.scale).toNat, by omega⟩
        rw [int32_eq_some_iff, value, hk, Int.toNat_natCast, zpow_natCast, tenTo, Nat.pow_eq]
        exact_mod_cast Iff.rfl
      next hfraction =>
        obtain ⟨k, hk⟩ : ∃ k : ℕ, d.scale = k := ⟨d.scale.toNat, by omega⟩
        have hten : (0 : ℚ) < 10 ^ k := by positivity
        have hvalue : ∀ n : ℤ, d.value = n ↔ d.coefficient = n * (tenTo k : ℕ) := by
          intro n
          rw [value, hk, zpow_neg, zpow_natCast, mul_inv_eq_iff_eq_mul₀ hten.ne', tenTo, Nat.pow_eq]
          exact_mod_cast Iff.rfl
        rw [hk, Int.toNat_natCast, hvalue]
        split
        next hdivides =>
          rw [int32_eq_some_iff]
          exact Int.ediv_eq_iff_eq_mul_left (by exact_mod_cast (Nat.pow_pos (by decide)).ne')
            (Int.dvd_of_emod_eq_zero hdivides)
        next hrest =>
          refine iff_of_false (by rintro ⟨⟩) fun heq => hrest ?_
          rw [heq, Int.mul_emod_left]

end Decimal

/-! ## Doubles -/

namespace Double

variable {d : Double} {n : ℕ}

/-- The size of a finite double. -/
def size (d : Double) : ℚ := d.significand * 2 ^ d.power

/-- The number that a finite double is. -/
def value (d : Double) : ℚ := if d.isNegative then -d.size else d.size

theorem size_nonneg (d : Double) : 0 ≤ d.size := by
  unfold size
  positivity

theorem size_pos (h : 0 < d.significand) : 0 < d.size :=
  mul_pos (Nat.cast_pos.mpr h) (zpow_pos (by norm_num) _)

theorem sizeAt_place (d : Double) : sizeAt d.place = d.size := by
  rw [sizeAt, size, significand_eq, power_eq]

/-- A size is read as itself. -/
theorem readAs_size (h : 0 < d.significand) : ReadAs d.place d.size := by
  have hplace : d.place - 1 + 1 = d.place := by
    refine Nat.sub_add_cancel (Nat.pos_of_ne_zero fun hzero => ?_)
    rw [significand_eq, hzero] at h
    exact absurd h (by decide)
  have hbelow := sizeAt_lt_succ (d.place - 1)
  have habove := sizeAt_lt_succ d.place
  have hlow : halfway (d.place - 1) < d.size := by
    rw [halfway_eq, hplace, sizeAt_place]
    rw [hplace, sizeAt_place] at hbelow
    linarith
  have hhigh : d.size < halfway d.place := by
    rw [halfway_eq, sizeAt_place]
    rw [sizeAt_place] at habove
    linarith
  unfold ReadAs
  split
  · exact ⟨hlow.le, hhigh.le⟩
  · exact ⟨hlow, hhigh⟩

/-- In four quarters of the last binary place. -/
theorem size_eq_quarters (d : Double) : d.size = 4 * d.significand * 2 ^ (d.power - 2) := by
  rw [size, pow_eq_mul d.power 2]
  push_cast
  ring

/-- **A whole number that is read as a double is the double.**  Only sizes beyond `2 ^ 52` leave out
whole numbers. -/
theorem eq_of_readAs_whole (h : 0 < d.significand) (hn : n < 2 ^ 40) (hread : ReadAs d.place n) :
    (n : ℚ) = d.size := by
  obtain ⟨hlow, hhigh⟩ := hread.bounds
  rw [halfway_below h] at hlow
  rw [halfway_above] at hhigh
  have hquarters : 4 * d.significand - 2 ≤ d.lowQuarter := by
    unfold lowQuarter
    split <;> omega
  rcases lt_or_ge d.power 0 with hneg | hpos
  · -- quarters are parts of one, so the bounds are bounds on a multiple of four quarters
    obtain ⟨k, hk⟩ : ∃ k : ℕ, d.power - 2 = -((k + 2 : ℕ) : ℤ) := ⟨(-d.power).toNat, by omega⟩
    have hunit : (0 : ℚ) < 2 ^ (k + 2) := by positivity
    rw [hk, zpow_neg, zpow_natCast, ← div_eq_mul_inv, div_le_iff₀ hunit] at hlow
    rw [hk, zpow_neg, zpow_natCast, ← div_eq_mul_inv, le_div_iff₀ hunit] at hhigh
    have hfour : n * 2 ^ (k + 2) = 4 * (n * 2 ^ k) := by ring
    have hlow' : d.lowQuarter ≤ n * 2 ^ (k + 2) := by exact_mod_cast hlow
    have hhigh' : n * 2 ^ (k + 2) ≤ 4 * d.significand + 2 := by exact_mod_cast hhigh
    have hsame : n * 2 ^ k = d.significand := by omega
    rw [size_eq_quarters, hk, zpow_neg, zpow_natCast, ← hsame]
    push_cast
    field_simp
    ring
  · exfalso
    have hlarge : 2 ^ 52 ≤ d.significand := by
      rw [significand_eq, significandAt]
      rw [power_eq, powerAt] at hpos
      split <;> omega
    have hquarter : (2 : ℚ) ^ (-2 : ℤ) ≤ 2 ^ (d.power - 2) :=
      zpow_le_zpow_right₀ (by norm_num) (by omega)
    have hwide : ((2 ^ 50 : ℕ) : ℚ) ≤ d.lowQuarter := by
      exact_mod_cast (show 2 ^ 50 ≤ d.lowQuarter by omega)
    have hproduct : ((2 ^ 48 : ℕ) : ℚ) ≤ n :=
      calc ((2 ^ 48 : ℕ) : ℚ) = (2 ^ 50 : ℕ) * 2 ^ (-2 : ℤ) := by norm_num
        _ ≤ d.lowQuarter * 2 ^ (d.power - 2) :=
            mul_le_mul hwide hquarter (by norm_num) (Nat.cast_nonneg _)
        _ ≤ n := hlow
    have hbound : 2 ^ 48 ≤ n := by exact_mod_cast hproduct
    omega

/-- The grid of the whole numbers has a double that is a whole number as its nearest point. -/
theorem nearest_whole (hsize : d.size = n) : d.nearest 0 = n := by
  obtain ⟨u, -, hquarters, hsteps⟩ := d.exists_unit 0
  have hvalue : 4 * d.significand * d.quarter 0 = n * d.gridStep 0 := by
    have hcast : ((4 * d.significand * d.quarter 0 : ℕ) : ℚ) = (n * d.gridStep 0 : ℕ) := by
      rw [hquarters, hsteps, ← hsize, size_eq_quarters]
      push_cast
      ring
    exact_mod_cast hcast
  have hstep := d.gridStep_pos 0
  unfold nearest
  dsimp only
  rw [hvalue, Nat.mul_div_cancel _ hstep, Nat.sub_self, Nat.succ_mul, Nat.add_sub_cancel_left,
    if_pos hstep]

theorem firstGrid_nonneg (hsize : 1 ≤ d.size) : 0 ≤ d.firstGrid := by
  have hratio := d.cast_numerator
  have hden : twoTo (-d.power).toNat ≤ d.significand * twoTo d.power.toNat := by
    rw [← @Nat.cast_le ℚ, hratio]
    exact le_mul_of_one_le_left (Nat.cast_nonneg _) hsize
  have hdigits := (Nat.length_toDigits_le_iff (by decide) Nat.length_toDigits_pos).mpr
    (hden.trans_lt (Decimal.lt_pow_digitCount _))
  change Decimal.digitCount (twoTo (-d.power).toNat) ≤
    Decimal.digitCount (d.significand * twoTo d.power.toNat) at hdigits
  unfold firstGrid
  omega

/-- The shortest digits of a whole number stand on a grid of whole numbers. -/
theorem shortest_exponent_nonneg (h : 0 < d.significand) (hn : n < 2 ^ 32) (hsize : d.size = n) :
    0 ≤ d.shortest.exponent := by
  have hone : 1 ≤ d.size := by
    have hpos := size_pos h
    rw [hsize] at hpos ⊢
    exact_mod_cast hpos
  have hfirst := firstGrid_nonneg hone
  obtain ⟨k, hk⟩ : ∃ k : ℕ, d.firstGrid = k := ⟨d.firstGrid.toNat, by omega⟩
  have hfuel : k < 20 := by
    have hlt := firstGrid_lt h
    change _ < d.size at hlt
    rw [hsize, hk] at hlt
    by_contra hlarge
    have hten : (10 : ℚ) ^ (10 : ℤ) ≤ 10 ^ ((k : ℤ) - 1) :=
      zpow_le_zpow_right₀ (by norm_num) (by omega)
    have hbound : 10 ^ 10 < n := by exact_mod_cast hten.trans_lt hlt
    omega
  have hsome : (gridPoint? d (d.firstGrid - k)).isSome = true := by
    have hreads : d.reads 0 (d.nearest 0) = true := by
      rw [nearest_whole hsize, reads_iff h, zpow_zero, mul_one, ← hsize]
      exact readAs_size h
    obtain ⟨other, heq⟩ := gridPoint?_eq d 0
    rw [hk, sub_self, heq, if_pos hreads]
    rfl
  obtain ⟨e, hlow, -, hfound⟩ := exists_gridPoint? hfuel hsome
  have hexponent := (readAs_of_gridPoint? h hfound).1
  change d.shortest.exponent = e at hexponent
  omega

theorem written_whole_iff (hn : n < 2 ^ 32) : d.writtenSize = n ↔ d.size = n := by
  rcases Nat.eq_zero_or_pos d.significand with hzero | hpos
  · rw [writtenSize_eq_zero hzero, size, hzero, Nat.cast_zero, zero_mul]
  have hread := readAs_writtenSize hpos
  constructor
  · intro hwritten
    rw [hwritten] at hread
    exact (eq_of_readAs_whole hpos (hn.trans (by decide)) hread).symm
  · intro hsize
    have hexponent := shortest_exponent_nonneg hpos hn hsize
    obtain ⟨k, hk⟩ : ∃ k : ℕ, d.shortest.exponent = k := ⟨d.shortest.exponent.toNat, by omega⟩
    have hwhole : d.writtenSize = (d.shortest.digits * 10 ^ k : ℕ) := by
      rw [writtenSize, written, if_neg hpos.ne', hk, zpow_natCast]
      push_cast
      rfl
    rw [hwhole] at hread ⊢
    refine (eq_of_readAs_whole hpos ?_ hread).trans hsize
    -- what is read as a double is less than twice its size
    have hhigh := hread.bounds.2
    have hlast : (2 : ℚ) ^ d.power ≤ d.size :=
      le_mul_of_one_le_left (zpow_pos (by norm_num) _).le (by exact_mod_cast hpos)
    have hhalf : halfway d.place = d.size + 2 ^ d.power / 2 := by
      rw [halfway_above, size_eq_quarters, pow_eq_mul d.power 2]
      push_cast
      ring
    have htwice : ((d.shortest.digits * 10 ^ k : ℕ) : ℚ) ≤ (2 * n : ℕ) := by
      push_cast at hhigh ⊢
      rw [← hsize]
      linarith
    have hbound : d.shortest.digits * 10 ^ k ≤ 2 * n := by exact_mod_cast htwice
    omega

/-- The decimal of a double has its shortest digits and its sign. -/
theorem value_of_toDecimal? {x : Decimal} (h : d.toDecimal? = some x) :
    x.value = if d.isNegative then -d.writtenSize else d.writtenSize := by
  unfold toDecimal? at h
  split at h
  next => cases h
  next =>
    split at h
    next hzero =>
      rw [writtenSize_eq_zero hzero, neg_zero, ite_self, ← Option.some.inj h]
      exact Decimal.value_of_zero rfl
    next hpos =>
      have hsize : ((d.shortest.digits * tenTo d.shortest.exponent.toNat : ℤ) : ℚ) *
          10 ^ (-((-d.shortest.exponent).toNat : ℤ)) = d.writtenSize := by
        rw [writtenSize, written, if_neg hpos, tenTo, Nat.pow_eq, zpow_neg, zpow_natCast]
        push_cast
        rw [zpow_toNat (by norm_num)]
        field_simp
      rw [← Option.some.inj h, Decimal.value]
      dsimp only
      split
      next =>
        rw [Int.cast_neg, neg_mul, hsize]
      next => exact hsize

theorem writtenSize_nonneg (d : Double) : 0 ≤ d.writtenSize := by
  unfold writtenSize
  positivity

/-- **The decimal of a double is a 32-bit whole number where the double is this number.** -/
theorem value_toDecimal?_iff {x : Decimal} (h : d.toDecimal? = some x) (c : Int32) :
    x.value = c.toInt ↔ d.value = c.toInt := by
  have hcode : c.toInt.natAbs < 2 ^ 32 := by
    have hlow := c.le_toInt
    have hhigh := c.toInt_lt
    omega
  have hsizes : ∀ z : ℤ, z.natAbs = c.toInt.natAbs → (d.writtenSize = z ↔ d.size = z) := by
    intro z hz
    rcases lt_or_ge z 0 with hneg | hnonneg
    · have hbelow : (z : ℚ) < 0 := by exact_mod_cast hneg
      exact iff_of_false (hbelow.trans_le d.writtenSize_nonneg).ne'
        (hbelow.trans_le d.size_nonneg).ne'
    · obtain ⟨n, rfl⟩ := Int.eq_ofNat_of_zero_le hnonneg
      rw [Int.cast_natCast]
      refine written_whole_iff ?_
      rw [← hz] at hcode
      exact hcode
  rw [value_of_toDecimal? h, value]
  split
  next =>
    rw [neg_eq_iff_eq_neg, neg_eq_iff_eq_neg, ← Int.cast_neg]
    exact hsizes _ (Int.natAbs_neg _)
  next => exact hsizes _ rfl

end Double

end RecordQuery
