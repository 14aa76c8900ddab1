import Mathlib.Tactic.FieldSimp
import Mathlib.Tactic.Linarith
import Mathlib.Tactic.Positivity
import Mathlib.Tactic.Ring
import RecordQuery.Number.Double
import RecordQuery.Proofs.Number.Text

/-!
# A double is told by its text

The bits of a double below its sign count the sizes of doubles upwards (`Double.sizeAt`).  A number
is read as the size it is nearest to, a number half way between two sizes as the even one, so no
number is read as two sizes (`Double.eq_of_readAs`).

*Digits.*  Whatever the search for the shortest digits finds is read as the double it began with
(`Double.readAs_of_gridPoint?`).  It begins at a grid about as wide as the double and finds a point
at the latest where a step of the grid is less than half the distance of the sizes, that is within
nineteen grids (`Double.exists_gridPoint?`).

So the text of a finite double has digits that are read as this double alone, and doubles of one
text are one double (`Double.text_inj`).
-/

namespace RecordQuery.Double

/-! ## Sizes -/

/-- The whole number `m` of the size `m * 2 ^ q` that comes at a place in the order of sizes. -/
def significandAt (b : ℕ) : ℕ := if b / 2 ^ 52 = 0 then b % 2 ^ 52 else b % 2 ^ 52 + 2 ^ 52

/-- The power `q` of the size `m * 2 ^ q` that comes at a place in the order of sizes. -/
def powerAt (b : ℕ) : ℤ := (max (b / 2 ^ 52) 1 : ℕ) - 1075

/-- The size that comes at a place in the order of sizes. -/
def sizeAt (b : ℕ) : ℚ := significandAt b * 2 ^ powerAt b

/-- The number half way between two sizes. -/
def halfway (b : ℕ) : ℚ := (4 * significandAt b + 2) * 2 ^ (powerAt b - 2)

theorem pow_eq_mul (q : ℤ) (n : ℕ) : (2 : ℚ) ^ q = 2 ^ n * 2 ^ (q - n) := by
  rw [← zpow_natCast, ← zpow_add₀ (by norm_num)]
  congr 1
  omega

/-- The next significand belongs to the same power, or is the first one of the next power. -/
theorem next_cases (b : ℕ) :
    (significandAt (b + 1) = significandAt b + 1 ∧ powerAt (b + 1) = powerAt b ∧
      ¬ (significandAt (b + 1) = 2 ^ 52 ∧ 1 < (b + 1) / 2 ^ 52)) ∨
    (significandAt (b + 1) = 2 ^ 52 ∧ significandAt b + 1 = 2 * 2 ^ 52 ∧
      powerAt b = powerAt (b + 1) - (1 : ℕ) ∧ 1 < (b + 1) / 2 ^ 52) := by
  by_cases hsame : b % 2 ^ 52 + 1 < 2 ^ 52
  · have hdiv : (b + 1) / 2 ^ 52 = b / 2 ^ 52 := by omega
    have hmod : (b + 1) % 2 ^ 52 = b % 2 ^ 52 + 1 := by omega
    left
    unfold significandAt powerAt
    rw [hdiv, hmod]
    split <;> omega
  · have hdiv : (b + 1) / 2 ^ 52 = b / 2 ^ 52 + 1 := by omega
    have hmod : (b + 1) % 2 ^ 52 = 0 := by omega
    unfold significandAt powerAt
    rw [hdiv, hmod, if_neg (Nat.succ_ne_zero _)]
    split
    next hzero =>
      left
      rw [hzero]
      refine ⟨by omega, rfl, by omega⟩
    next hpos =>
      right
      refine ⟨by omega, by omega, ?_, by omega⟩
      rw [max_eq_left (by omega), max_eq_left (by omega)]
      omega

/-- Two sizes that follow each other are a unit of the smaller one's power apart. -/
theorem sizeAt_succ (b : ℕ) : sizeAt (b + 1) = (significandAt b + 1) * 2 ^ powerAt b := by
  rw [sizeAt]
  rcases next_cases b with ⟨hnext, hpower, -⟩ | ⟨hnext, hfull, hpower, -⟩
  · rw [hnext, hpower]
    push_cast
    rfl
  · have hcast : (significandAt b + 1 : ℚ) = 2 * 2 ^ 52 := by exact_mod_cast hfull
    rw [hnext, hcast, hpower, pow_eq_mul (powerAt (b + 1)) 1]
    push_cast
    ring

theorem halfway_eq (b : ℕ) : halfway b = (sizeAt b + sizeAt (b + 1)) / 2 := by
  rw [sizeAt_succ, halfway, sizeAt, pow_eq_mul (powerAt b) 2]
  push_cast
  ring

theorem sizeAt_lt_succ (b : ℕ) : sizeAt b < sizeAt (b + 1) := by
  rw [sizeAt_succ, sizeAt]
  have hpos : (0 : ℚ) < 2 ^ powerAt b := zpow_pos (by norm_num) _
  linarith

theorem strictMono_halfway : StrictMono halfway := by
  refine strictMono_nat_of_lt_succ fun b => ?_
  have hfirst := sizeAt_lt_succ b
  have hnext := sizeAt_lt_succ (b + 1)
  rw [halfway_eq, halfway_eq]
  linarith

/-- A number is nearest to the size at a place, or half way to its neighbour and the place even. -/
def ReadAs (b : ℕ) (x : ℚ) : Prop :=
  if b % 2 = 0 then halfway (b - 1) ≤ x ∧ x ≤ halfway b else halfway (b - 1) < x ∧ x < halfway b

theorem ReadAs.bounds {b : ℕ} {x : ℚ} (h : ReadAs b x) : halfway (b - 1) ≤ x ∧ x ≤ halfway b := by
  unfold ReadAs at h
  split at h
  · exact h
  · exact ⟨h.1.le, h.2.le⟩

/-- A number read as two sizes is half way between them, and one of them is odd. -/
theorem not_readAs_of_lt {b c : ℕ} {x : ℚ} (hbc : b < c) (hb : ReadAs b x) : ¬ ReadAs c x := by
  intro hc
  have hup := hb.bounds.2
  have hdown := hc.bounds.1
  have hnext : c - 1 = b := by
    refine le_antisymm ?_ (by omega)
    exact strictMono_halfway.le_iff_le.mp (hdown.trans hup)
  unfold ReadAs at hb hc
  rw [hnext] at hc hdown
  by_cases heven : b % 2 = 0
  · rw [if_neg (by omega)] at hc
    exact absurd hc.1 (not_lt.mpr hup)
  · rw [if_neg heven] at hb
    exact absurd hb.2 (not_lt.mpr hdown)

/-- **No number is read as two sizes.** -/
theorem eq_of_readAs {b c : ℕ} {x : ℚ} (hb : ReadAs b x) (hc : ReadAs c x) : b = c := by
  rcases lt_trichotomy b c with hlt | heq | hgt
  · exact absurd hc (not_readAs_of_lt hlt hb)
  · exact heq
  · exact absurd hb (not_readAs_of_lt hgt hc)

/-! ## The size of a double -/

variable {d : Double}

/-- The place of the size of a double in the order of sizes. -/
def place (d : Double) : ℕ := d.bits.toNat % 2 ^ 63

theorem exponentBits_eq (d : Double) : d.exponentBits = d.place / 2 ^ 52 := by
  have hfraction : twoTo 52 = 2 ^ 52 := rfl
  have hexponent : twoTo 11 = 2 ^ 11 := rfl
  rw [exponentBits, place, hfraction, hexponent]
  omega

theorem fractionBits_eq (d : Double) : d.fractionBits = d.place % 2 ^ 52 := by
  have hfraction : twoTo 52 = 2 ^ 52 := rfl
  rw [fractionBits, place, hfraction]
  omega

theorem significand_eq (d : Double) : d.significand = significandAt d.place := by
  rw [significand, significandAt, exponentBits_eq, fractionBits_eq]
  rfl

theorem power_eq (d : Double) : d.power = powerAt d.place := by
  rw [power, powerAt, exponentBits_eq]
  split <;> omega

/-- The lower end of what is read as a double, in quarters of its last binary place. -/
def lowQuarter (d : Double) : ℕ :=
  if d.significand = twoTo 52 ∧ d.exponentBits > 1 then 4 * d.significand - 1
  else 4 * d.significand - 2

theorem halfway_above (d : Double) :
    halfway d.place = ((4 * d.significand + 2 : ℕ) : ℚ) * 2 ^ (d.power - 2) := by
  rw [halfway, significand_eq, power_eq]
  push_cast
  rfl

theorem halfway_below (h : 0 < d.significand) :
    halfway (d.place - 1) = d.lowQuarter * 2 ^ (d.power - 2) := by
  have htwo : twoTo 52 = 2 ^ 52 := rfl
  rw [halfway, lowQuarter, power_eq, exponentBits_eq, htwo]
  rw [significand_eq] at h ⊢
  cases hplace : d.place with
  | zero =>
      rw [hplace] at h
      exact absurd h (by decide)
  | succ b =>
      rw [Nat.add_sub_cancel]
      rcases next_cases b with ⟨hnext, hpower, hlater⟩ | ⟨hnext, hfull, hpower, hfirst⟩
      · have hquarters : 4 * (significandAt b + 1) - 2 = 4 * significandAt b + 2 := by omega
        rw [if_neg hlater, hnext, hpower, hquarters]
        push_cast
        rfl
      · -- the sizes below the first one of a power lie twice as close
        have hcast : (significandAt b : ℚ) = 2 * 2 ^ 52 - 1 := by
          rw [eq_sub_iff_add_eq]
          exact_mod_cast hfull
        have hshift : powerAt (b + 1) - (1 : ℕ) - 2 = powerAt (b + 1) - 2 - (1 : ℕ) := by omega
        rw [if_pos ⟨hnext, hfirst⟩, hnext, hcast, hpower, hshift,
          pow_eq_mul (powerAt (b + 1) - 2) 1]
        norm_num
        ring

/-! ## Grids -/

/-- A quarter of the last binary place of a double, in the unit that it shares with a grid. -/
def quarter (d : Double) (e : ℤ) : ℕ := twoTo (d.power - 2).toNat * tenTo (-e).toNat

/-- A step of a grid, in the unit that it shares with the binary places of a double. -/
def gridStep (d : Double) (e : ℤ) : ℕ := tenTo e.toNat * twoTo (-(d.power - 2)).toNat

/-- A point of a grid is read as a double. -/
def reads (d : Double) (e : ℤ) (c : ℕ) : Bool :=
  if d.significand % 2 = 0 then
    d.lowQuarter * d.quarter e ≤ c * d.gridStep e &&
      c * d.gridStep e ≤ (4 * d.significand + 2) * d.quarter e
  else
    d.lowQuarter * d.quarter e < c * d.gridStep e &&
      c * d.gridStep e < (4 * d.significand + 2) * d.quarter e

theorem zpow_toNat {x : ℚ} (hx : x ≠ 0) (k : ℤ) :
    (x ^ k.toNat : ℚ) = x ^ k * x ^ (-k).toNat := by
  rw [← zpow_natCast, ← zpow_natCast, ← zpow_add₀ hx]
  congr 1
  omega

/-- Quarters and steps are compared by their values. -/
theorem exists_unit (d : Double) (e : ℤ) : ∃ u : ℚ, 0 < u ∧
    (∀ a : ℕ, ((a * d.quarter e : ℕ) : ℚ) = a * 2 ^ (d.power - 2) * u) ∧
      ∀ c : ℕ, ((c * d.gridStep e : ℕ) : ℚ) = c * 10 ^ e * u := by
  refine ⟨2 ^ (-(d.power - 2)).toNat * 10 ^ (-e).toNat, by positivity, fun a => ?_, fun c => ?_⟩
  · rw [quarter, twoTo, tenTo, Nat.pow_eq, Nat.pow_eq]
    push_cast
    rw [zpow_toNat (by norm_num)]
    ring
  · rw [gridStep, twoTo, tenTo, Nat.pow_eq, Nat.pow_eq]
    push_cast
    rw [zpow_toNat (by norm_num)]
    ring

theorem quarters_le_iff (a c : ℕ) (e : ℤ) : a * d.quarter e ≤ c * d.gridStep e ↔
    (a : ℚ) * 2 ^ (d.power - 2) ≤ c * 10 ^ e := by
  obtain ⟨u, hu, hquarters, hsteps⟩ := exists_unit d e
  rw [← @Nat.cast_le ℚ, hquarters, hsteps, mul_le_mul_iff_left₀ hu]

theorem le_quarters_iff (a c : ℕ) (e : ℤ) : c * d.gridStep e ≤ a * d.quarter e ↔
    (c : ℚ) * 10 ^ e ≤ a * 2 ^ (d.power - 2) := by
  obtain ⟨u, hu, hquarters, hsteps⟩ := exists_unit d e
  rw [← @Nat.cast_le ℚ, hquarters, hsteps, mul_le_mul_iff_left₀ hu]

theorem quarters_lt_iff (a c : ℕ) (e : ℤ) : a * d.quarter e < c * d.gridStep e ↔
    (a : ℚ) * 2 ^ (d.power - 2) < c * 10 ^ e := by
  rw [← not_le, le_quarters_iff, not_le]

theorem lt_quarters_iff (a c : ℕ) (e : ℤ) : c * d.gridStep e < a * d.quarter e ↔
    (c : ℚ) * 10 ^ e < a * 2 ^ (d.power - 2) := by
  rw [← not_le, quarters_le_iff, not_le]

theorem place_mod_two (d : Double) : d.place % 2 = d.significand % 2 := by
  rw [significand_eq, significandAt]
  split <;> omega

theorem reads_iff (h : 0 < d.significand) (e : ℤ) (c : ℕ) :
    d.reads e c = true ↔ ReadAs d.place (c * 10 ^ e) := by
  rw [reads, ReadAs, place_mod_two, halfway_below h, halfway_above]
  split
  · rw [Bool.and_eq_true, decide_eq_true_iff, decide_eq_true_iff, quarters_le_iff, le_quarters_iff]
  · rw [Bool.and_eq_true, decide_eq_true_iff, decide_eq_true_iff, quarters_lt_iff, lt_quarters_iff]

/-- The point of a grid that is nearest to a double. -/
def nearest (d : Double) (e : ℤ) : ℕ :=
  let value := 4 * d.significand * d.quarter e
  let below := value / d.gridStep e
  if value - below * d.gridStep e < (below + 1) * d.gridStep e - value then below else below + 1

theorem gridPoint?_eq (d : Double) (e : ℤ) : ∃ other : ℕ, gridPoint? d e =
    if d.reads e (d.nearest e) then some ⟨d.nearest e, e⟩
    else if d.reads e other then some ⟨other, e⟩ else none :=
  ⟨_, rfl⟩

/-- What is found on a grid is read as the double. -/
theorem readAs_of_gridPoint? (h : 0 < d.significand) {e : ℤ} {p : GridPoint}
    (hp : gridPoint? d e = some p) :
    p.exponent = e ∧ ReadAs d.place (p.digits * 10 ^ p.exponent) := by
  obtain ⟨other, heq⟩ := gridPoint?_eq d e
  rw [heq] at hp
  split at hp
  next hreads =>
    cases hp
    exact ⟨rfl, (reads_iff h e _).mp hreads⟩
  next =>
    split at hp
    next hreads =>
      cases hp
      exact ⟨rfl, (reads_iff h e _).mp hreads⟩
    next => cases hp

theorem gridStep_pos (d : Double) (e : ℤ) : 0 < d.gridStep e :=
  Nat.mul_pos (Nat.pow_pos (by decide)) (Nat.pow_pos (by decide))

/-- The nearest point of a grid is off by less than a quarter where two quarters are more than a
step. -/
theorem nearest_bounds {e : ℤ} (hstep : d.gridStep e < 2 * d.quarter e) :
    4 * d.significand * d.quarter e < d.nearest e * d.gridStep e + d.quarter e ∧
      d.nearest e * d.gridStep e < 4 * d.significand * d.quarter e + d.quarter e := by
  have hpos := d.gridStep_pos e
  have hdiv := Nat.div_add_mod (4 * d.significand * d.quarter e) (d.gridStep e)
  have hmod := Nat.mod_lt (4 * d.significand * d.quarter e) hpos
  rw [Nat.mul_comm] at hdiv
  unfold nearest
  dsimp only
  rw [Nat.add_mul, Nat.one_mul]
  split
  next hbelow => omega
  next habove =>
    rw [Nat.add_mul, Nat.one_mul]
    omega

/-- A grid of small steps has a point that is read as the double. -/
theorem isSome_gridPoint? (h : 0 < d.significand) {e : ℤ}
    (hstep : d.gridStep e < 2 * d.quarter e) : (gridPoint? d e).isSome = true := by
  obtain ⟨hup, hdown⟩ := nearest_bounds hstep
  have hlow : d.lowQuarter * d.quarter e + d.quarter e ≤ 4 * d.significand * d.quarter e := by
    rw [← Nat.succ_mul]
    refine Nat.mul_le_mul_right _ ?_
    unfold lowQuarter
    split <;> omega
  have hhigh : (4 * d.significand + 2) * d.quarter e =
      4 * d.significand * d.quarter e + 2 * d.quarter e := Nat.add_mul _ _ _
  have hreads : d.reads e (d.nearest e) = true := by
    unfold reads
    split
    all_goals
      rw [Bool.and_eq_true, decide_eq_true_iff, decide_eq_true_iff]
      omega
  obtain ⟨other, heq⟩ := gridPoint?_eq d e
  rw [heq, if_pos hreads]
  rfl

/-- The search finds a point at the latest on a grid that has one. -/
theorem exists_gridPoint? {fuel : ℕ} {e : ℤ} {k : ℕ} (hk : k < fuel)
    (h : (gridPoint? d (e - k)).isSome = true) :
    ∃ e', e - k ≤ e' ∧ e' ≤ e ∧ gridPoint? d e' = some (searchGrids d fuel e) := by
  induction fuel generalizing e k with
  | zero => exact absurd hk (Nat.not_lt_zero k)
  | succ fuel ih =>
      rw [searchGrids]
      cases hfirst : gridPoint? d e with
      | some p => exact ⟨e, by omega, le_refl e, hfirst⟩
      | none =>
          cases k with
          | zero =>
              rw [Nat.cast_zero, sub_zero, hfirst] at h
              cases h
          | succ k =>
              have hexponent : e - 1 - (k : ℤ) = e - (k + 1 : ℕ) := by omega
              obtain ⟨e', hlow, hhigh, hfound⟩ := ih (e := e - 1) (Nat.lt_of_succ_lt_succ hk)
                (by rw [hexponent]; exact h)
              exact ⟨e', by omega, by omega, hfound⟩

/-! ## Shortest digits -/

theorem significand_lt (d : Double) : d.significand < 2 ^ 53 := by
  rw [significand_eq, significandAt]
  split <;> omega

/-- The grid that the search begins at. -/
def firstGrid (d : Double) : ℤ :=
  Decimal.digitCount (d.significand * twoTo d.power.toNat) -
    Decimal.digitCount (twoTo (-d.power).toNat)

/-- The size of a double is the quotient of two whole numbers. -/
theorem cast_numerator (d : Double) : ((d.significand * twoTo d.power.toNat : ℕ) : ℚ) =
    d.significand * 2 ^ d.power * (twoTo (-d.power).toNat : ℕ) := by
  rw [twoTo, twoTo, Nat.pow_eq, Nat.pow_eq]
  push_cast
  rw [zpow_toNat (by norm_num), mul_assoc]

/-- The search begins at a grid not much wider than the double. -/
theorem firstGrid_lt (h : 0 < d.significand) :
    (10 : ℚ) ^ (d.firstGrid - 1) < d.significand * 2 ^ d.power := by
  have hratio := d.cast_numerator
  obtain ⟨num, hnum⟩ : ∃ num, num = d.significand * twoTo d.power.toNat := ⟨_, rfl⟩
  obtain ⟨den, hden⟩ : ∃ den, den = twoTo (-d.power).toNat := ⟨_, rfl⟩
  have hpos : 0 < num := hnum ▸ Nat.mul_pos h (Nat.pow_pos (by decide))
  have hlow : (10 : ℚ) ^ (Decimal.digitCount num - 1) ≤ num := by
    exact_mod_cast Decimal.pow_digitCount_le hpos
  have hhigh : (den : ℚ) < 10 ^ Decimal.digitCount den := by
    exact_mod_cast Decimal.lt_pow_digitCount den
  have hdigits : 0 < Decimal.digitCount num := Nat.length_toDigits_pos
  have hexponent : (10 : ℚ) ^ (Decimal.digitCount num - 1) =
      10 ^ (d.firstGrid - 1) * 10 ^ Decimal.digitCount den := by
    rw [← zpow_natCast, ← zpow_natCast, ← zpow_add₀ (by norm_num), firstGrid, ← hnum, ← hden]
    congr 1
    omega
  rw [← hnum, ← hden] at hratio
  rw [hexponent, hratio] at hlow
  have hdenominator : (0 : ℚ) < den := by
    rw [hden]
    exact_mod_cast Nat.pow_pos (show 0 < 2 by decide)
  have hgrid : (0 : ℚ) < 10 ^ (d.firstGrid - 1) := zpow_pos (by norm_num) _
  refine lt_of_mul_lt_mul_right ?_ hdenominator.le
  exact (mul_lt_mul_of_pos_left hhigh hgrid).trans_le hlow

theorem digitCount_le {n k : ℕ} (hk : 0 < k) (h : n < 2 ^ k) : Decimal.digitCount n ≤ k :=
  (Nat.length_toDigits_le_iff (by decide) hk).mpr
    (h.trans_le (Nat.pow_le_pow_left (by decide) k))

theorem power_bounds (d : Double) : -1074 ≤ d.power ∧ d.power ≤ 972 := by
  have hplace : d.place < 2 ^ 63 := Nat.mod_lt _ (by decide)
  rw [power_eq, powerAt]
  omega

theorem firstGrid_bounds (d : Double) : -1100 ≤ d.firstGrid ∧ d.firstGrid ≤ 1100 := by
  obtain ⟨hlow, hhigh⟩ := d.power_bounds
  have hnum : d.significand * twoTo d.power.toNat < 2 ^ (53 + d.power.toNat) := by
    rw [Nat.pow_add]
    exact Nat.mul_lt_mul_of_pos_right d.significand_lt (Nat.pow_pos (by decide))
  have hden : twoTo (-d.power).toNat < 2 ^ ((-d.power).toNat + 1) :=
    Nat.pow_lt_pow_right (by decide) (Nat.lt_succ_self _)
  have hnumDigits := digitCount_le (by omega) hnum
  have hdenDigits := digitCount_le (by omega) hden
  unfold firstGrid
  omega

/-- Eighteen grids further the steps are small. -/
theorem gridStep_lt (h : 0 < d.significand) :
    d.gridStep (d.firstGrid - (18 : ℕ)) < 2 * d.quarter (d.firstGrid - (18 : ℕ)) := by
  rw [← Nat.one_mul (d.gridStep _), lt_quarters_iff]
  have hfirst := firstGrid_lt h
  have hsignificand : (d.significand : ℚ) < 2 ^ 53 := by exact_mod_cast d.significand_lt
  have hpower : (0 : ℚ) < 2 ^ (d.power - 2) := zpow_pos (by norm_num) _
  have hten : (10 : ℚ) ^ (d.firstGrid - 1) = 10 ^ 17 * 10 ^ (d.firstGrid - (18 : ℕ)) := by
    rw [← zpow_natCast, ← zpow_add₀ (by norm_num)]
    congr 1
    push_cast
    ring
  rw [hten, pow_eq_mul d.power 2] at hfirst
  push_cast at hfirst ⊢
  nlinarith

theorem shortest_spec (h : 0 < d.significand) :
    ReadAs d.place (d.shortest.digits * 10 ^ d.shortest.exponent) ∧
      d.firstGrid - 18 ≤ d.shortest.exponent ∧ d.shortest.exponent ≤ d.firstGrid := by
  obtain ⟨e, hlow, hhigh, hfound⟩ := exists_gridPoint? (show 18 < 20 by decide)
    (isSome_gridPoint? h (gridStep_lt h))
  obtain ⟨hexponent, hread⟩ := readAs_of_gridPoint? h hfound
  have hshortest : searchGrids d 20 d.firstGrid = d.shortest := rfl
  rw [hshortest] at hexponent hread
  refine ⟨hread, ?_, ?_⟩ <;> omega

/-! ## Texts -/

/-- The digits that are written for the size of a finite double. -/
def written (d : Double) : GridPoint := if d.significand = 0 then ⟨0, 0⟩ else d.shortest

theorem isNaN_of_isFinite (h : d.isFinite = true) : d.isNaN = false := by
  rw [isFinite, decide_eq_true_iff] at h
  rw [isNaN, Bool.and_eq_false_iff]
  exact .inl (decide_eq_false h)

theorem text_eq (h : d.isFinite = true) : d.text.toList = Decimal.signChars d.isNegative ++
    Decimal.positional (Text.natDigits d.written.digits) (-d.written.exponent) := by
  rw [text, isNaN_of_isFinite h, if_neg Bool.false_ne_true, h, String.toList_ofList, written]
  by_cases hzero : d.significand = 0
  · rw [if_pos hzero, if_pos hzero]
    cases d.isNegative <;> decide
  · rw [if_neg hzero, if_neg hzero]
    cases d.isNegative <;> rfl

/-- The number that is written for the size of a double. -/
def writtenSize (d : Double) : ℚ := d.written.digits * 10 ^ d.written.exponent

theorem writtenSize_eq_zero (h : d.significand = 0) : d.writtenSize = 0 := by
  rw [writtenSize, written, if_pos h, Nat.cast_zero, zero_mul]

theorem readAs_writtenSize (h : 0 < d.significand) : ReadAs d.place d.writtenSize := by
  rw [writtenSize, written, if_neg h.ne']
  exact (shortest_spec h).1

theorem writtenSize_pos (h : 0 < d.significand) : 0 < d.writtenSize := by
  have hlow : (0 : ℚ) < halfway (d.place - 1) := by
    unfold halfway
    positivity
  exact hlow.trans_le (readAs_writtenSize h).bounds.1

theorem fitsSigned_written (d : Double) : fitsSigned 64 (-d.written.exponent) = true := by
  have hbounds : -2000 ≤ d.written.exponent ∧ d.written.exponent ≤ 2000 := by
    unfold written
    split
    next => decide
    next hpos =>
      obtain ⟨-, hlow, hhigh⟩ := shortest_spec (Nat.pos_of_ne_zero hpos)
      have hfirst := d.firstGrid_bounds
      omega
  have hbits : twoTo (64 - 1) = 2 ^ 63 := rfl
  rw [fitsSigned, hbits, Bool.and_eq_true, decide_eq_true_iff, decide_eq_true_iff]
  omega

/-- Digits with their point are read as the number they write. -/
theorem exists_value_positional (n : ℕ) {s : ℤ} (hs : fitsSigned 64 s = true) :
    ∃ x, Decimal.ofChars? (Decimal.positional (Text.natDigits n) s) = some x ∧
      x.value = n * 10 ^ (-s) := by
  refine ⟨_, Decimal.ofChars?_positional false n hs, ?_⟩
  split
  next hwhole =>
    obtain ⟨k, rfl⟩ : ∃ k : ℕ, s = -k := ⟨(-s).toNat, by omega⟩
    rw [Decimal.value, Decimal.signed, if_neg Bool.false_ne_true, neg_neg, Int.toNat_natCast,
      tenTo, Nat.pow_eq, zpow_natCast]
    simp
  next hfraction =>
    rw [Decimal.value, Decimal.signed, if_neg Bool.false_ne_true]
    simp

theorem not_mem_positional {c : Char} (hdigit : c.isDigit = false) (hpoint : c ≠ '.') (n : ℕ)
    (s : ℤ) : c ∉ Decimal.positional (Text.natDigits n) s := by
  intro h
  rcases Decimal.mem_positional h with h | rfl | h
  · rw [Text.isDigit_of_mem_natDigits h] at hdigit
    cases hdigit
  · cases hdigit
  · exact hpoint h

/-- The text of a finite double tells its sign and its size. -/
theorem written_inj {d e : Double} (hd : d.isFinite = true) (he : e.isFinite = true)
    (h : d.text = e.text) : d.isNegative = e.isNegative ∧ d.writtenSize = e.writtenSize := by
  have hchars := congrArg String.toList h
  rw [text_eq hd, text_eq he] at hchars
  have hsign : d.isNegative = e.isNegative := by
    have hunsigned : ∀ {n m : ℕ} {s t : ℤ},
        Decimal.signChars true ++ Decimal.positional (Text.natDigits n) s ≠
          Decimal.signChars false ++ Decimal.positional (Text.natDigits m) t := by
      intro n m s t heq
      have hminus : '-' ∈ Decimal.signChars false ++ Decimal.positional (Text.natDigits m) t :=
        heq ▸ List.mem_cons_self
      exact not_mem_positional rfl (by decide) m t hminus
    cases hleft : d.isNegative <;> cases hright : e.isNegative
    · rfl
    · rw [hleft, hright] at hchars
      exact absurd hchars.symm hunsigned
    · rw [hleft, hright] at hchars
      exact absurd hchars hunsigned
    · rfl
  rw [hsign] at hchars
  refine ⟨hsign, ?_⟩
  obtain ⟨x, hx, hvalue⟩ := exists_value_positional d.written.digits d.fitsSigned_written
  obtain ⟨y, hy, hvalue'⟩ := exists_value_positional e.written.digits e.fitsSigned_written
  rw [List.append_cancel_left hchars, hy] at hx
  cases hx
  rw [neg_neg] at hvalue hvalue'
  exact hvalue.symm.trans hvalue'

theorem place_eq_zero (h : d.significand = 0) : d.place = 0 := by
  rw [significand_eq, significandAt] at h
  split at h <;> omega

/-- **Finite doubles of one text are one double.** -/
theorem text_inj {d e : Double} (hd : d.isFinite = true) (he : e.isFinite = true)
    (h : d.text = e.text) : d = e := by
  obtain ⟨hsign, hsize⟩ := written_inj hd he h
  have hplace : d.place = e.place := by
    rcases Nat.eq_zero_or_pos d.significand with hd0 | hd0 <;>
      rcases Nat.eq_zero_or_pos e.significand with he0 | he0
    · rw [place_eq_zero hd0, place_eq_zero he0]
    · rw [writtenSize_eq_zero hd0] at hsize
      exact absurd hsize (writtenSize_pos he0).ne
    · rw [writtenSize_eq_zero he0] at hsize
      exact absurd hsize (writtenSize_pos hd0).ne'
    · exact eq_of_readAs (readAs_writtenSize hd0) (hsize ▸ readAs_writtenSize he0)
  have hbits : d.bits.toNat = e.bits.toNat := by
    have hhalf : twoTo 63 = 2 ^ 63 := rfl
    have hlt := d.bits.toNat_lt
    have hlt' := e.bits.toNat_lt
    rw [isNegative, isNegative, hhalf, decide_eq_decide] at hsign
    unfold place at hplace
    omega
  cases d
  cases e
  exact congrArg Double.mk (UInt64.toNat_inj.mp hbits)

end RecordQuery.Double
