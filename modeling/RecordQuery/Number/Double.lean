import RecordQuery.Number.Decimal

/-!
# Binary floating-point numbers

A double is the 64 bits of a number in the binary64 format: a sign, 11 bits of exponent and 52
bits of fraction.  Every finite double is a whole number times a power of two, and all arithmetic
here is exact arithmetic on those two followed by one rounding to the nearest double, a half going
to the even neighbour.

*Writing.*  A double is written with the fewest digits that no other double is nearest to; among
several such texts with the one nearest to the number, and between two equally near ones with the
one of larger size.  The point is always placed by position, never by a power of ten.

*Reading.*  The digits of a number are collected while they fit 64 bits; later digits of the whole
part only count, later digits of the fraction are dropped.  The collected number is rounded to a
double and then scaled by one multiplication or division by a power of ten.
-/

namespace RecordQuery

open Text

/-- A binary64 number, given by its bits. -/
structure Double where
  bits : UInt64
deriving DecidableEq, Repr, Inhabited

namespace Double

/-! ## The parts of a double -/

/-- The sign bit: negative numbers, and the zero below zero. -/
def isNegative (d : Double) : Bool := d.bits.toNat ≥ twoTo 63

/-- The eleven bits of the exponent. -/
def exponentBits (d : Double) : Nat := d.bits.toNat / twoTo 52 % twoTo 11

/-- The fifty-two bits of the fraction. -/
def fractionBits (d : Double) : Nat := d.bits.toNat % twoTo 52

/-- Neither infinite nor without value. -/
def isFinite (d : Double) : Bool := d.exponentBits ≠ 2047

/-- No number at all. -/
def isNaN (d : Double) : Bool := d.exponentBits = 2047 && d.fractionBits ≠ 0

/-- The whole number `m` of the size `m * 2 ^ q` of a finite double. -/
def significand (d : Double) : Nat :=
  if d.exponentBits = 0 then d.fractionBits else d.fractionBits + twoTo 52

/-- The power `q` of the size `m * 2 ^ q` of a finite double. -/
def power (d : Double) : Int :=
  if d.exponentBits = 0 then -1074 else d.exponentBits - 1075

/-- Positive infinity. -/
def infinity : Double := ⟨0x7FF0000000000000⟩

/-- A value that is no number. -/
def notANumber : Double := ⟨0x7FF8000000000000⟩

/-- The same size with the other sign. -/
def neg (d : Double) : Double :=
  ⟨UInt64.ofNat (if d.isNegative then d.bits.toNat - twoTo 63 else d.bits.toNat + twoTo 63)⟩

/-- Equality of values: the two zeros are equal, and what is no number equals nothing. -/
def sameValue (a b : Double) : Bool :=
  !a.isNaN && !b.isNaN &&
    (a == b || (a.bits.toNat % twoTo 63 == 0 && b.bits.toNat % twoTo 63 == 0))

/-! ## Rounding -/

/-- The quotient rounded to the nearest whole number, a half to the even one. -/
def roundDiv (num den : Nat) : Nat :=
  let q := num / den
  let r := num % den
  if 2 * r > den ∨ (2 * r = den ∧ q % 2 = 1) then q + 1 else q

/-- The double nearest to `num / den`. -/
def ofRatio (num den : Nat) : Double :=
  if num = 0 then ⟨0⟩
  else
    let estimate : Int := max ((num.log2 : Int) - den.log2 - 53) (-1074)
    let scaled (q : Int) : Nat × Nat := (num * twoTo (-q).toNat, den * twoTo q.toNat)
    let (n₀, d₀) := scaled estimate
    let q := if n₀ / d₀ ≥ twoTo 53 then estimate + 1 else estimate
    let (n, d) := scaled q
    let bits := (q + 1074).toNat * twoTo 52 + roundDiv n d
    if bits ≥ 2047 * twoTo 52 then infinity else ⟨UInt64.ofNat bits⟩

/-- The double nearest to a natural number. -/
def ofNat (n : Nat) : Double := ofRatio n 1

/-- The product of the sizes of two finite doubles. -/
def mulSize (a b : Double) : Double :=
  let q := a.power + b.power
  ofRatio (a.significand * b.significand * twoTo q.toNat) (twoTo (-q).toNat)

/-- The quotient of the sizes of two finite doubles, the second not zero. -/
def divSize (a b : Double) : Double :=
  let q := a.power - b.power
  ofRatio (a.significand * twoTo q.toNat) (b.significand * twoTo (-q).toNat)

/-- The double nearest to a power of ten. -/
def tenPow (n : Nat) : Double := ofRatio (tenTo n) 1

/-! ## Reading -/

/-- What has been collected of the digits of a number. -/
structure Collected where
  /-- The digits so far, below `2 ^ 64`. -/
  significand : Nat
  /-- The power of ten that corrects the digits left out or behind the point. -/
  exponent : Int

/-- Collects the digits of the whole part; once one does not fit, all later ones only count. -/
def collectWhole : (c : Collected) → (full : Bool) → List Char → Collected
  | c, _, [] => c
  | c, full, d :: ds =>
    let next := 10 * c.significand + (d.toNat - '0'.toNat)
    if full || next ≥ twoTo 64 then collectWhole { c with exponent := c.exponent + 1 } true ds
    else collectWhole { c with significand := next } false ds

/-- Collects the digits of the fraction up to the first that does not fit. -/
def collectFraction : (c : Collected) → List Char → Collected
  | c, [] => c
  | c, d :: ds =>
    let next := 10 * c.significand + (d.toNat - '0'.toNat)
    if next ≥ twoTo 64 then c
    else collectFraction ⟨next, c.exponent - 1⟩ ds

/-- Divides by `10 ^ 308` until the power of ten is at least `-308` or nothing is left. -/
def scaleDown : (fuel : Nat) → (d : Double) → (exponent : Int) → Double × Int
  | 0, d, e => (d, e)
  | fuel + 1, d, e =>
    if e ≥ -308 ∨ d.significand = 0 then (d, e)
    else scaleDown fuel (divSize d (tenPow 308)) (e + 308)

/-- Scales a collected number; none when the result is too large for a double. -/
def ofCollected? (c : Collected) : Option Double :=
  let d := ofNat c.significand
  if c.exponent ≥ 0 then
    if c.significand = 0 then some d
    else if c.exponent > 308 then none
    else
      let r := mulSize d (tenPow c.exponent.toNat)
      if r.isFinite then some r else none
  else
    let (d, e) := scaleDown 4 d c.exponent
    some (if d.significand = 0 then d else divSize d (tenPow (-e).toNat))

/-- Reads the sign, whole part, fraction and power of ten of a written number. -/
def ofDigits? (negative : Bool) (whole fraction : List Char) (exponent : Int) : Option Double :=
  let c := collectFraction (collectWhole ⟨0, 0⟩ false whole) fraction
  (ofCollected? { c with exponent := c.exponent + exponent }).map fun d =>
    if negative then d.neg else d

/-! ## Shortest digits -/

/-- A number on a decimal grid: `digits * 10 ^ exponent`. -/
structure GridPoint where
  digits : Nat
  exponent : Int
deriving DecidableEq, Repr

/-- The point of the grid `10 ^ exponent` that is nearest to a positive finite double, if some
point of that grid is read back as the double. -/
def gridPoint? (d : Double) (exponent : Int) : Option GridPoint :=
  let m := d.significand
  let quarter := d.power - 2
  -- In quarters of the last binary place: the number, and the ends of what rounds to it.
  let low := if m = twoTo 52 ∧ d.exponentBits > 1 then 4 * m - 1 else 4 * m - 2
  let high := 4 * m + 2
  let unit := twoTo quarter.toNat * tenTo (-exponent).toNat
  let step := tenTo exponent.toNat * twoTo (-quarter).toNat
  let reads (c : Nat) : Bool :=
    if m % 2 = 0 then low * unit ≤ c * step && c * step ≤ high * unit
    else low * unit < c * step && c * step < high * unit
  let value := 4 * m * unit
  let below := value / step
  let nearer := if value - below * step < (below + 1) * step - value then below else below + 1
  let farther := if nearer = below then below + 1 else below
  if reads nearer then some ⟨nearer, exponent⟩
  else if reads farther then some ⟨farther, exponent⟩
  else none

/-- Searches the grids from `10 ^ exponent` on to finer ones. -/
def searchGrids (d : Double) : (fuel : Nat) → (exponent : Int) → GridPoint
  | 0, e => ⟨0, e⟩
  | fuel + 1, e => (gridPoint? d e).getD (searchGrids d fuel (e - 1))

/-- The shortest digits of a positive finite double. -/
def shortest (d : Double) : GridPoint :=
  let num := d.significand * twoTo d.power.toNat
  let den := twoTo (-d.power).toNat
  searchGrids d 20 ((Decimal.digitCount num : Int) - Decimal.digitCount den)

/-! ## Doubles as decimals -/

/-- The shortest digits as a decimal; none for a double without a finite value. -/
def toDecimal? (d : Double) : Option Decimal :=
  if !d.isFinite then none
  else if d.significand = 0 then some ⟨0, 0⟩
  else
    let p := d.shortest
    let size : Int := p.digits * tenTo p.exponent.toNat
    some ⟨if d.isNegative then -size else size, (-p.exponent).toNat⟩

/-- The text of a double: shortest digits, placed by position. -/
def text (d : Double) : String :=
  if d.isNaN then "NaN"
  else
    let size :=
      if !d.isFinite then ['i', 'n', 'f']
      else if d.significand = 0 then ['0']
      else
        let p := d.shortest
        Decimal.positional (natDigits p.digits) (-p.exponent)
    String.ofList (if d.isNegative then '-' :: size else size)

/-- Halves a number while it is even, at most `fuel` times; also how often it did. -/
def dropTwos : (fuel m : Nat) → Nat × Nat
  | 0, m => (m, 0)
  | fuel + 1, m => if m % 2 = 0 then (dropTwos fuel (m / 2)).map id (· + 1) else (m, 0)

/-- The exact value of a finite double.  A double of the smallest exponent has all the fraction
digits of its last binary place; every other double has the fewest that write it. -/
def exactDecimal (d : Double) : Decimal :=
  let signed (n : Nat) : Int := if d.isNegative then -n else n
  let places := (-d.power).toNat
  if d.significand = 0 then ⟨0, 0⟩
  else if 0 ≤ d.power then ⟨signed (d.significand * twoTo d.power.toNat), 0⟩
  else if d.exponentBits = 0 then ⟨signed (d.significand * Nat.pow 5 places), places⟩
  else
    let (m, dropped) := dropTwos places d.significand
    ⟨signed (m * Nat.pow 5 (places - dropped)), places - dropped⟩

example : text ⟨0x3FB999999999999A⟩ = "0.1" := by decide +kernel
example : text ⟨0x444B1AE4D6E2EF50⟩ = "1000000000000000000000" := by decide +kernel
example : text ⟨0x8000000000000000⟩ = "-0" := by decide +kernel
example : text ⟨0x4320000000000001⟩ = "2251799813685248.5" := by decide +kernel
example : ofDigits? false ['0'] ['1'] 0 = some ⟨0x3FB999999999999A⟩ := by decide +kernel
example : ofDigits? true ['5'] [] (-324) = some ⟨0x8000000000000001⟩ := by decide +kernel
example : ofDigits? false ['1'] [] 309 = none := by decide +kernel
example : exactDecimal ⟨0xBFF8000000000000⟩ = ⟨-15, 1⟩ := by decide +kernel
example : (exactDecimal ⟨2⟩).scale = 1074 := by decide +kernel

end Double

end RecordQuery
