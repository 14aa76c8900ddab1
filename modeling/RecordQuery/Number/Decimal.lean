import RecordQuery.Number.Power
import RecordQuery.Text.Digits

/-!
# Decimal numbers that keep their digits

A decimal is a whole number, its coefficient, and a scale: the value is the coefficient divided by
ten to the scale.  `1`, `1.0` and `1.00` are three decimals of one value; they are written
differently and compare as equal.

Comparison first looks at the position of the leading digit, so that decimals of very different
size compare without either being written out.
-/

namespace RecordQuery

open Text

/-- The number `coefficient / 10 ^ scale`, with the digits it was written with. -/
structure Decimal where
  /-- All digits as one signed whole number. -/
  coefficient : Int
  /-- How many of the digits follow the point; below zero, how many zeros follow the digits. -/
  scale : Int
deriving DecidableEq, Repr, Inhabited

namespace Decimal

/-- A whole number without fraction digits. -/
def ofInt (i : Int) : Decimal := ⟨i, 0⟩

/-! ## Order -/

/-- How many decimal digits a number has; zero has one. -/
def digitCount (n : Nat) : Nat :=
  (natDigits n).length

/-- The order of `m / 10 ^ s` and `n / 10 ^ t` for positive `m` and `n`. -/
def compareSizes (m : Nat) (s : Int) (n : Nat) (t : Int) : Ordering :=
  (compare (digitCount m - s) (digitCount n - t)).then
    (compare (m * tenTo (t - s).toNat) (n * tenTo (s - t).toNat))

/-- The order of two decimals by value. -/
protected def compare (a b : Decimal) : Ordering :=
  (compare a.coefficient.sign b.coefficient.sign).then <|
    if a.coefficient = 0 then .eq
    else if 0 < a.coefficient then
      compareSizes a.coefficient.natAbs a.scale b.coefficient.natAbs b.scale
    else compareSizes b.coefficient.natAbs b.scale a.coefficient.natAbs a.scale

instance : Ord Decimal := ⟨Decimal.compare⟩

example : compare (⟨100, 2⟩ : Decimal) ⟨1, 0⟩ = .eq := by decide +kernel
example : compare (⟨-1, -1000000000⟩ : Decimal) ⟨5, 1⟩ = .lt := by decide +kernel
example : compare (⟨0, 7⟩ : Decimal) ⟨0, -3⟩ = .eq := by decide +kernel

/-! ## One form for one value -/

/-- Drops up to `fuel` zeros from the end of a coefficient. -/
def dropZeros : (fuel : Nat) → (coefficient scale : Int) → Decimal
  | 0, c, s => ⟨c, s⟩
  | fuel + 1, c, s => if c % 10 = 0 then dropZeros fuel (c / 10) (s - 1) else ⟨c, s⟩

/-- The decimal of the same value whose coefficient does not end in zero. -/
def normalize (d : Decimal) : Decimal :=
  if d.coefficient = 0 then ⟨0, 0⟩
  else dropZeros (digitCount d.coefficient.natAbs) d.coefficient d.scale

example : normalize ⟨-1200, 1⟩ = ⟨-12, -1⟩ := by decide +kernel

/-! ## Whole numbers -/

/-- The value as a 32-bit whole number, if it is one. -/
def toInt32? (d : Decimal) : Option Int32 :=
  let inRange (i : Int) : Option Int32 :=
    if fitsSigned 32 i then some (Int32.ofInt i) else none
  let size := digitCount d.coefficient.natAbs
  if d.coefficient = 0 then some 0
  else if size - d.scale > 10 ∨ d.scale ≥ size then none
  else if d.scale ≤ 0 then inRange (d.coefficient * tenTo (-d.scale).toNat)
  else if d.coefficient % tenTo d.scale.toNat = 0 then inRange (d.coefficient / tenTo d.scale.toNat)
  else none

example : toInt32? ⟨-700, 2⟩ = some (-7) := by decide +kernel
example : toInt32? ⟨15, 1⟩ = none := by decide +kernel
example : toInt32? ⟨2147483648, 0⟩ = none := by decide +kernel

/-! ## Writing -/

/-- Digits with the point before the last `scale` of them. -/
def positional (digits : List Char) (scale : Int) : List Char :=
  if scale ≤ 0 then digits ++ List.replicate (-scale).toNat '0'
  else
    let places := scale.toNat
    if places < digits.length then
      digits.take (digits.length - places) ++ '.' :: digits.drop (digits.length - places)
    else '0' :: '.' :: (List.replicate (places - digits.length) '0' ++ digits)

/-- Digits with the point behind the first of them, and the power of ten that corrects it. -/
def scientific (digits : List Char) (scale : Int) : List Char :=
  let exponent : Int := digits.length - scale - 1
  let mantissa := match digits with
    | [] | [_] => digits
    | d :: ds => d :: '.' :: ds
  mantissa ++ 'E' :: (if exponent < 0 then [] else ['+']) ++ intDigits exponent

/-- A size as text: all digits are kept, and long runs of zeros are written as a power of ten. -/
def sizeDigits (n : Nat) (scale : Int) : List Char :=
  let digits := natDigits n
  if scale - digits.length > 5 then scientific digits scale
  else if scale ≤ -16 then digits ++ 'e' :: '+' :: natDigits (-scale).toNat
  else positional digits scale

/-- The digits as they were given; zero is `0` at every scale. -/
def chars (d : Decimal) : List Char :=
  if d.coefficient = 0 then ['0']
  else if d.coefficient < 0 then '-' :: sizeDigits d.coefficient.natAbs d.scale
  else sizeDigits d.coefficient.natAbs d.scale

/-- The text of a decimal. -/
def text (d : Decimal) : String := String.ofList d.chars

example : text ⟨150, 2⟩ = "1.50" := by decide +kernel
example : text ⟨12345, 11⟩ = "1.2345E-7" := by decide +kernel
example : text ⟨-1, 6⟩ = "-0.000001" := by decide +kernel
example : text ⟨123, -18⟩ = "123e+18" := by decide +kernel
example : text ⟨1, -15⟩ = "1000000000000000" := by decide +kernel

/-! ## Reading -/

/-- Digits among which underscores are skipped; the first character must be a digit. -/
def spacedDigits? : List Char → Option Nat
  | [] => none
  | c :: cs => if c = '_' then none else natOfDigits? ((c :: cs).filter (· ≠ '_'))

/-- An optional sign before digits. -/
def signedDigits? : List Char → Option Int
  | '-' :: cs => (spacedDigits? cs).map fun n => -(n : Int)
  | '+' :: cs => (spacedDigits? cs).map fun n => (n : Int)
  | cs => (spacedDigits? cs).map fun n => (n : Int)

/-- Reads digits with at most one point among them and an optional power of ten behind. -/
def ofChars? (cs : List Char) : Option Decimal := do
  let (base, power) := cutAt (fun c => c == 'e' || c == 'E') cs
  let exponent ← match power with
    | none => some 0
    | some ds => intOfDigits? ds
  let (whole, fraction) := cutAt (· == '.') base
  let places := ((fraction.getD []).filter (· ≠ '_')).length
  let scale := places - exponent
  let coefficient ← signedDigits? (whole ++ fraction.getD [])
  if fitsSigned 64 scale then some ⟨coefficient, scale⟩ else none

/-- The decimal that a text writes. -/
def ofText? (s : String) : Option Decimal := ofChars? s.toList

example : ofText? "-5e-7" = some ⟨-5, 7⟩ := by decide +kernel
example : ofText? "1__2.50" = some ⟨1250, 2⟩ := by decide +kernel
example : ofText? ".5" = some ⟨5, 1⟩ := by decide +kernel
example : ofText? "." = none := by decide +kernel
example : ofText? "_1" = none := by decide +kernel

end Decimal

end RecordQuery
