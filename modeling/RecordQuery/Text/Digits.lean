/-!
# Whole numbers as decimal digits

Numbers are written without leading zeros and with a minus sign when negative.  A written whole
number is an optional sign and at least one digit; leading zeros are accepted.
-/

namespace RecordQuery.Text

/-- The decimal digits of a number, `0` for zero. -/
def natDigits (n : Nat) : List Char :=
  Nat.toDigits 10 n

/-- The decimal digits of a number after the minus sign of a negative one. -/
def intDigits (i : Int) : List Char :=
  if i < 0 then '-' :: natDigits i.natAbs else natDigits i.natAbs

/-- The digits of a number, filled up with zeros to a width. -/
def paddedDigits (width n : Nat) : List Char :=
  let ds := natDigits n
  List.replicate (width - ds.length) '0' ++ ds

/-- The number that decimal digits write, none unless all are digits and there is one. -/
def natOfDigits? (cs : List Char) : Option Nat :=
  if cs.isEmpty || !cs.all Char.isDigit then none else some (Nat.ofDigitChars 10 cs 0)

/-- The number that an optional sign and decimal digits write. -/
def intOfDigits? : List Char → Option Int
  | '-' :: cs => (natOfDigits? cs).map fun n => -(n : Int)
  | '+' :: cs => (natOfDigits? cs).map fun n => (n : Int)
  | cs => (natOfDigits? cs).map fun n => (n : Int)

/-- The characters before the first that satisfies `p`, and those behind it if there is one. -/
def cutAt (p : Char → Bool) : List Char → List Char × Option (List Char)
  | [] => ([], none)
  | c :: cs => if p c then ([], some cs) else ((cutAt p cs).map (c :: ·) id)

example : intOfDigits? ['-', '0', '7'] = some (-7) := by decide
example : intOfDigits? ['+'] = none := by decide
example : cutAt (· = '.') ['1', '.', '2', '.'] = (['1'], some ['2', '.']) := by decide

end RecordQuery.Text
