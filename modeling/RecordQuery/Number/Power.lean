/-!
# Powers, and what machine integers hold

Binary places and the integers of a machine count in powers of two, decimal places in powers of
ten.  A signed integer of some bits holds as many numbers below zero as from zero on.
-/

namespace RecordQuery

/-- Two to the power of a number. -/
def twoTo (n : Nat) : Nat := Nat.pow 2 n

/-- Ten to the power of a number. -/
def tenTo (n : Nat) : Nat := Nat.pow 10 n

/-- A signed integer of some bits can hold the number. -/
def fitsSigned (bits : Nat) (n : Int) : Bool :=
  -(twoTo (bits - 1) : Int) ≤ n && n < twoTo (bits - 1)

/-- An unsigned integer of some bits can hold the number. -/
def fitsUnsigned (bits : Nat) (n : Int) : Bool :=
  0 ≤ n && n < twoTo bits

example : fitsSigned 32 (-2147483648) ∧ ¬ fitsSigned 32 2147483648 := by decide
example : fitsUnsigned 8 255 ∧ ¬ fitsUnsigned 8 256 := by decide

end RecordQuery
