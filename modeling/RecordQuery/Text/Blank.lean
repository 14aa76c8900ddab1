/-!
# Blank characters

The blanks are the characters with the white-space property of the character standard.  A text is
trimmed by dropping the blanks at its ends.
-/

namespace RecordQuery.Text

/-- The character is white space. -/
def isBlank (c : Char) : Bool :=
  let n := c.toNat
  (0x09 ≤ n && n ≤ 0x0D) || n == 0x20 || n == 0x85 || n == 0xA0 || n == 0x1680 ||
    (0x2000 ≤ n && n ≤ 0x200A) || n == 0x2028 || n == 0x2029 || n == 0x202F || n == 0x205F ||
    n == 0x3000

/-- The characters from the first that is not blank. -/
def trimLeft (cs : List Char) : List Char :=
  cs.dropWhile isBlank

/-- The characters between the blanks at both ends. -/
def trimBoth (cs : List Char) : List Char :=
  (trimLeft (trimLeft cs).reverse).reverse

/-- The text between the blanks at both ends. -/
def trim (s : String) : String :=
  String.ofList (trimBoth s.toList)

example : trim " \t42\u00a0" = "42" := by decide +kernel

end RecordQuery.Text
