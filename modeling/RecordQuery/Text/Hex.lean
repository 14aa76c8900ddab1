/-!
# Bytes as hexadecimal digits

A list of bytes is written with two lower-case digits a byte and read in either case.  Reading
looks at the bytes of the text: an odd count is refused first, then the leftmost byte that is no
digit, by its position.  A refused byte is shown as the character of the same number.
-/

namespace RecordQuery.Text

/-! ## Digits -/

/-- The digit of a number below 16. -/
def hexDigit (n : Nat) : Char :=
  if n < 10 then Char.ofNat ('0'.toNat + n) else Char.ofNat ('a'.toNat + (n - 10))

/-- The number of a digit, in either case. -/
def hexValue? (c : Char) : Option Nat :=
  if '0' ≤ c ∧ c ≤ '9' then some (c.toNat - '0'.toNat)
  else if 'a' ≤ c ∧ c ≤ 'f' then some (c.toNat - 'a'.toNat + 10)
  else if 'A' ≤ c ∧ c ≤ 'F' then some (c.toNat - 'A'.toNat + 10)
  else none

/-- The number that a list of digits writes, most significant first. -/
def hexNumber? (cs : List Char) : Option Nat :=
  cs.foldlM (fun n c => (hexValue? c).map (16 * n + ·)) 0

/-- The number `n` in `width` digits, higher digits dropped. -/
def hexDigits : (width : Nat) → (n : Nat) → List Char
  | 0, _ => []
  | w + 1, n => hexDigits w (n / 16) ++ [hexDigit (n % 16)]

/-! ## Bytes -/

/-- Two digits for every byte. -/
def hexOfBytes : List UInt8 → List Char
  | [] => []
  | b :: bs => hexDigit (b.toNat / 16) :: hexDigit (b.toNat % 16) :: hexOfBytes bs

/-- Why a text is not a list of bytes in hexadecimal. -/
inductive HexFault where
  | oddLength
  | notADigit (byte : UInt8) (position : Nat)
deriving DecidableEq, Repr

/-- The byte read at a position must be a digit. -/
def hexNibble (byte : UInt8) (position : Nat) : Except HexFault Nat :=
  match hexValue? (Char.ofNat byte.toNat) with
  | some n => .ok n
  | none => .error (.notADigit byte position)

/-- Reads digits in pairs; `position` counts the bytes already read. -/
def bytesOfPairs (position : Nat) : List UInt8 → Except HexFault (List UInt8)
  | high :: low :: rest => do
    let h ← hexNibble high position
    let l ← hexNibble low (position + 1)
    let bytes ← bytesOfPairs (position + 2) rest
    return UInt8.ofNat (16 * h + l) :: bytes
  | _ => return []

/-- The bytes that the bytes of a hexadecimal text write. -/
def bytesOfHex (text : List UInt8) : Except HexFault (List UInt8) :=
  if text.length % 2 = 0 then bytesOfPairs 0 text else .error .oddLength

example : hexOfBytes [0, 123, 255] = ['0', '0', '7', 'b', 'f', 'f'] := by decide

/-! ## Showing a refused byte -/

/-- A character of number below 256 between quotes, escaped when it is no visible character. -/
def quotedByte (byte : UInt8) : String :=
  let n := byte.toNat
  let body :=
    if n = 0 then "\\0"
    else if n = 9 then "\\t"
    else if n = 10 then "\\n"
    else if n = 13 then "\\r"
    else if n = 0x27 then "\\'"
    else if n = 0x5C then "\\\\"
    else if n < 0x20 ∨ (0x7F ≤ n ∧ n ≤ 0xA0) ∨ n = 0xAD then
      "\\u\x7b" ++ String.ofList (Nat.toDigits 16 n) ++ "\x7d"
    else String.singleton (Char.ofNat n)
  "'" ++ body ++ "'"

/-- The fault as it is reported. -/
def HexFault.message : HexFault → String
  | .oddLength => "Odd number of digits"
  | .notADigit byte position => s!"Invalid character {quotedByte byte} at position {position}"

example : (HexFault.notADigit 0xC3 2).message = "Invalid character 'Ã' at position 2" := by
  decide +kernel

end RecordQuery.Text
