import RecordQuery.Text.Hex

/-!
# Record identifiers

A record is identified by 128 bits.  An identifier is written as 32 lower-case hexadecimal digits
in five groups of 8, 4, 4, 4 and 12 with hyphens between.  It is read in either case, with or
without the hyphens, and with them also between braces or behind the mark `urn:uuid:`, which
again may be in either case.
-/

namespace RecordQuery

open Text

/-- The identifier of a record. -/
structure RecordId where
  bits : BitVec 128
deriving DecidableEq, Repr, Inhabited

namespace RecordId

instance : Ord RecordId := ⟨fun a b => compare a.bits b.bits⟩
instance : Hashable RecordId := ⟨fun a => hash a.bits⟩

/-- The identifier of no record. -/
def nil : RecordId := ⟨0⟩

/-! ## Writing -/

/-- Puts hyphens between groups of 8, 4, 4, 4 and the remaining digits. -/
def hyphenate (ds : List Char) : List Char :=
  ds.take 8 ++ '-' :: (ds.drop 8).take 4 ++ '-' :: (ds.drop 12).take 4 ++
    '-' :: (ds.drop 16).take 4 ++ '-' :: ds.drop 20

/-- The hyphenated digits of an identifier. -/
def chars (id : RecordId) : List Char := hyphenate (hexDigits 32 id.bits.toNat)

/-- The text of an identifier. -/
def text (id : RecordId) : String := String.ofList id.chars

/-! ## Reading -/

/-- The identifier of exactly 32 digits. -/
def ofDigits? (ds : List Char) : Option RecordId :=
  if ds.length = 32 then (hexNumber? ds).map fun n => ⟨BitVec.ofNat 128 n⟩ else none

/-- The identifier of hyphenated digits. -/
def ofHyphenated? (cs : List Char) : Option RecordId :=
  let ds := cs.filter (· ≠ '-')
  if cs = hyphenate ds then ofDigits? ds else none

/-- The mark of an identifier written as a name, in lower case. -/
def urnMark : List Char := "urn:uuid:".toList

/-- The identifier that a list of characters writes. -/
def ofChars? (cs : List Char) : Option RecordId :=
  if cs.length = 32 then ofDigits? cs
  else if cs.length = 38 ∧ cs.head? = some '\x7b' ∧ cs.getLast? = some '\x7d' then
    ofHyphenated? (cs.drop 1).dropLast
  else if (cs.take urnMark.length).map Char.toLower = urnMark then
    ofHyphenated? (cs.drop urnMark.length)
  else ofHyphenated? cs

/-- The identifier that a text writes. -/
def ofText? (s : String) : Option RecordId := ofChars? s.toList

example : (ofText? "3F2504E04F8941D39A0C0305E82C3301").map text =
    some "3f2504e0-4f89-41d3-9a0c-0305e82c3301" := by decide +kernel
example : (ofText? "urn:uuid:3f2504e0-4f89-41d3-9a0c-0305e82c3301").isSome := by decide +kernel
example : (ofText? "URN:Uuid:3f2504e0-4f89-41d3-9a0c-0305e82c3301").isSome := by decide +kernel
example : (ofText? "\x7b3f2504e0-4f89-41d3-9a0c-0305e82c3301\x7d").isSome := by decide +kernel
example : ofText? "3f2504e-04f89-41d3-9a0c-0305e82c3301" = none := by decide +kernel

end RecordId

end RecordQuery
