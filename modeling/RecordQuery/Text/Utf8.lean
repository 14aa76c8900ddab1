/-!
# Characters of bytes

Bytes are read as the UTF-8 encoding of characters as far as they are one.  Bytes may be damaged:
where no character begins, one byte is skipped and an empty place is left for it, so that a reader
sees that something stood there.  Only the shortest encoding of a character counts, and no
encoding of half a surrogate pair.
-/

namespace RecordQuery.Text

/-- The character that some bytes begin with. -/
def firstChar? (bytes : List UInt8) : Option Char :=
  ByteArray.utf8DecodeChar? ⟨(bytes.take 4).toArray⟩ 0

/-- The characters of bytes behind the first `skip`, with an empty place for every byte that
belongs to no character. -/
def decodeFrom : (skip : Nat) → List UInt8 → List (Option Char)
  | _, [] => []
  | skip + 1, _ :: bs => decodeFrom skip bs
  | 0, b :: bs =>
    match firstChar? (b :: bs) with
    | some c => some c :: decodeFrom (c.utf8Size - 1) bs
    | none => none :: decodeFrom 0 bs

/-- The characters of bytes, with an empty place for every byte that belongs to no character. -/
def decodeChars (bytes : List UInt8) : List (Option Char) := decodeFrom 0 bytes

example : decodeChars [0x41, 0xFF, 0xE2, 0x82, 0xAC, 0xC0] = [some 'A', none, some '€', none] := by
  decide +kernel

end RecordQuery.Text
