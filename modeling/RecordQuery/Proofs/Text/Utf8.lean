import Mathlib.Data.List.Basic
import RecordQuery.Text.Utf8

/-!
# Texts as bytes

The bytes of a text are those of its characters, one after another (`toList_toUTF8_ofList`), and
reading them gives the characters back, without an empty place (`decodeChars_toUTF8`).
-/

namespace RecordQuery.Text

/-! ## Lists of bytes -/

theorem toList_loop_eq (bytes : ByteArray) (i : Nat) (read : List UInt8) :
    ByteArray.toList.loop bytes i read = read.reverse ++ bytes.data.toList.drop i := by
  rw [ByteArray.toList.loop]
  split
  next hlt =>
    have hi : i < bytes.data.toList.length := hlt
    rw [toList_loop_eq bytes (i + 1), List.reverse_cons, List.append_assoc, List.singleton_append,
      List.drop_eq_getElem_cons hi]
    rw [ByteArray.get!, getElem!_pos bytes.data i hlt]
    rfl
  next hge =>
    rw [List.drop_of_length_le (Nat.le_of_not_lt hge), List.append_nil]
termination_by bytes.size - i

theorem toList_eq (bytes : ByteArray) : bytes.toList = bytes.data.toList :=
  toList_loop_eq bytes 0 []

/-- The bytes of a text are those of its characters. -/
theorem toList_toUTF8_ofList (cs : List Char) :
    (String.ofList cs).toUTF8.toList = cs.flatMap String.utf8EncodeChar := by
  rw [toList_eq, String.toUTF8_eq_toByteArray, String.toByteArray_ofList, List.utf8Encode,
    List.data_toByteArray]

/-! ## Reading characters -/

/-- The first character is found whatever stands behind its bytes. -/
theorem firstChar?_append (c : Char) (bytes : List UInt8) :
    firstChar? (String.utf8EncodeChar c ++ bytes) = some c := by
  have hlength : (String.utf8EncodeChar c).length ≤ 4 := by
    rw [String.length_utf8EncodeChar]
    exact Char.utf8Size_le_four c
  have htake : (⟨((String.utf8EncodeChar c ++ bytes).take 4).toArray⟩ : ByteArray) =
      (String.utf8EncodeChar c).toByteArray ++
        (bytes.take (4 - (String.utf8EncodeChar c).length)).toByteArray := by
    rw [List.take_append, List.take_of_length_le hlength, ← List.toByteArray_append,
      ByteArray.ext_iff, List.data_toByteArray]
  rw [firstChar?, htake]
  exact ByteArray.utf8DecodeChar?_utf8EncodeChar_append

theorem decodeFrom_append (skipped bytes : List UInt8) :
    decodeFrom skipped.length (skipped ++ bytes) = decodeFrom 0 bytes := by
  induction skipped with
  | nil => rfl
  | cons b skipped ih => exact ih

theorem decodeFrom_char (c : Char) (bytes : List UInt8) :
    decodeFrom 0 (String.utf8EncodeChar c ++ bytes) = some c :: decodeFrom 0 bytes := by
  have hfirst := firstChar?_append c bytes
  have hlength := String.length_utf8EncodeChar c
  cases hchar : String.utf8EncodeChar c with
  | nil => exact absurd hchar String.utf8EncodeChar_ne_nil
  | cons b rest =>
      rw [hchar] at hfirst hlength
      rw [List.cons_append] at hfirst ⊢
      rw [decodeFrom, hfirst]
      show some c :: decodeFrom (c.utf8Size - 1) (rest ++ bytes) = _
      rw [← hlength]
      exact congrArg (some c :: ·) (decodeFrom_append rest bytes)

theorem decodeChars_flatMap (cs : List Char) :
    decodeChars (cs.flatMap String.utf8EncodeChar) = cs.map some := by
  rw [decodeChars]
  induction cs with
  | nil => rfl
  | cons c cs ih => rw [List.flatMap_cons, decodeFrom_char, ih, List.map_cons]

/-- The bytes of a text are read as its characters. -/
theorem decodeChars_toUTF8 (s : String) : decodeChars s.toUTF8.toList = s.toList.map some := by
  have hbytes := toList_toUTF8_ofList s.toList
  rw [String.ofList_toList] at hbytes
  rw [hbytes, decodeChars_flatMap]

end RecordQuery.Text
