import RecordQuery.Json.Basic
import RecordQuery.Text.Hex

/-!
# JSON text of a value

Values are written without blanks.  In strings the quote, the backslash and the control characters
are escaped and every other character stands for itself.  A double is written by position in its
shortest digits; one without a finite value is written as `null`.  The name of a `respelled` object
keeps its first character escaped, so that it is read back as what it is.
-/

namespace RecordQuery

open Text

namespace Json

/-- A character inside a string. -/
def escapeChar (c : Char) : List Char :=
  if c = '"' then ['\\', '"']
  else if c = '\\' then ['\\', '\\']
  else if c = '\x08' then ['\\', 'b']
  else if c = '\x0c' then ['\\', 'f']
  else if c = '\n' then ['\\', 'n']
  else if c = '\r' then ['\\', 'r']
  else if c = '\t' then ['\\', 't']
  else if c.toNat < 0x20 then '\\' :: 'u' :: hexDigits 4 c.toNat
  else [c]

/-- A string between quotes. -/
def stringChars (s : String) : List Char :=
  '"' :: (s.toList.flatMap escapeChar ++ ['"'])

/-- The mark of a number between quotes, its first character escaped. -/
def respelledName : List Char :=
  '"' :: '\\' :: 'u' :: (hexDigits 4 '$'.toNat ++ (stringChars numberName).drop 2)

mutual

/-- The JSON text of a value. -/
def chars : Json → List Char
  | .null => "null".toList
  | .bool true => "true".toList
  | .bool false => "false".toList
  | .integer n => intDigits n
  | .double d => if d.isFinite then d.text.toList else "null".toList
  | .string s => stringChars s
  | .array [] => ['[', ']']
  | .array (j :: js) => '[' :: (j.chars ++ itemChars js)
  | .object [] => ['\x7b', '\x7d']
  | .object ((n, j) :: ms) => '\x7b' :: (stringChars n ++ ':' :: (j.chars ++ memberChars ms))
  | .respelled j => '\x7b' :: (respelledName ++ ':' :: (j.chars ++ ['\x7d']))
  | .unreadable => "null".toList

/-- Further items of an array, up to its end. -/
def itemChars : List Json → List Char
  | [] => [']']
  | j :: js => ',' :: (j.chars ++ itemChars js)

/-- Further members of an object, up to its end. -/
def memberChars : List (String × Json) → List Char
  | [] => ['\x7d']
  | (n, j) :: ms => ',' :: (stringChars n ++ ':' :: (j.chars ++ memberChars ms))

end

/-- The JSON text of a value. -/
def text (j : Json) : String := String.ofList j.chars

example : text (.object [("a\n", .array [.integer (-1), .null]), ("b", .bool true)]) =
    "\x7b\"a\\n\":[-1,null],\"b\":true\x7d" := by decide +kernel

example : text (.respelled .null) = "\x7b\"\\u0024serde_json::private::Number\":null\x7d" := by
  decide +kernel

end Json

end RecordQuery
