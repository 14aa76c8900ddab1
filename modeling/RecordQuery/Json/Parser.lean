import RecordQuery.Json.Basic
import RecordQuery.Text.Hex
import RecordQuery.Text.Utf8

/-!
# Reading JSON text

The grammar of JSON without extensions: blanks are space, tab, line feed and carriage return; no
number has a leading zero or an empty fraction; strings hold no control character.  An object with
an unreadable name is unreadable as a whole.

The text may come from damaged bytes: it is a list of characters with an empty place for every
byte that belongs to no character.  An empty place inside a string makes the string unreadable;
anywhere else it is no JSON.

Nesting is not limited here.  Readers that limit it count the levels they enter.

The reader of values is bounded by a number of steps.  Two steps for every character are enough,
since at least every second step consumes one.
-/

namespace RecordQuery

open Text

namespace Json

/-! ## Blanks, literal words and digits -/

/-- A blank between tokens. -/
def isSpace (c : Char) : Bool :=
  c == ' ' || c == '\t' || c == '\n' || c == '\r'

/-- The text from the first place that is not blank. -/
def skipSpace (cs : List (Option Char)) : List (Option Char) :=
  cs.dropWhile (·.any isSpace)

/-- Drops an expected word. -/
def expectWord? : (word : List Char) → List (Option Char) → Option (List (Option Char))
  | [], cs => some cs
  | w :: ws, c :: cs => if some w = c then expectWord? ws cs else none
  | _ :: _, [] => none

/-- The digits at the start of a text, and the rest. -/
def spanDigits : List (Option Char) → List Char × List (Option Char)
  | some c :: cs =>
    if c.isDigit then
      let (ds, rest) := spanDigits cs
      (c :: ds, rest)
    else ([], some c :: cs)
  | cs => ([], cs)

/-! ## Strings -/

/-- A part of a string as it stands in a text. -/
inductive StringPart where
  /-- A character that stands for itself. -/
  | char (c : Char)
  /-- An escape, with the 16-bit unit it stands for. -/
  | escape (unit : Nat)
  /-- A byte that belongs to no character. -/
  | damage
deriving DecidableEq, Repr

/-- The unit that the letter behind a backslash stands for. -/
def escapeUnit? : Char → Option Nat
  | '"' => some 0x22
  | '\\' => some 0x5C
  | '/' => some 0x2F
  | 'b' => some 0x08
  | 'f' => some 0x0C
  | 'n' => some 0x0A
  | 'r' => some 0x0D
  | 't' => some 0x09
  | _ => none

/-- The parts of a string up to its closing quote, and the rest. -/
def stringParts : List (Option Char) → Option (List StringPart × List (Option Char))
  | [] => none
  | some '"' :: cs => some ([], cs)
  | some '\\' :: some 'u' :: some a :: some b :: some c :: some d :: cs => do
    let unit ← hexNumber? [a, b, c, d]
    let (parts, rest) ← stringParts cs
    some (.escape unit :: parts, rest)
  | some '\\' :: some e :: cs => do
    let unit ← escapeUnit? e
    let (parts, rest) ← stringParts cs
    some (.escape unit :: parts, rest)
  | some c :: cs =>
    if c.toNat < 0x20 ∨ c = '\\' then none
    else do
      let (parts, rest) ← stringParts cs
      some (.char c :: parts, rest)
  | none :: cs => do
    let (parts, rest) ← stringParts cs
    some (.damage :: parts, rest)

/-- The first half of a surrogate pair. -/
def isHighSurrogate (n : Nat) : Bool := 0xD800 ≤ n && n < 0xDC00

/-- The second half of a surrogate pair. -/
def isLowSurrogate (n : Nat) : Bool := 0xDC00 ≤ n && n < 0xE000

/-- The characters of a string; none if it is damaged or half of a surrogate pair stands alone. -/
def charsOfParts? : List StringPart → Option (List Char)
  | [] => some []
  | .char c :: ps => (charsOfParts? ps).map (c :: ·)
  | .escape h :: .escape l :: ps =>
    if isHighSurrogate h then
      if isLowSurrogate l then
        (charsOfParts? ps).map
          (Char.ofNat (0x10000 + (h - 0xD800) * 0x400 + (l - 0xDC00)) :: ·)
      else none
    else if isLowSurrogate h then none
    else (charsOfParts? (.escape l :: ps)).map (Char.ofNat h :: ·)
  | .escape u :: ps =>
    if isHighSurrogate u || isLowSurrogate u then none
    else (charsOfParts? ps).map (Char.ofNat u :: ·)
  | .damage :: _ => none

/-- The text of a string, if it has one. -/
def textOfParts? (parts : List StringPart) : Option String :=
  (charsOfParts? parts).map String.ofList

/-! ## Numbers -/

/-- The digits of a whole part without a leading zero. -/
def readWhole? (cs : List (Option Char)) : Option (List Char × List (Option Char)) :=
  let (ds, rest) := spanDigits cs
  match ds with
  | [] => none
  | '0' :: _ :: _ => none
  | _ => some (ds, rest)

/-- The digits of an optional fraction. -/
def readPlaces? : List (Option Char) → Option (List Char × List (Option Char))
  | some '.' :: cs =>
    let (ds, rest) := spanDigits cs
    if ds.isEmpty then none else some (ds, rest)
  | cs => some ([], cs)

/-- The power of ten behind its letter. -/
def readPower? (cs : List (Option Char)) : Option (Int × List (Option Char)) :=
  let (negative, cs) : Bool × List (Option Char) := match cs with
    | some '+' :: cs => (false, cs)
    | some '-' :: cs => (true, cs)
    | cs => (false, cs)
  let (ds, rest) := spanDigits cs
  let n : Int := Nat.ofDigitChars 10 ds 0
  if ds.isEmpty then none else some (if negative then -n else n, rest)

/-- The number of its parts: an integer where 64 bits allow it, otherwise a double. -/
def numberOf (negative : Bool) (whole fraction : List Char) (power : Option Int) : Json :=
  let n := Nat.ofDigitChars 10 whole 0
  let double := (Double.ofDigits? negative whole fraction (power.getD 0)).elim .unreadable .double
  if fraction.isEmpty ∧ power.isNone then
    if negative then (if 0 < n ∧ fitsSigned 64 (-n) then .integer (-n) else double)
    else (if fitsUnsigned 64 n then .integer n else double)
  else double

/-- A number, behind its minus sign if it is negative. -/
def readNumber? (negative : Bool) (cs : List (Option Char)) :
    Option (Json × List (Option Char)) := do
  let (whole, cs) ← readWhole? cs
  let (fraction, cs) ← readPlaces? cs
  match cs with
  | some c :: rest =>
    if c = 'e' ∨ c = 'E' then
      let (power, rest) ← readPower? rest
      some (numberOf negative whole fraction (some power), rest)
    else some (numberOf negative whole fraction none, cs)
  | _ => some (numberOf negative whole fraction none, cs)

/-! ## Values -/

/-- A string of its parts. -/
def stringOf (parts : List StringPart) : Json :=
  (textOfParts? parts).elim .unreadable .string

/-- The members with the texts of their names, if all names have one. -/
def named? (members : List (List StringPart × Json)) : Option (List (String × Json)) :=
  members.mapM fun m => (textOfParts? m.1).map (·, m.2)

/-- The name of a member is the mark of a number, and not letter by letter. -/
def isRespelled (name : List StringPart) : Bool :=
  textOfParts? name = some numberName && name ≠ numberName.toList.map .char

/-- The object of its members; unreadable if one of the names is. -/
def objectOf (members : List (List StringPart × Json)) : Json :=
  match members with
  | [(name, j)] =>
    if isRespelled name then .respelled j else (named? [(name, j)]).elim .unreadable .object
  | ms => (named? ms).elim .unreadable .object

mutual

/-- Reads a value at the first place that is not blank. -/
def readValue? : (steps : Nat) → List (Option Char) → Option (Json × List (Option Char))
  | 0, _ => none
  | steps + 1, cs =>
    match skipSpace cs with
    | some c :: rest =>
      if c = '"' then (stringParts rest).map fun (ps, rest) => (stringOf ps, rest)
      else if c = '[' then
        match skipSpace rest with
        | some ']' :: rest => some (.array [], rest)
        | rest => (readItems? steps rest).map fun (js, rest) => (.array js, rest)
      else if c = '\x7b' then
        match skipSpace rest with
        | some '\x7d' :: rest => some (.object [], rest)
        | rest => (readMembers? steps rest).map fun (ms, rest) => (objectOf ms, rest)
      else if c = 'n' then (expectWord? "ull".toList rest).map (.null, ·)
      else if c = 't' then (expectWord? "rue".toList rest).map (.bool true, ·)
      else if c = 'f' then (expectWord? "alse".toList rest).map (.bool false, ·)
      else if c = '-' then readNumber? true rest
      else readNumber? false (some c :: rest)
    | _ => none

/-- Reads the items of an array that has at least one more, and its end. -/
def readItems? : (steps : Nat) → List (Option Char) → Option (List Json × List (Option Char))
  | 0, _ => none
  | steps + 1, cs => do
    let (j, rest) ← readValue? steps cs
    match skipSpace rest with
    | some ']' :: rest => some ([j], rest)
    | some ',' :: rest => (readItems? steps rest).map fun (js, rest) => (j :: js, rest)
    | _ => none

/-- Reads the members of an object that has at least one more, and its end. -/
def readMembers? : (steps : Nat) → List (Option Char) →
    Option (List (List StringPart × Json) × List (Option Char))
  | 0, _ => none
  | steps + 1, cs => do
    match skipSpace cs with
    | some '"' :: rest =>
      let (n, rest) ← stringParts rest
      match skipSpace rest with
      | some ':' :: rest =>
        let (j, rest) ← readValue? steps rest
        match skipSpace rest with
        | some '\x7d' :: rest => some ([(n, j)], rest)
        | some ',' :: rest =>
          (readMembers? steps rest).map fun (ms, rest) => ((n, j) :: ms, rest)
        | _ => none
      | _ => none
    | _ => none

end

/-- The value that a text writes, with blanks around it. -/
def ofChars? (cs : List (Option Char)) : Option Json := do
  let (j, rest) ← readValue? (2 * cs.length + 1) cs
  if (skipSpace rest).isEmpty then some j else none

/-- The value that a text writes. -/
def ofText? (s : String) : Option Json := ofChars? (s.toList.map some)

/-- The value that the bytes of a text write. -/
def ofBytes? (bytes : List UInt8) : Option Json := ofChars? (decodeChars bytes)

end Json

end RecordQuery
