import RecordQuery.Calendar.Date
import RecordQuery.Number.Power
import RecordQuery.Text.Blank

/-!
# Instants

An instant is a date, a second of that date and a nanosecond of that second, all in universal
time.  A leap second has no number of its own: it is written as second 60 of its minute and stored
as the second before it with a thousand million nanoseconds on top, so instants are still ordered
by date, second and nanosecond.

*Writing.*  `2024-03-15T10:00:00Z`, with no fraction or one of three, six or nine digits, whichever
is the first to show it whole.

*Reading.*  Two grammars are read.  The *strict* one fixes the width of every field and allows
nothing else; where a query compares with a text, a bare date is accepted beside it and means its
midnight.  The *lenient* one is for stored values: fields may be shorter, years longer with a sign,
and blanks may stand between the fields.
-/

namespace RecordQuery

open Text

/-- A moment in universal time. -/
structure Instant where
  date : Date
  /-- Seconds since midnight. -/
  second : Nat
  /-- Nanoseconds of the second; a thousand million and more within a leap second. -/
  nano : Nat
  second_lt : second < 86400
  nano_lt : nano < 2000000000
  /-- Only the last second of a minute is followed by a leap second. -/
  leap_second : 1000000000 ≤ nano → second % 60 = 59
deriving DecidableEq, Repr

namespace Instant

/-- The position of an instant in time order; a second has room for the leap second after it. -/
def rank (i : Instant) : Int := (i.date.day * 86400 + i.second) * 2000000000 + i.nano

instance : LE Instant := ⟨fun a b => a.rank ≤ b.rank⟩
instance : LT Instant := ⟨fun a b => a.rank < b.rank⟩
instance (a b : Instant) : Decidable (a ≤ b) := inferInstanceAs (Decidable (a.rank ≤ b.rank))
instance (a b : Instant) : Decidable (a < b) := inferInstanceAs (Decidable (a.rank < b.rank))
instance : Ord Instant := ⟨fun a b => compare a.rank b.rank⟩

/-- The first instant of a date. -/
def midnight (d : Date) : Instant := ⟨d, 0, 0, by decide, by decide, by decide⟩

instance : Inhabited Instant := ⟨midnight default⟩

/-- The instant at a second counted from a date, with the given nanosecond. -/
def ofSeconds? (d : Date) (seconds : Int) (nano : Nat) : Option Instant :=
  let second := (seconds % 86400).toNat
  if h : nano < 2000000000 ∧ (1000000000 ≤ nano → second % 60 = 59) then
    (d.addDays? (seconds / 86400)).map fun date => ⟨date, second, nano, by omega, h.1, h.2⟩
  else none

/-- The instant a number of seconds later.  A step out of a leap second takes it as the second it
extends when going forward, and as the second after that when going back. -/
def addSeconds? (i : Instant) (n : Int) : Option Instant :=
  if n = 0 then some i
  else if i.nano < 1000000000 then ofSeconds? i.date (i.second + n) i.nano
  else if 0 < n then ofSeconds? i.date (i.second + n) (i.nano - 1000000000)
  else ofSeconds? i.date (i.second + 1 + n) (i.nano - 1000000000)

/-- The instant a number of hours later. -/
def addHours? (i : Instant) (n : Int) : Option Instant := i.addSeconds? (3600 * n)

/-- The instant a number of days later. -/
def addDays? (i : Instant) (n : Int) : Option Instant := i.addSeconds? (86400 * n)

/-- The same time of day a number of months later. -/
def addMonths? (i : Instant) (n : Int) : Option Instant :=
  (i.date.addMonths? n).map fun date => { i with date := date }

/-! ## Writing -/

/-- The fraction of a second behind its point, in thousandths, millionths or smaller. -/
def fractionChars (nano : Nat) : List Char :=
  if nano = 0 then []
  else if nano % 1000000 = 0 then '.' :: paddedDigits 3 (nano / 1000000)
  else if nano % 1000 = 0 then '.' :: paddedDigits 6 (nano / 1000)
  else '.' :: paddedDigits 9 nano

/-- Hours, minutes, seconds and fraction. -/
def timeChars (second nano : Nat) : List Char :=
  let leap := if nano < 1000000000 then 0 else 1
  paddedDigits 2 (second / 3600) ++ ':' :: paddedDigits 2 (second / 60 % 60) ++
    ':' :: paddedDigits 2 (second % 60 + leap) ++ fractionChars (nano - leap * 1000000000)

/-- Date and time, without the mark of universal time. -/
def localChars (i : Instant) : List Char :=
  i.date.chars ++ 'T' :: timeChars i.second i.nano

/-- The form in which instants are stored. -/
def storedText (i : Instant) : String := String.ofList (i.localChars ++ ['Z'])

/-- The form in which instants are shown, with universal time as an offset. -/
def text (i : Instant) : String := String.ofList (i.localChars ++ "+00:00".toList)

/-! ## Reading fields -/

/-- The number written by the digits at the start, at least `least` and at most `most` of them. -/
def readNumber? (least most : Nat) (cs : List Char) : Option (Nat × List Char) :=
  let ds := (cs.take most).takeWhile Char.isDigit
  if ds.length < least then none else some (Nat.ofDigitChars 10 ds 0, cs.drop ds.length)

/-- Drops an expected character. -/
def expect? (c : Char) : List Char → Option (List Char)
  | [] => none
  | d :: cs => if d = c then some cs else none

/-- Drops the mark between date and time. -/
def expectSeparator? : List Char → Option (List Char)
  | [] => none
  | c :: cs => if c = 'T' ∨ c = 't' ∨ c = ' ' then some cs else none

/-- The nanoseconds of an optional fraction; digits behind the ninth are dropped. -/
def readFraction? : List Char → Option (Nat × List Char)
  | '.' :: cs => do
    let ds := (cs.take 9).takeWhile Char.isDigit
    if ds.isEmpty then none
    let nano := Nat.ofDigitChars 10 ds 0 * tenTo (9 - ds.length)
    some (nano, (cs.drop ds.length).dropWhile Char.isDigit)
  | cs => some (0, cs)

/-- The seconds of an offset: a sign, hours, whatever `gap` drops, and minutes. -/
def readOffset? (gap : List Char → Option (List Char)) : List Char → Option (Int × List Char)
  | [] => none
  | c :: cs =>
    if c = 'Z' ∨ c = 'z' then some (0, cs)
    else if c = '+' ∨ c = '-' ∨ c = '−' then do
      let (hours, cs) ← readNumber? 2 2 cs
      let cs ← gap cs
      let (minutes, cs) ← readNumber? 2 2 cs
      if minutes > 59 then none
      let seconds : Int := 3600 * hours + 60 * minutes
      some (if c = '+' then seconds else -seconds, cs)
    else none

/-- A year of any number of digits behind a sign, or of at most four without one. -/
def readYear? : List Char → Option (Int × List Char)
  | '-' :: cs => (readNumber? 1 cs.length cs).map fun (n, rest) => (-(n : Int), rest)
  | '+' :: cs => (readNumber? 1 cs.length cs).map fun (n, rest) => ((n : Int), rest)
  | cs => (readNumber? 1 4 cs).map fun (n, rest) => ((n : Int), rest)

/-- The instant of a date and time that are ahead of universal time by an offset in seconds. -/
def assemble? (year : Int) (month day hour minute second nano : Nat) (offset : Int) :
    Option Instant := do
  let date ← Date.ofCivil? year month day
  if hour > 23 ∨ minute > 59 ∨ second > 60 ∨ offset ≤ -86400 ∨ 86400 ≤ offset then none
  let (second, nano) := if second = 60 then (59, nano + 1000000000) else (second, nano)
  ofSeconds? date (3600 * hour + 60 * minute + second - offset) nano

/-! ## The strict grammar -/

/-- Reads fields of fixed width and an offset, and nothing behind them. -/
def readStrict? (cs : List Char) : Option Instant := do
  let (year, cs) ← readNumber? 4 4 cs
  let cs ← expect? '-' cs
  let (month, cs) ← readNumber? 2 2 cs
  let cs ← expect? '-' cs
  let (day, cs) ← readNumber? 2 2 cs
  let cs ← expectSeparator? cs
  let (hour, cs) ← readNumber? 2 2 cs
  let cs ← expect? ':' cs
  let (minute, cs) ← readNumber? 2 2 cs
  let cs ← expect? ':' cs
  let (second, cs) ← readNumber? 2 2 cs
  let (nano, cs) ← readFraction? cs
  let (offset, cs) ← readOffset? (expect? ':') cs
  if cs.isEmpty then assemble? year month day hour minute second nano offset else none

/-- Reads a year, month and day of the month, each of which blanks may precede. -/
def readDate? (cs : List Char) : Option Date := do
  let (year, cs) ← readYear? (trimLeft cs)
  let cs ← expect? '-' cs
  let (month, cs) ← readNumber? 1 2 (trimLeft cs)
  let cs ← expect? '-' cs
  let (day, cs) ← readNumber? 1 2 (trimLeft cs)
  if cs.isEmpty then Date.ofCivil? year month day else none

/-- The instant that a literal names: an instant by the strict grammar, or a bare date. -/
def ofLiteral? (s : String) : Option Instant :=
  (readStrict? s.toList).orElse fun _ => (readDate? s.toList).map midnight

/-! ## The lenient grammar -/

/-- Drops blanks and colons. -/
def dropGap (cs : List Char) : List Char :=
  cs.dropWhile fun c => c == ':' || isBlank c

/-- An offset, or the name of universal time. -/
def readZone? : List Char → Option (Int × List Char)
  | u :: t :: c :: cs =>
    if u.toLower = 'u' ∧ t.toLower = 't' ∧ c.toLower = 'c' then some (0, cs)
    else readOffset? (fun cs => some (dropGap cs)) (u :: t :: c :: cs)
  | cs => readOffset? (fun cs => some (dropGap cs)) cs

/-- Reads fields of free width with blanks between them, and nothing but blanks behind. -/
def readLenient? (cs : List Char) : Option Instant := do
  let (year, cs) ← readYear? (trimLeft cs)
  let cs ← expect? '-' (trimLeft cs)
  let (month, cs) ← readNumber? 1 2 (trimLeft cs)
  let cs ← expect? '-' (trimLeft cs)
  let (day, cs) ← readNumber? 1 2 (trimLeft cs)
  let cs ← expectSeparator? cs
  let (hour, cs) ← readNumber? 1 2 (trimLeft cs)
  let cs ← expect? ':' (trimLeft cs)
  let (minute, cs) ← readNumber? 1 2 (trimLeft cs)
  let cs ← expect? ':' (trimLeft cs)
  let (second, cs) ← readNumber? 1 2 (trimLeft cs)
  let (nano, cs) ← readFraction? cs
  let (offset, cs) ← readZone? (trimLeft cs)
  if (trimLeft cs).isEmpty then assemble? year month day hour minute second nano offset else none

/-- The instant that a stored text holds. -/
def ofStored? (s : String) : Option Instant := readLenient? s.toList

example : (ofLiteral? "2024-03-01T00:20:30+05:30").map text = some "2024-02-29T18:50:30+00:00" := by
  decide +kernel
example : (ofLiteral? "24-3-1").map text = some "0024-03-01T00:00:00+00:00" := by decide +kernel
example : ofLiteral? "2024-03-01T10:20:30+24:00" = none := by decide +kernel
example : (ofLiteral? "2016-12-31T23:59:60.5Z").map storedText =
    some "2016-12-31T23:59:60.500Z" := by decide +kernel
example : (ofStored? "+12024-1-01 7:00:00.25 UTC").map storedText =
    some "+12024-01-01T07:00:00.250Z" := by decide +kernel

end Instant

end RecordQuery
