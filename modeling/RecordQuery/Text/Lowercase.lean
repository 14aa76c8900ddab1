import RecordQuery.Text.CaseTable

/-!
# Lower case of text

Names and, unless a query asks otherwise, texts are compared by their lower case.  The lower case
of a text is taken character by character, by the full mapping of the character standard: most
characters have one lower-case character, `İ` has two, and `Σ` has two forms.  The form of `Σ`
at the end of a word is `ς`; everywhere else it is `σ`.

The mapping is not length preserving and, because of `Σ`, not even a map of characters: whether
a word has ended depends on the neighbours.
-/

namespace RecordQuery.Text

/-! ## Classes of characters -/

/-- Some range holds the code point. -/
def inRanges (ranges : List (Nat × Nat)) (n : Nat) : Bool :=
  ranges.any fun r => r.1 ≤ n && n ≤ r.2

/-- The character is an upper-case, lower-case or title-case letter. -/
def isCased (c : Char) : Bool :=
  if c.toNat < 0x80 then c.isAlpha else inRanges casedRanges c.toNat

/-- The character may stand inside a word without being part of it. -/
def isCaseIgnorable (c : Char) : Bool :=
  if c.toNat < 0x80 then c == '\'' || c == '.' || c == ':' || c == '^' || c.toNat == 0x60
  else inRanges caseIgnorableRanges c.toNat

/-! ## Single characters -/

/-- The lower case of one character by the table, itself where the table is silent. -/
def lowerByRows : List (Nat × Nat × Nat × Int) → Char → Char
  | [], c => c
  | (first, last, step, shift) :: rows, c =>
    if first ≤ c.toNat && c.toNat ≤ last && (c.toNat - first) % step == 0 then
      Char.ofNat (c.toNat + shift).toNat
    else lowerByRows rows c

/-- The lower case of a character that does not look at its neighbours. -/
def lowerChar (c : Char) : List Char :=
  if c.toNat < 0x80 then [c.toLower]
  else if c = 'İ' then ['i', '\u0307']
  else [lowerByRows lowerCaseRows c]

/-! ## The end of a word -/

/-- The first character that is not case-ignorable is cased. -/
def reachesCased : List Char → Bool
  | [] => false
  | c :: cs => if isCaseIgnorable c then reachesCased cs else isCased c

/-- The form of `Σ` between the text before it, nearest character first, and the text after. -/
def lowerSigma (before after : List Char) : Char :=
  if reachesCased before && !reachesCased after then 'ς' else 'σ'

/-! ## Texts -/

/-- The lower case of the characters that follow `before`, which is nearest character first. -/
def lowerFrom (before : List Char) : List Char → List Char
  | [] => []
  | c :: cs =>
    (if c = 'Σ' then [lowerSigma before cs] else lowerChar c) ++ lowerFrom (c :: before) cs

/-- The lower case of a text. -/
def lowercase (s : String) : String :=
  String.ofList (lowerFrom [] s.toList)

example : lowercase "AccountId" = "accountid" := by decide +kernel
example : lowercase "ΟΔΟΣ ΣΑΣ." = "οδος σας." := by decide +kernel
example : lowercase "İ" = "i\u0307" := by decide +kernel

/-- Two texts agree up to the case of the letters `A` to `Z`. -/
def equalIgnoringAsciiCase (s t : String) : Bool :=
  s.toList.map Char.toLower == t.toList.map Char.toLower

example : equalIgnoringAsciiCase "Name" "nAME" = true := by decide +kernel
example : equalIgnoringAsciiCase "É" "é" = false := by decide +kernel

end RecordQuery.Text
