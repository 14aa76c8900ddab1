/-!
# Wildcard patterns

In a pattern `%` stands for any text and `_` for any one character.  A backslash makes the next
character stand for itself, and so do brackets around a single character.  Every other character
stands for itself, also a backslash at the end and a bracket that no single character and closing
bracket follow.

A pattern is read into tokens from the left; a text matches when it can be cut into pieces, one
for each token.
-/

namespace RecordQuery.Text

/-- One element of a pattern. -/
inductive PatternToken where
  /-- Any text, also none. -/
  | any
  /-- Any one character. -/
  | one
  /-- This character. -/
  | char (c : Char)
deriving DecidableEq, Repr

/-- The tokens of a pattern. -/
def patternTokens : List Char → List PatternToken
  | [] => []
  | '%' :: cs => .any :: patternTokens cs
  | '_' :: cs => .one :: patternTokens cs
  | '\\' :: c :: cs => .char c :: patternTokens cs
  | '[' :: c :: ']' :: cs => .char c :: patternTokens cs
  | c :: cs => .char c :: patternTokens cs

/-- Some rest of a text, the text itself and the empty one included, satisfies `p`. -/
def someRest (p : List Char → Bool) : List Char → Bool
  | [] => p []
  | c :: cs => p (c :: cs) || someRest p cs

/-- A text can be cut into pieces for the tokens. -/
def matchesTokens : List PatternToken → List Char → Bool
  | [], cs => cs.isEmpty
  | .any :: ts, cs => someRest (matchesTokens ts) cs
  | .one :: ts, _ :: cs => matchesTokens ts cs
  | .char p :: ts, c :: cs => p = c && matchesTokens ts cs
  | _ :: _, [] => false

/-- A text matches a pattern. -/
def matchesPattern (text pattern : String) : Bool :=
  matchesTokens (patternTokens pattern.toList) text.toList

example : matchesPattern "a_b" "a\\_b" = true := by decide +kernel
example : matchesPattern "10%" "%[%]" = true := by decide +kernel
example : matchesPattern "abc" "a_" = false := by decide +kernel

/-! ## Parts of texts -/

/-- A text starts with another. -/
def startsWith (text part : String) : Bool := part.toList.isPrefixOf text.toList

/-- A text ends with another. -/
def endsWith (text part : String) : Bool := part.toList.isSuffixOf text.toList

/-- A text has another among its consecutive characters. -/
def containsText (text part : String) : Bool :=
  someRest (fun rest => part.toList.isPrefixOf rest) text.toList

end RecordQuery.Text
