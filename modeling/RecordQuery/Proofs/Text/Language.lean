import Mathlib.Data.List.Forall2
import RecordQuery.Proofs.Text.Pattern

/-!
# The language of a pattern

A pattern describes a set of texts, and matching decides it (`matchesPattern_iff`).  What belongs to
the set is said without the matcher, in two layers.

*Tokens.*  `Reads` is the grammar of patterns.  It reads a pattern from the left, and a character
stands for itself only where no other rule reads it (`StandsForItself`), so a pattern has one
sequence of tokens.  It is the one that `patternTokens` computes (`reads_iff`).

*Pieces.*  `PatternToken.Takes` says what piece of a text one token takes.  The matcher tries the
pieces that the first token takes and goes on behind each of them (`matchesTokens_cons_iff`), so by
induction on the tokens it finds a cutting of the text if there is one (`matchesTokens_iff`).
-/

namespace RecordQuery.Text

/-! ## Pieces -/

/-- A token takes a piece of a text. -/
inductive PatternToken.Takes : PatternToken → List Char → Prop where
  | any (piece : List Char) : Takes .any piece
  | one (c : Char) : Takes .one [c]
  | char (c : Char) : Takes (.char c) [c]

/-- A text can be cut into pieces, one for each token, in order. -/
def Cuts (ts : List PatternToken) (cs : List Char) : Prop :=
  ∃ pieces, List.Forall₂ PatternToken.Takes ts pieces ∧ pieces.flatten = cs

variable {t : PatternToken} {ts : List PatternToken} {cs : List Char}

theorem cuts_nil_iff : Cuts [] cs ↔ cs = [] := by
  simp [Cuts, eq_comm]

/-- The first token takes a beginning of the text, the others cut the rest. -/
theorem cuts_cons_iff :
    Cuts (t :: ts) cs ↔ ∃ piece rest, cs = piece ++ rest ∧ t.Takes piece ∧ Cuts ts rest := by
  constructor
  · rintro ⟨pieces, htake, rfl⟩
    obtain ⟨piece, others, hfirst, hothers, rfl⟩ := List.forall₂_cons_left_iff.mp htake
    exact ⟨piece, others.flatten, rfl, hfirst, others, hothers, rfl⟩
  · rintro ⟨piece, rest, rfl, hfirst, others, hothers, rfl⟩
    exact ⟨piece :: others, .cons hfirst hothers, rfl⟩

/-- The matcher goes on behind some piece that the first token takes. -/
theorem matchesTokens_cons_iff :
    matchesTokens (t :: ts) cs = true ↔
      ∃ piece rest, cs = piece ++ rest ∧ t.Takes piece ∧ matchesTokens ts rest = true := by
  cases t with
  | any =>
      rw [matchesTokens, someRest_iff]
      constructor
      · rintro ⟨skipped, rest, hcs, hrest⟩
        exact ⟨skipped, rest, hcs, .any skipped, hrest⟩
      · rintro ⟨piece, rest, hcs, -, hrest⟩
        exact ⟨piece, rest, hcs, hrest⟩
  | one =>
      constructor
      · intro h
        cases cs with
        | nil => cases h
        | cons c cs => exact ⟨[c], cs, rfl, .one c, h⟩
      · rintro ⟨piece, rest, rfl, hfirst, hrest⟩
        cases hfirst
        exact hrest
  | char c =>
      rw [matchesTokens_char_iff]
      constructor
      · rintro ⟨rest, rfl, hrest⟩
        exact ⟨[c], rest, rfl, .char c, hrest⟩
      · rintro ⟨piece, rest, rfl, hfirst, hrest⟩
        cases hfirst
        exact ⟨rest, rfl, hrest⟩

theorem matchesTokens_iff : matchesTokens ts cs = true ↔ Cuts ts cs := by
  induction ts generalizing cs with
  | nil => rw [cuts_nil_iff, matchesTokens, List.isEmpty_iff]
  | cons t ts ih => simp only [matchesTokens_cons_iff, cuts_cons_iff, ih]

/-! ## Tokens -/

/-- A pattern, read from the left, has these tokens. -/
inductive Reads : List Char → List PatternToken → Prop where
  | done : Reads [] []
  | any {ps : List Char} {ts : List PatternToken} : Reads ps ts → Reads ('%' :: ps) (.any :: ts)
  | one {ps : List Char} {ts : List PatternToken} : Reads ps ts → Reads ('_' :: ps) (.one :: ts)
  | escaped (c : Char) {ps : List Char} {ts : List PatternToken} :
      Reads ps ts → Reads ('\\' :: c :: ps) (.char c :: ts)
  | bracketed (c : Char) {ps : List Char} {ts : List PatternToken} :
      Reads ps ts → Reads ('[' :: c :: ']' :: ps) (.char c :: ts)
  | itself {c : Char} {ps : List Char} {ts : List PatternToken} :
      StandsForItself c ps → Reads ps ts → Reads (c :: ps) (.char c :: ts)

theorem reads_patternTokens (ps : List Char) : Reads ps (patternTokens ps) := by
  induction ps using patternTokens.induct with
  | case1 => exact .done
  | case2 ps ih => exact .any ih
  | case3 ps ih => exact .one ih
  | case4 c ps ih => exact .escaped c ih
  | case5 c ps ih => exact .bracketed c ih
  | case6 c ps hany hone hescape hbracket ih =>
      have hself : StandsForItself c ps :=
        ⟨hany, hone, fun hc d ds => hescape d ds hc, fun hc d ds => hbracket d ds hc⟩
      rw [hself.patternTokens_eq]
      exact .itself hself ih

/-- A pattern has the tokens that are computed, and no others. -/
theorem reads_iff {ps : List Char} : Reads ps ts ↔ ts = patternTokens ps := by
  constructor
  · intro h
    induction h with
    | done => rfl
    | any _ ih | one _ ih | escaped c _ ih | bracketed c _ ih =>
        rw [ih]
        rfl
    | itself hself _ ih => rw [hself.patternTokens_eq, ih]
  · rintro rfl
    exact reads_patternTokens ps

/-- **A text matches a pattern if it can be cut for the tokens of the pattern, and only then.**  The
tokens are those of the grammar. -/
theorem matchesPattern_iff (text pattern : String) :
    (matchesPattern text pattern = true ↔
      ∃ ts pieces, Reads pattern.toList ts ∧ List.Forall₂ PatternToken.Takes ts pieces ∧
        pieces.flatten = text.toList) ∧
    ∀ ts, Reads pattern.toList ts ↔ ts = patternTokens pattern.toList := by
  refine ⟨?_, fun ts => reads_iff⟩
  rw [matchesPattern, matchesTokens_iff]
  constructor
  · rintro ⟨pieces, htake, hflat⟩
    exact ⟨_, pieces, reads_patternTokens _, htake, hflat⟩
  · rintro ⟨ts, pieces, hreads, htake, hflat⟩
    rw [reads_iff.mp hreads] at htake
    exact ⟨pieces, htake, hflat⟩

end RecordQuery.Text
