import RecordQuery.Proofs.Text.Pattern

/-!
# Escaped texts

A text becomes a pattern for itself when a backslash is put before each of its special characters.
The tokens of such a pattern are the characters of the text, whatever stands behind it
(`patternTokens_escapedChars`).  So with wildcards around it the pattern asks what the tests of parts
of texts ask: whether a text starts with, ends with or contains another (`matchesPattern_escaped`).
-/

namespace RecordQuery.Text

/-! ## Escaping -/

/-- Puts a backslash before each special character. -/
def escapedChars (cs : List Char) : List Char :=
  cs.flatMap fun c => if c ∈ specialChars then ['\\', c] else [c]

/-- The pattern of a text. -/
def escaped (text : String) : String := String.ofList (escapedChars text.toList)

example : escaped "10%_[a]" = "10\\%\\_\\[a]" := by decide +kernel

theorem toList_escaped (text : String) : (escaped text).toList = escapedChars text.toList :=
  String.toList_ofList ..

theorem escapedChars_cons_special {c : Char} (hc : c ∈ specialChars) (cs : List Char) :
    escapedChars (c :: cs) = '\\' :: c :: escapedChars cs := by
  rw [escapedChars, List.flatMap_cons, if_pos hc]
  rfl

theorem escapedChars_cons_plain {c : Char} (hc : c ∉ specialChars) (cs : List Char) :
    escapedChars (c :: cs) = c :: escapedChars cs := by
  rw [escapedChars, List.flatMap_cons, if_neg hc]
  rfl

/-- The tokens of an escaped text are its characters. -/
theorem patternTokens_escapedChars (cs rest : List Char) :
    patternTokens (escapedChars cs ++ rest) = cs.map .char ++ patternTokens rest := by
  induction cs with
  | nil => rfl
  | cons c cs ih =>
      by_cases hc : c ∈ specialChars
      · rw [escapedChars_cons_special hc]
        exact congrArg (.char c :: ·) ih
      · rw [escapedChars_cons_plain hc, List.cons_append,
          (StandsForItself.of_not_special hc _).patternTokens_eq, ih]
        rfl

/-! ## Matching -/

/-- Characters take themselves, and the other tokens match the rest. -/
theorem matchesTokens_chars_iff {part cs : List Char} {ts : List PatternToken} :
    matchesTokens (part.map .char ++ ts) cs = true ↔
      ∃ rest, cs = part ++ rest ∧ matchesTokens ts rest = true := by
  induction part generalizing cs with
  | nil => simp
  | cons c part ih =>
      rw [List.map_cons, List.cons_append, matchesTokens_char_iff]
      constructor
      · rintro ⟨after, rfl, h⟩
        obtain ⟨rest, rfl, hrest⟩ := ih.mp h
        exact ⟨rest, rfl, hrest⟩
      · rintro ⟨rest, rfl, hrest⟩
        exact ⟨part ++ rest, rfl, ih.mpr ⟨rest, rfl, hrest⟩⟩

theorem matchesTokens_any_nil (cs : List Char) : matchesTokens [.any] cs = true :=
  someRest_iff.mpr ⟨cs, [], (List.append_nil cs).symm, rfl⟩

section Parts

variable {part cs : List Char}

theorem matchesTokens_escapedChars_iff :
    matchesTokens (patternTokens (escapedChars part)) cs = true ↔ cs = part := by
  have htokens : patternTokens (escapedChars part) = part.map .char ++ [] := by
    have happend := patternTokens_escapedChars part []
    rwa [List.append_nil] at happend
  rw [htokens, matchesTokens_chars_iff]
  constructor
  · rintro ⟨rest, rfl, hrest⟩
    rw [List.isEmpty_iff.mp hrest, List.append_nil]
  · rintro rfl
    exact ⟨[], (List.append_nil _).symm, rfl⟩

theorem matchesTokens_escapedChars_any_iff :
    matchesTokens (patternTokens (escapedChars part ++ ['%'])) cs = true ↔ part <+: cs := by
  rw [patternTokens_escapedChars, matchesTokens_chars_iff]
  constructor
  · rintro ⟨rest, rfl, -⟩
    exact List.prefix_append ..
  · rintro ⟨rest, rfl⟩
    exact ⟨rest, rfl, matchesTokens_any_nil rest⟩

/-- Behind a wildcard a pattern matches an end of the text. -/
theorem matchesTokens_any_iff {ps : List Char} :
    matchesTokens (patternTokens ('%' :: ps)) cs = true ↔
      ∃ rest, matchesTokens (patternTokens ps) rest = true ∧ rest <:+ cs := by
  rw [patternTokens, matchesTokens, someRest_iff]
  constructor
  · rintro ⟨skipped, rest, rfl, hrest⟩
    exact ⟨rest, hrest, List.suffix_append ..⟩
  · rintro ⟨rest, hrest, skipped, rfl⟩
    exact ⟨skipped, rest, rfl, hrest⟩

theorem matchesTokens_any_escapedChars_iff :
    matchesTokens (patternTokens ('%' :: escapedChars part)) cs = true ↔ part <:+ cs := by
  simp only [matchesTokens_any_iff, matchesTokens_escapedChars_iff, exists_eq_left]

theorem matchesTokens_any_escapedChars_any_iff :
    matchesTokens (patternTokens ('%' :: (escapedChars part ++ ['%']))) cs = true ↔
      part <:+: cs := by
  simp only [matchesTokens_any_iff, matchesTokens_escapedChars_any_iff,
    List.infix_iff_prefix_suffix]

end Parts

section Patterns

variable {text part : String}

theorem matches_escaped_iff : matchesPattern text (escaped part) = true ↔ text = part := by
  rw [matchesPattern, toList_escaped, matchesTokens_escapedChars_iff, String.toList_inj]

theorem matches_escaped_any_iff :
    matchesPattern text (escaped part ++ "%") = true ↔ startsWith text part = true := by
  rw [matchesPattern, String.toList_append, toList_escaped, startsWith_iff]
  exact matchesTokens_escapedChars_any_iff

theorem matches_any_escaped_iff :
    matchesPattern text ("%" ++ escaped part) = true ↔ endsWith text part = true := by
  rw [matchesPattern, String.toList_append, toList_escaped, endsWith_iff]
  exact matchesTokens_any_escapedChars_iff

theorem matches_any_escaped_any_iff :
    matchesPattern text ("%" ++ escaped part ++ "%") = true ↔ containsText text part = true := by
  rw [matchesPattern, String.toList_append, String.toList_append, toList_escaped, containsText_iff]
  exact matchesTokens_any_escapedChars_any_iff

end Patterns

/-- **Escaped texts are matched as texts.**  The pattern of a text matches that text only, and with
wildcards around it the texts that start with it, end with it and contain it. -/
theorem matchesPattern_escaped (text part : String) :
    (matchesPattern text (escaped part) = true ↔ text = part) ∧
      (matchesPattern text (escaped part ++ "%") = true ↔ startsWith text part = true) ∧
      (matchesPattern text ("%" ++ escaped part) = true ↔ endsWith text part = true) ∧
      (matchesPattern text ("%" ++ escaped part ++ "%") = true ↔
        containsText text part = true) :=
  ⟨matches_escaped_iff, matches_escaped_any_iff, matches_any_escaped_iff,
    matches_any_escaped_any_iff⟩

end RecordQuery.Text
