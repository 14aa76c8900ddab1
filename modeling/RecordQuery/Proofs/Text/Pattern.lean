import RecordQuery.Proofs.Text.Sigma
import RecordQuery.Text.Pattern

/-!
# Patterns in lower case

A pattern that is read in lower case has other characters than the pattern, and it is matched with
texts that have other characters too.  A cutting of the text for the tokens of the pattern is still
one for those of its lower case if nothing in it changes its shape (`KeepsCutting`).

*Tokens.*  No character becomes a wildcard, a backslash or a bracket in lower case, and none of
these becomes another character (`eq_of_mem_lowerAt`).  So the lower case of a pattern has the tokens
of the pattern, with `İ` as two of them.  Brackets only stand around one character, so those around
an `İ` are lost.

*Texts.*  In a text an `İ` becomes two characters as well, which one `_` does not match.  What else
can go wrong is the form of `Σ`.
-/

namespace RecordQuery.Text

/-! ## Rests -/

theorem someRest_iff {p : List Char → Bool} {cs : List Char} :
    someRest p cs = true ↔ ∃ skipped rest, cs = skipped ++ rest ∧ p rest = true := by
  induction cs with
  | nil =>
      constructor
      · intro h
        exact ⟨[], [], rfl, h⟩
      · rintro ⟨skipped, rest, hcs, h⟩
        obtain ⟨rfl, rfl⟩ := List.append_eq_nil_iff.mp hcs.symm
        exact h
  | cons c cs ih =>
      rw [someRest, Bool.or_eq_true, ih]
      constructor
      · rintro (h | ⟨skipped, rest, rfl, h⟩)
        · exact ⟨[], c :: cs, rfl, h⟩
        · exact ⟨c :: skipped, rest, rfl, h⟩
      · rintro ⟨skipped, rest, hcs, h⟩
        rcases List.cons_eq_append_iff.mp hcs with ⟨rfl, rfl⟩ | ⟨skipped', rfl, rfl⟩
        · exact .inl h
        · exact .inr ⟨skipped', rest, rfl, h⟩

theorem startsWith_iff {text part : String} :
    startsWith text part = true ↔ part.toList <+: text.toList := List.isPrefixOf_iff_prefix

theorem endsWith_iff {text part : String} :
    endsWith text part = true ↔ part.toList <:+ text.toList := List.isSuffixOf_iff_suffix

theorem containsText_iff {text part : String} :
    containsText text part = true ↔ part.toList <:+: text.toList := by
  rw [containsText, someRest_iff]
  constructor
  · rintro ⟨skipped, rest, htext, h⟩
    obtain ⟨after, rfl⟩ := List.isPrefixOf_iff_prefix.mp h
    exact ⟨skipped, after, by rw [htext, List.append_assoc]⟩
  · rintro ⟨skipped, after, htext⟩
    refine ⟨skipped, part.toList ++ after, by rw [← htext, List.append_assoc], ?_⟩
    exact List.isPrefixOf_iff_prefix.mpr (List.prefix_append ..)

/-! ## Marks -/

/-- The characters that mean something in a pattern. -/
def marks : List Char := ['%', '_', '\\', '[', ']']

theorem marks_lower : marks.all (fun m => IsLower m) = true := by decide +kernel

theorem lowerAt_mark {m : Char} (hm : m ∈ marks) (before after : List Char) :
    lowerAt before m after = [m] := by
  have hlower : IsLower m := of_decide_eq_true (List.all_eq_true.mp marks_lower m hm)
  rw [lowerAt, if_neg hlower.ne_sigma, hlower.lowerChar_eq]

theorem ascii_mark : ∀ n < 0x80, (Char.ofNat n).toLower ∈ marks →
    (Char.ofNat n).toLower = Char.ofNat n := by
  decide

/-- No row gives a mark. -/
theorem rows_no_mark : lowerCaseRows.all (fun r => marks.all fun m =>
    (m.toNat : Int) < r.1 + r.2.2.2 ∨ r.2.1 + r.2.2.2 < m.toNat) = true := by
  decide +kernel

theorem sigma_not_mark : 'ς' ∉ marks ∧ 'σ' ∉ marks := by decide

theorem dotted_not_mark : 'i' ∉ marks ∧ '\u0307' ∉ marks := by decide

/-- No character becomes a mark in lower case. -/
theorem eq_of_mem_lowerChar {c m : Char} (h : m ∈ lowerChar c) (hm : m ∈ marks) : m = c := by
  unfold lowerChar at h
  split at h
  next hascii =>
    have hmark := ascii_mark c.toNat hascii
    rw [Char.ofNat_toNat] at hmark
    rw [List.mem_singleton] at h
    subst h
    exact hmark hm
  next hascii =>
    split at h
    next hdotted =>
      exfalso
      rcases List.mem_cons.mp h with rfl | h
      · exact dotted_not_mark.1 hm
      · rw [List.mem_singleton] at h
        subst h
        exact dotted_not_mark.2 hm
    next hdotted =>
      rw [List.mem_singleton] at h
      rcases lowerByRows_cases c lowerCaseRows with ⟨hself, -⟩ | ⟨r, hr, hrow, hlower⟩
      · rw [h, hself]
      · exfalso
        have hgiven := toNat_inRow hr hrow
        rw [← hlower, ← h] at hgiven
        obtain ⟨hfirst, hlast, -⟩ := hrow
        have hapart := List.all_eq_true.mp (List.all_eq_true.mp rows_no_mark r hr) m hm
        rcases of_decide_eq_true hapart with hbelow | habove
        · omega
        · omega

theorem eq_of_mem_lowerAt {before after : List Char} {c m : Char}
    (h : m ∈ lowerAt before c after) (hm : m ∈ marks) : m = c := by
  unfold lowerAt at h
  split at h
  next hsigma =>
    exfalso
    rw [List.mem_singleton, lowerSigma] at h
    split at h
    · subst h
      exact sigma_not_mark.1 hm
    · subst h
      exact sigma_not_mark.2 hm
  next hother => exact eq_of_mem_lowerChar h hm

/-- Every character but `İ` has one lower character. -/
theorem exists_lowerAt {c : Char} (hc : c ≠ 'İ') (before after : List Char) :
    ∃ d, lowerAt before c after = [d] := by
  unfold lowerAt
  split
  · exact ⟨_, rfl⟩
  · unfold lowerChar
    rw [if_neg hc]
    split <;> exact ⟨_, rfl⟩

theorem lowerAt_dotted (before after : List Char) : lowerAt before 'İ' after = ['i', '\u0307'] := by
  rw [lowerAt, if_neg (by decide)]
  decide

theorem lowerAt_ne_nil (before : List Char) (c : Char) (after : List Char) :
    lowerAt before c after ≠ [] := by
  unfold lowerAt
  split
  · exact nofun
  · exact lowerChar_ne_nil c

/-! ## Tokens -/

/-- The characters that do not stand for themselves everywhere in a pattern: all marks but the
closing bracket. -/
def specialChars : List Char := ['%', '_', '\\', '[']

theorem mem_marks_of_special {c : Char} (hc : c ∈ specialChars) : c ∈ marks :=
  List.mem_append_left [']'] hc

/-- In front of the rest of a pattern a character stands for itself. -/
structure StandsForItself (c : Char) (rest : List Char) : Prop where
  notAny : c ≠ '%'
  notOne : c ≠ '_'
  notEscape : c = '\\' → ∀ d ds, rest ≠ d :: ds
  notBracket : c = '[' → ∀ d ds, rest ≠ d :: ']' :: ds

namespace StandsForItself

variable {c : Char} {rest : List Char}

theorem of_not_special (h : c ∉ specialChars) (rest : List Char) : StandsForItself c rest := by
  simp only [specialChars, List.mem_cons, List.not_mem_nil, or_false, not_or] at h
  exact ⟨h.1, h.2.1, fun heq => absurd heq h.2.2.1, fun heq => absurd heq h.2.2.2⟩

theorem of_not_mark (h : c ∉ marks) (rest : List Char) : StandsForItself c rest :=
  of_not_special (fun hc => h (mem_marks_of_special hc)) rest

theorem patternTokens_eq (h : StandsForItself c rest) :
    patternTokens (c :: rest) = .char c :: patternTokens rest :=
  patternTokens.eq_6 c rest h.notAny h.notOne (fun d ds hc => h.notEscape hc d ds)
    fun d ds hc => h.notBracket hc d ds

end StandsForItself

/-- A bracket stands second in lower case only if it stands second in the text. -/
theorem second_of_lowerFrom {before cs ds : List Char} {d : Char}
    (h : lowerFrom before cs = d :: ']' :: ds) : ∃ c cs', cs = c :: ']' :: cs' := by
  have hfirst : ∀ {before cs : List Char}, lowerFrom before cs = ']' :: ds →
      ∃ cs', cs = ']' :: cs' := by
    intro before cs h
    cases cs with
    | nil => cases h
    | cons c cs =>
        obtain ⟨e, es, hlow⟩ := List.exists_cons_of_ne_nil (lowerAt_ne_nil before c cs)
        rw [lowerFrom_cons, hlow] at h
        have hmem : ']' ∈ lowerAt before c cs := by
          rw [hlow, ← (List.cons.inj h).1]
          exact .head _
        rw [← eq_of_mem_lowerAt hmem (by decide)]
        exact ⟨cs, rfl⟩
  cases cs with
  | nil => cases h
  | cons c cs =>
      rw [lowerFrom_cons] at h
      by_cases hc : c = 'İ'
      · rw [hc, lowerAt_dotted] at h
        have hsecond : '\u0307' = ']' := (List.cons.inj (List.cons.inj h).2).1
        exact absurd hsecond (by decide)
      · obtain ⟨e, he⟩ := exists_lowerAt hc before cs
        rw [he] at h
        obtain ⟨cs', rfl⟩ := hfirst (List.cons.inj h).2
        exact ⟨c, cs', rfl⟩

/-- The lower case of a character that stands for itself stands for itself. -/
theorem StandsForItself.lower {c : Char} {rest : List Char} (h : StandsForItself c rest)
    (before before' : List Char) : patternTokens (lowerAt before c rest ++ lowerFrom before' rest) =
      (lowerAt before c rest).map .char ++ patternTokens (lowerFrom before' rest) := by
  by_cases hc : c = 'İ'
  · obtain ⟨hi, hdot⟩ := dotted_not_mark
    subst hc
    rw [lowerAt_dotted]
    calc patternTokens ('i' :: '\u0307' :: lowerFrom before' rest)
        = .char 'i' :: patternTokens ('\u0307' :: lowerFrom before' rest) :=
          (StandsForItself.of_not_mark hi _).patternTokens_eq
      _ = .char 'i' :: .char '\u0307' :: patternTokens (lowerFrom before' rest) := by
          rw [(StandsForItself.of_not_mark hdot _).patternTokens_eq]
  · obtain ⟨d, hd⟩ := exists_lowerAt hc before rest
    have hself : ∀ m ∈ marks, d = m → c = m := by
      intro m hm hdm
      have hmem : m ∈ lowerAt before c rest := by
        rw [hd, hdm]
        exact .head _
      exact (eq_of_mem_lowerAt hmem hm).symm
    have hlower : StandsForItself d (lowerFrom before' rest) := by
      constructor
      case notAny => exact fun heq => h.notAny (hself _ (by decide) heq)
      case notOne => exact fun heq => h.notOne (hself _ (by decide) heq)
      case notEscape =>
        intro heq e es hrest
        cases hcases : rest with
        | nil =>
            rw [hcases] at hrest
            cases hrest
        | cons r rs => exact h.notEscape (hself _ (by decide) heq) r rs hcases
      case notBracket =>
        intro heq e es hrest
        obtain ⟨r, rs, hcases⟩ := second_of_lowerFrom hrest
        exact h.notBracket (hself _ (by decide) heq) r rs hcases
    rw [hd]
    exact hlower.patternTokens_eq

/-- A character behind a backslash stands for its lower case. -/
theorem patternTokens_escaped (before : List Char) (c : Char) (after rest : List Char) :
    patternTokens ('\\' :: (lowerAt before c after ++ rest)) =
      (lowerAt before c after).map .char ++ patternTokens rest := by
  by_cases hc : c = 'İ'
  · obtain ⟨-, hdot⟩ := dotted_not_mark
    subst hc
    rw [lowerAt_dotted]
    exact congrArg (.char 'i' :: ·) (StandsForItself.of_not_mark hdot rest).patternTokens_eq
  · obtain ⟨d, hd⟩ := exists_lowerAt hc before after
    rw [hd]
    rfl

theorem matchesTokens_char_iff {c : Char} {ts : List PatternToken} {cs : List Char} :
    matchesTokens (.char c :: ts) cs = true ↔
      ∃ rest, cs = c :: rest ∧ matchesTokens ts rest = true := by
  cases cs with
  | nil => simp [matchesTokens]
  | cons d cs =>
      rw [matchesTokens, Bool.and_eq_true, decide_eq_true_iff]
      constructor
      · rintro ⟨rfl, h⟩
        exact ⟨cs, rfl, h⟩
      · rintro ⟨rest, hcs, h⟩
        cases hcs
        exact ⟨rfl, h⟩

theorem matchesTokens_chars (low : List Char) (ts : List PatternToken) (cs : List Char) :
    matchesTokens (low.map .char ++ ts) (low ++ cs) = matchesTokens ts cs := by
  induction low with
  | nil => rfl
  | cons c low ih =>
      change (decide (c = c) && matchesTokens (low.map .char ++ ts) (low ++ cs)) = _
      rw [decide_eq_true rfl, Bool.true_and, ih]

/-! ## Cuttings -/

/-- Behind what was read of a pattern and of a text, the rest of the text can be cut into pieces for
the tokens of the rest of the pattern so that lower case keeps them: each `Σ` has one form in both,
no `İ` is matched with `_`, and none stands in brackets. -/
inductive KeepsCutting : (readPattern pattern readText text : List Char) → Prop where
  | done {read read' : List Char} : KeepsCutting read [] read' []
  | any {read ps read' cs : List Char} (skipped : List Char) :
      KeepsCutting ('%' :: read) ps (skipped.reverse ++ read') cs →
      KeepsCutting read ('%' :: ps) read' (skipped ++ cs)
  | one {read ps read' cs : List Char} {c : Char} : c ≠ 'İ' →
      KeepsCutting ('_' :: read) ps (c :: read') cs → KeepsCutting read ('_' :: ps) read' (c :: cs)
  | escaped {read ps read' cs : List Char} {c : Char} :
      (c = 'Σ' → lowerSigma ('\\' :: read) ps = lowerSigma read' cs) →
      KeepsCutting (c :: '\\' :: read) ps (c :: read') cs →
      KeepsCutting read ('\\' :: c :: ps) read' (c :: cs)
  | bracketed {read ps read' cs : List Char} {c : Char} : c ≠ 'İ' →
      (c = 'Σ' → lowerSigma ('[' :: read) (']' :: ps) = lowerSigma read' cs) →
      KeepsCutting (']' :: c :: '[' :: read) ps (c :: read') cs →
      KeepsCutting read ('[' :: c :: ']' :: ps) read' (c :: cs)
  | itself {read ps read' cs : List Char} {c : Char} : StandsForItself c ps →
      (c = 'Σ' → lowerSigma read ps = lowerSigma read' cs) →
      KeepsCutting (c :: read) ps (c :: read') cs → KeepsCutting read (c :: ps) read' (c :: cs)

/-- **A cutting that lower case keeps is one of the lower case.** -/
theorem KeepsCutting.matchesTokens_lower {read ps read' cs : List Char}
    (h : KeepsCutting read ps read' cs) :
    matchesTokens (patternTokens (lowerFrom read ps)) (lowerFrom read' cs) = true := by
  induction h with
  | done => rfl
  | @any read ps read' cs skipped _ ih =>
      have hmark : '%' ∈ marks := by decide
      rw [lowerFrom_cons, lowerAt_mark hmark, lowerFrom_append]
      exact someRest_iff.mpr ⟨_, _, rfl, ih⟩
  | @one read ps read' cs c hc _ ih =>
      have hmark : '_' ∈ marks := by decide
      obtain ⟨d, hd⟩ := exists_lowerAt hc read' cs
      rw [lowerFrom_cons, lowerAt_mark hmark, lowerFrom_cons, hd]
      exact ih
  | @escaped read ps read' cs c hform _ ih =>
      have hmark : '\\' ∈ marks := by decide
      rw [lowerFrom_cons, lowerAt_mark hmark, List.singleton_append, lowerFrom_cons,
        patternTokens_escaped, lowerFrom_cons, ← lowerAt_eq_iff.mpr hform, matchesTokens_chars]
      exact ih
  | @bracketed read ps read' cs c hc hform _ ih =>
      have hopen : '[' ∈ marks := by decide
      have hclose : ']' ∈ marks := by decide
      obtain ⟨d, hd⟩ := exists_lowerAt hc ('[' :: read) (']' :: ps)
      rw [lowerFrom_cons, lowerAt_mark hopen, lowerFrom_cons, hd, lowerFrom_cons,
        lowerAt_mark hclose, lowerFrom_cons, ← lowerAt_eq_iff.mpr hform, hd]
      exact (matchesTokens_chars [d] _ _).trans ih
  | @itself read ps read' cs c hself hform _ ih =>
      rw [lowerFrom_cons, hself.lower, lowerFrom_cons, ← lowerAt_eq_iff.mpr hform,
        matchesTokens_chars]
      exact ih

/-- Where the pattern has no `Σ` and the text no `İ` every cutting is kept. -/
theorem keepsCutting_of_not_mem {read ps read' cs : List Char} (hsigma : 'Σ' ∉ ps)
    (hdotted : 'İ' ∉ cs) (h : matchesTokens (patternTokens ps) cs = true) :
    KeepsCutting read ps read' cs := by
  have hform : ∀ {c : Char} {qs b a b' a' : List Char}, 'Σ' ∉ qs → c ∈ qs →
      c = 'Σ' → lowerSigma b a = lowerSigma b' a' := by
    rintro c qs b a b' a' hqs hc rfl
    exact absurd hc hqs
  -- neither the first character of the text is dotted nor one of the rest
  have hsplit : ∀ {c : Char} {cs : List Char}, 'İ' ∉ c :: cs → c ≠ 'İ' ∧ 'İ' ∉ cs := by
    intro c cs h
    rw [List.mem_cons, not_or] at h
    exact ⟨Ne.symm h.1, h.2⟩
  induction ps using patternTokens.induct generalizing read read' cs with
  | case1 =>
      obtain rfl := List.isEmpty_iff.mp h
      exact .done
  | case2 ps ih =>
      obtain ⟨skipped, rest, rfl, hrest⟩ := someRest_iff.mp h
      rw [List.mem_append, not_or] at hdotted
      exact .any skipped (ih (fun hmem => hsigma (.tail _ hmem)) hdotted.2 hrest)
  | case3 ps ih =>
      cases cs with
      | nil => cases h
      | cons c cs =>
          obtain ⟨hc, hcs⟩ := hsplit hdotted
          exact .one hc (ih (fun hmem => hsigma (.tail _ hmem)) hcs h)
  | case4 c ps ih =>
      obtain ⟨cs, rfl, hrest⟩ := matchesTokens_char_iff.mp h
      obtain ⟨-, hcs⟩ := hsplit hdotted
      exact .escaped (hform hsigma (.tail _ (.head _)))
        (ih (fun hmem => hsigma (.tail _ (.tail _ hmem))) hcs hrest)
  | case5 c ps ih =>
      obtain ⟨cs, rfl, hrest⟩ := matchesTokens_char_iff.mp h
      obtain ⟨hc, hcs⟩ := hsplit hdotted
      exact .bracketed hc (hform hsigma (.tail _ (.head _)))
        (ih (fun hmem => hsigma (.tail _ (.tail _ (.tail _ hmem)))) hcs hrest)
  | case6 c ps hany hone hescape hbracket ih =>
      have hself : StandsForItself c ps :=
        ⟨hany, hone, fun hc d ds => hescape d ds hc, fun hc d ds => hbracket d ds hc⟩
      rw [hself.patternTokens_eq] at h
      obtain ⟨cs, rfl, hrest⟩ := matchesTokens_char_iff.mp h
      obtain ⟨-, hcs⟩ := hsplit hdotted
      exact .itself hself (hform hsigma (.head _))
        (ih (fun hmem => hsigma (.tail _ hmem)) hcs hrest)

end RecordQuery.Text
