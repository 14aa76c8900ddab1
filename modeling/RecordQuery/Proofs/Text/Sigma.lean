import RecordQuery.Proofs.Text.Lowercase

/-!
# The lower case of a part of a text

The lower case of a text is that of its parts, each taken where it stands (`lowerFrom_append`).  A
part has as many lower characters everywhere, but not the same ones: the form of a `Σ` depends on
its neighbours, which may lie outside the part.

*Kept forms.*  So a part has its own lower case in a text exactly where each of its `Σ` has the same
form in the text and in the part alone (`lowerBetween_eq_iff`).
-/

namespace RecordQuery.Text

/-! ## Parts -/

/-- The lower case of a character between the text before it, nearest character first, and the text
after. -/
def lowerAt (before : List Char) (c : Char) (after : List Char) : List Char :=
  if c = 'Σ' then [lowerSigma before after] else lowerChar c

theorem lowerFrom_cons (before : List Char) (c : Char) (cs : List Char) :
    lowerFrom before (c :: cs) = lowerAt before c cs ++ lowerFrom (c :: before) cs := rfl

/-- The lower case of the characters of a part between the text before it, nearest character first,
and the text after. -/
def lowerBetween (before : List Char) : (part after : List Char) → List Char
  | [], _ => []
  | c :: cs, after => lowerAt before c (cs ++ after) ++ lowerBetween (c :: before) cs after

theorem lowerFrom_append (before part after : List Char) :
    lowerFrom before (part ++ after) =
      lowerBetween before part after ++ lowerFrom (part.reverse ++ before) after := by
  induction part generalizing before with
  | nil => rfl
  | cons c part ih =>
      rw [List.cons_append, lowerFrom_cons, ih, lowerBetween, List.append_assoc, List.reverse_cons,
        List.append_assoc, List.singleton_append]

/-- A text is a part of itself, with nothing after it. -/
theorem lowerFrom_eq_lowerBetween (before part : List Char) :
    lowerFrom before part = lowerBetween before part [] := by
  have happend := lowerFrom_append before part []
  rwa [List.append_nil, lowerFrom, List.append_nil] at happend

/-! ## The form of `Σ` -/

/-- Each `Σ` of a part has the form between two texts that it has in the part alone. -/
def KeepsForms (before part after : List Char) : Prop :=
  ∀ xs ys, part = xs ++ 'Σ' :: ys →
    lowerSigma (xs.reverse ++ before) (ys ++ after) = lowerSigma xs.reverse ys

theorem keepsForms_of_not_mem {part : List Char} (h : 'Σ' ∉ part) (before after : List Char) :
    KeepsForms before part after := by
  rintro xs ys rfl
  exact absurd (List.mem_append_right xs (.head ys)) h

variable {before after before' after' : List Char}

theorem lowerAt_eq_iff {c : Char} : lowerAt before c after = lowerAt before' c after' ↔
    (c = 'Σ' → lowerSigma before after = lowerSigma before' after') := by
  unfold lowerAt
  split
  next hsigma => simp [hsigma]
  next hother => simp [hother]

theorem length_lowerAt (c : Char) :
    (lowerAt before c after).length = (lowerAt before' c after').length := by
  unfold lowerAt
  split <;> rfl

theorem length_lowerBetween (part : List Char) :
    (lowerBetween before part after).length = (lowerBetween before' part after').length := by
  induction part generalizing before before' with
  | nil => rfl
  | cons c part ih =>
      rw [lowerBetween, lowerBetween, List.length_append, List.length_append, ih, length_lowerAt]

/-- A part has one lower case in two places where its `Σ` have the same forms. -/
theorem lowerBetween_eq_lowerBetween_iff (part : List Char) :
    lowerBetween before part after = lowerBetween before' part after' ↔
      ∀ xs ys, part = xs ++ 'Σ' :: ys → lowerSigma (xs.reverse ++ before) (ys ++ after) =
        lowerSigma (xs.reverse ++ before') (ys ++ after') := by
  induction part generalizing before before' with
  | nil => simp [lowerBetween]
  | cons c part ih =>
      have hsplit :
          lowerBetween before (c :: part) after = lowerBetween before' (c :: part) after' ↔
            lowerAt before c (part ++ after) = lowerAt before' c (part ++ after') ∧
              lowerBetween (c :: before) part after = lowerBetween (c :: before') part after' := by
        rw [lowerBetween, lowerBetween]
        constructor
        · intro h
          exact List.append_inj h (length_lowerAt c)
        · rintro ⟨hfirst, hrest⟩
          rw [hfirst, hrest]
      rw [hsplit, lowerAt_eq_iff, ih]
      constructor
      · rintro ⟨hfirst, hrest⟩ xs ys hpart
        rcases List.cons_eq_append_iff.mp hpart with ⟨rfl, hcons⟩ | ⟨xs', rfl, hcons⟩
        · obtain ⟨rfl, rfl⟩ := List.cons.inj hcons
          exact hfirst rfl
        · rw [List.reverse_cons, List.append_assoc, List.append_assoc]
          exact hrest xs' ys hcons
      · intro h
        refine ⟨fun hsigma => h [] part (hsigma ▸ rfl), fun xs ys hpart => ?_⟩
        have hlater := h (c :: xs) ys (hpart ▸ rfl)
        rwa [List.reverse_cons, List.append_assoc, List.append_assoc] at hlater

/-- **A part has its own lower case in a text exactly where its `Σ` keep their forms.** -/
theorem lowerBetween_eq_iff {part : List Char} :
    lowerBetween before part after = lowerFrom [] part ↔ KeepsForms before part after := by
  rw [lowerFrom_eq_lowerBetween, lowerBetween_eq_lowerBetween_iff]
  simp only [List.append_nil, KeepsForms]

/-! ## Beginnings and ends -/

theorem lowerFrom_isPrefix_iff {part : List Char} :
    lowerFrom [] part <+: lowerFrom [] (part ++ after) ↔ KeepsForms [] part after := by
  rw [lowerFrom_append, ← lowerBetween_eq_iff]
  constructor
  · rintro ⟨rest, hrest⟩
    rw [lowerFrom_eq_lowerBetween] at hrest ⊢
    exact (List.append_inj hrest (length_lowerBetween part)).1.symm
  · intro h
    rw [h]
    exact List.prefix_append ..

theorem lowerFrom_isSuffix_iff {part : List Char} :
    lowerFrom [] part <:+ lowerFrom [] (before ++ part) ↔ KeepsForms before.reverse part [] := by
  rw [lowerFrom_append, ← lowerBetween_eq_iff, List.append_nil,
    lowerFrom_eq_lowerBetween before.reverse]
  constructor
  · rintro ⟨rest, hrest⟩
    rw [lowerFrom_eq_lowerBetween [] part] at hrest ⊢
    exact (List.append_inj' hrest (length_lowerBetween part)).2.symm
  · intro h
    rw [h]
    exact List.suffix_append ..

theorem lowerFrom_isInfix {part : List Char} (h : KeepsForms before.reverse part after) :
    lowerFrom [] part <:+: lowerFrom [] (before ++ part ++ after) := by
  rw [List.append_assoc, lowerFrom_append, lowerFrom_append, List.append_nil,
    lowerBetween_eq_iff.mpr h, ← List.append_assoc]
  exact List.infix_append ..

end RecordQuery.Text
