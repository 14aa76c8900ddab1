import RecordQuery.Proofs.Number.Value
import RecordQuery.Proofs.Text.Digits

/-!
# Decimals are read back

The text of a decimal is digits with an optional fraction and an optional power of ten
(`written`), and such a text is read as its digits at the scale that the fraction and the power
make up (`ofChars?_written`).  So a decimal is read with its digits and its scale, except that a
few zeros in front of the point are written out, and that zero is `0` at every scale
(`Decimal.ofText?_text`).  What is read has the value of what was written
(`Decimal.compare_reread`).
-/

namespace RecordQuery.Decimal

open Text

/-! ## Signs -/

/-- The minus sign of a negative number. -/
def signChars (negative : Bool) : List Char := if negative then ['-'] else []

/-- A number below zero or from zero on. -/
def signed (negative : Bool) (n : Nat) : Int := if negative then -n else n

section Digits

variable {ds : List Char}

theorem filter_underscore (h : ∀ d ∈ ds, d.isDigit = true) : ds.filter (· ≠ '_') = ds :=
  List.filter_eq_self.mpr fun d hd => decide_eq_true (ne_of_isDigit (h d hd) (by decide))

theorem spacedDigits?_of_isDigit (hne : ds ≠ []) (h : ∀ d ∈ ds, d.isDigit = true) :
    spacedDigits? ds = some (Nat.ofDigitChars 10 ds 0) := by
  cases ds with
  | nil => exact absurd rfl hne
  | cons d ds =>
      have hd : d ≠ '_' := ne_of_isDigit (h d (.head _)) (by decide)
      rw [spacedDigits?, if_neg hd, filter_underscore h, natOfDigits?_of_isDigit hne h]

theorem signedDigits?_signChars (negative : Bool) (hne : ds ≠ []) (h : ∀ d ∈ ds, d.isDigit = true) :
    signedDigits? (signChars negative ++ ds) = some (signed negative (Nat.ofDigitChars 10 ds 0)) := by
  have hread := spacedDigits?_of_isDigit hne h
  cases negative with
  | true =>
      show signedDigits? ('-' :: ds) = _
      rw [signedDigits?, hread]
      rfl
  | false =>
      cases ds with
      | nil => exact absurd rfl hne
      | cons d ds =>
          have hd : d.isDigit = true := h d (.head _)
          show signedDigits? (d :: ds) = _
          rw [signedDigits?]
          · rw [hread]
            rfl
          · exact fun _ h => ne_of_isDigit hd (by decide) (List.cons.inj h).1
          · exact fun _ h => ne_of_isDigit hd (by decide) (List.cons.inj h).1

end Digits

/-! ## Texts with fraction and power -/

/-- A text is read as what its parts are read as. -/
theorem ofChars?_eq {cs base whole : List Char} {power fraction : Option (List Char)}
    {exponent coefficient scale : Int}
    (hpower : cutAt (fun c => c == 'e' || c == 'E') cs = (base, power))
    (hexponent : power.elim (some 0) intOfDigits? = some exponent)
    (hpoint : cutAt (· == '.') base = (whole, fraction))
    (hcoefficient : signedDigits? (whole ++ fraction.getD []) = some coefficient)
    (hscale : (((fraction.getD []).filter (· ≠ '_')).length : Int) - exponent = scale)
    (hfits : fitsSigned 64 scale = true) : ofChars? cs = some ⟨coefficient, scale⟩ := by
  rw [ofChars?, hpower]
  cases power with
  | none =>
      have hzero : (0 : Int) = exponent := Option.some.inj hexponent
      rw [hzero]
      simp only [Option.bind_eq_bind, Option.bind_some, hpoint, hcoefficient, hscale]
      rw [if_pos hfits]
  | some ds =>
      have hread : intOfDigits? ds = some exponent := hexponent
      simp only [Option.bind_eq_bind, Option.bind_some, hread, hpoint, hcoefficient, hscale]
      rw [if_pos hfits]

/-- Digits, a fraction behind its point, and a power of ten behind its letter. -/
def written (whole : List Char) (fraction : Option (List Char))
    (power : Option (Char × List Char)) : List Char :=
  whole ++ (fraction.elim [] ('.' :: ·) ++ power.elim [] fun p => p.1 :: p.2)

section Written

variable {negative : Bool} {whole : List Char} {fraction : Option (List Char)}

theorem isDigit_or_minus_of_mem (hwhole : ∀ d ∈ whole, d.isDigit = true) :
    ∀ c ∈ signChars negative ++ whole, c.isDigit = true ∨ c = '-' := by
  intro c hc
  rcases List.mem_append.mp hc with hsign | hdigit
  · cases negative with
    | true => exact .inr (List.mem_singleton.mp hsign)
    | false => cases hsign
  · exact .inl (hwhole c hdigit)

/-- What stands in front of a power of ten does not look like the letter of one. -/
theorem notPowerMark_of_mem (hwhole : ∀ d ∈ whole, d.isDigit = true)
    (hfraction : ∀ d ∈ fraction.getD [], d.isDigit = true) :
    ∀ c ∈ signChars negative ++ whole ++ fraction.elim [] ('.' :: ·),
      (c == 'e' || c == 'E') = false := by
  have hplain : ∀ c : Char, c.isDigit = true ∨ c = '-' ∨ c = '.' →
      (c == 'e' || c == 'E') = false := by
    rintro c (hdigit | rfl | rfl)
    · simp [ne_of_isDigit hdigit (show 'e'.isDigit = false by decide),
        ne_of_isDigit hdigit (show 'E'.isDigit = false by decide)]
    · decide
    · decide
  intro c hc
  rcases List.mem_append.mp hc with hc | hc
  · exact hplain c ((isDigit_or_minus_of_mem hwhole c hc).imp id .inl)
  · cases fraction with
    | none => cases hc
    | some f =>
        rcases List.mem_cons.mp hc with rfl | hc
        · exact hplain _ (.inr (.inr rfl))
        · exact hplain c (.inl (hfraction c hc))

theorem cutAt_powerMark {power : Option (Char × List Char)}
    (hwhole : ∀ d ∈ whole, d.isDigit = true)
    (hfraction : ∀ d ∈ fraction.getD [], d.isDigit = true)
    (hmark : ∀ p ∈ power, p.1 = 'e' ∨ p.1 = 'E') :
    cutAt (fun c => c == 'e' || c == 'E') (signChars negative ++ written whole fraction power) =
      (signChars negative ++ whole ++ fraction.elim [] ('.' :: ·), power.map (·.2)) := by
  have hunmarked : ∀ c ∈ signChars negative ++ whole ++ fraction.elim [] ('.' :: ·),
      (c == 'e' || c == 'E') = false := notPowerMark_of_mem hwhole hfraction
  rw [written, ← List.append_assoc, ← List.append_assoc]
  cases power with
  | none =>
      rw [Option.elim_none, List.append_nil, cutAt_eq_none hunmarked]
      rfl
  | some p =>
      have hp : (p.1 == 'e' || p.1 == 'E') = true := by simpa using hmark p rfl
      exact cutAt_append hunmarked hp p.2

theorem cutAt_point (hwhole : ∀ d ∈ whole, d.isDigit = true) :
    cutAt (· == '.') (signChars negative ++ whole ++ fraction.elim [] ('.' :: ·)) =
      (signChars negative ++ whole, fraction) := by
  have hnone : ∀ c ∈ signChars negative ++ whole, (c == '.') = false := by
    intro c hc
    rcases isDigit_or_minus_of_mem hwhole c hc with hdigit | rfl
    · exact beq_eq_false_iff_ne.mpr (ne_of_isDigit hdigit (by decide))
    · decide
  cases fraction with
  | none => rw [Option.elim_none, List.append_nil, cutAt_eq_none hnone]
  | some f => exact cutAt_append hnone (by decide) f

end Written

/-- A text of this form is read as its digits at the scale of the fraction and the power. -/
theorem ofChars?_written (negative : Bool) {whole : List Char} {fraction : Option (List Char)}
    {power : Option (Char × List Char)} {exponent : Int} (hne : whole ≠ [])
    (hwhole : ∀ d ∈ whole, d.isDigit = true)
    (hfraction : ∀ d ∈ fraction.getD [], d.isDigit = true)
    (hmark : ∀ p ∈ power, p.1 = 'e' ∨ p.1 = 'E')
    {scale : Int} (hexponent : (power.map (·.2)).elim (some 0) intOfDigits? = some exponent)
    (hscale : ((fraction.getD []).length : Int) - exponent = scale)
    (hfits : fitsSigned 64 scale = true) :
    ofChars? (signChars negative ++ written whole fraction power) =
      some ⟨signed negative (Nat.ofDigitChars 10 (whole ++ fraction.getD []) 0), scale⟩ := by
  have hdigits : ∀ d ∈ whole ++ fraction.getD [], d.isDigit = true :=
    List.forall_mem_append.mpr ⟨hwhole, hfraction⟩
  have hcoefficient := signedDigits?_signChars negative
    (List.append_ne_nil_of_left_ne_nil hne (fraction.getD [])) hdigits
  rw [← List.append_assoc] at hcoefficient
  rw [← filter_underscore hfraction] at hscale
  exact ofChars?_eq (cutAt_powerMark hwhole hfraction hmark) hexponent (cutAt_point hwhole)
    hcoefficient hscale hfits

/-- Without a power of ten, the digits behind the point are the scale. -/
theorem ofChars?_written_none (negative : Bool) {whole : List Char} {fraction : Option (List Char)}
    {m : Nat} {scale : Int} (hne : whole ≠ []) (hwhole : ∀ d ∈ whole, d.isDigit = true)
    (hfraction : ∀ d ∈ fraction.getD [], d.isDigit = true)
    (hvalue : Nat.ofDigitChars 10 (whole ++ fraction.getD []) 0 = m)
    (hscale : ((fraction.getD []).length : Int) = scale) (hfits : fitsSigned 64 scale = true) :
    ofChars? (signChars negative ++ written whole fraction none) =
      some ⟨signed negative m, scale⟩ := by
  rw [ofChars?_written negative hne hwhole hfraction (by simp) rfl
    (by rw [Int.sub_zero, hscale]) hfits, hvalue]

/-! ## Sizes -/

theorem fitsSigned_zero : fitsSigned 64 0 = true := by decide

theorem ofDigitChars_zeros (ds : List Char) (k : Nat) :
    Nat.ofDigitChars 10 (ds ++ List.replicate k '0') 0 = Nat.ofDigitChars 10 ds 0 * tenTo k := by
  rw [Nat.ofDigitChars_append, Nat.ofDigitChars_replicate_zero, Nat.mul_comm]
  rfl

/-- The digits with a point behind the first of them are read at their scale. -/
theorem ofChars?_scientific (negative : Bool) (n : Nat) {s : Int} (hs : fitsSigned 64 s = true) :
    ofChars? (signChars negative ++ scientific (natDigits n) s) = some ⟨signed negative n, s⟩ := by
  cases hdigits : natDigits n with
  | nil => exact absurd hdigits (natDigits_ne_nil n)
  | cons d ds =>
      have hall : ∀ c ∈ d :: ds, c.isDigit = true := by
        rw [← hdigits]
        exact fun _ => isDigit_of_mem_natDigits
      obtain ⟨hd, hds⟩ := List.forall_mem_cons.mp hall
      have hvalue : Nat.ofDigitChars 10 ([d] ++ ds) 0 = n := by
        rw [List.singleton_append, ← hdigits, ofDigitChars_natDigits]
      obtain ⟨exponent, hexponent⟩ : ∃ e : Int, e = ((d :: ds).length : Int) - s - 1 := ⟨_, rfl⟩
      have hscale : (ds.length : Int) - exponent = s := by
        rw [hexponent, List.length_cons]
        omega
      have hpower : intOfDigits? ((if exponent < 0 then [] else ['+']) ++ intDigits exponent) =
          some exponent := by
        split
        next hneg => exact intOfDigits?_intDigits exponent
        next hpos =>
          rw [intDigits, if_neg hpos]
          refine (intOfDigits?_plus _).trans (congrArg some ?_)
          omega
      obtain ⟨fraction, hfraction, hwritten⟩ : ∃ fraction : Option (List Char),
          fraction.getD [] = ds ∧ scientific (d :: ds) s = written [d] fraction
            (some ('E', (if exponent < 0 then [] else ['+']) ++ intDigits exponent)) := by
        cases ds with
        | nil => exact ⟨none, rfl, by simp [scientific, written, hexponent]⟩
        | cons e es => exact ⟨some (e :: es), rfl, by simp [scientific, written, hexponent]⟩
      subst hfraction
      have hmark : ∀ p ∈ some ('E', (if exponent < 0 then [] else ['+']) ++ intDigits exponent),
          p.1 = 'e' ∨ p.1 = 'E' := by
        rintro _ ⟨⟩
        exact .inr rfl
      rw [hwritten, ofChars?_written negative (List.cons_ne_nil d [])
        (List.forall_mem_singleton.mpr hd) hds hmark hpower hscale hs, hvalue]

/-- Digits with their point are written with zeros and the point only besides. -/
theorem mem_positional {ds : List Char} {s : Int} {c : Char} (h : c ∈ positional ds s) :
    c ∈ ds ∨ c = '0' ∨ c = '.' := by
  unfold positional at h
  split at h
  · exact (List.mem_append.mp h).imp_right fun h => .inl (List.eq_of_mem_replicate h)
  · dsimp only at h
    split at h
    · rcases List.mem_append.mp h with h | h
      · exact .inl (List.mem_of_mem_take h)
      · rcases List.mem_cons.mp h with h | h
        · exact .inr (.inr h)
        · exact .inl (List.mem_of_mem_drop h)
    · rw [List.mem_cons, List.mem_cons, List.mem_append] at h
      rcases h with h | h | h | h
      · exact .inr (.inl h)
      · exact .inr (.inr h)
      · exact .inr (.inl (List.eq_of_mem_replicate h))
      · exact .inl h

/-- The digits with a point among them, or with zeros behind them, are read with these. -/
theorem ofChars?_positional (negative : Bool) (n : Nat) {s : Int} (hs : fitsSigned 64 s = true) :
    ofChars? (signChars negative ++ positional (natDigits n) s) =
      some (if s ≤ 0 then ⟨signed negative (n * tenTo (-s).toNat), 0⟩
        else ⟨signed negative n, s⟩) := by
  have hne := natDigits_ne_nil n
  have hall : ∀ d ∈ natDigits n, d.isDigit = true := fun _ => isDigit_of_mem_natDigits
  have hzeros : ∀ k, ∀ d ∈ List.replicate k '0', d.isDigit = true := by
    intro k d hd
    rw [List.eq_of_mem_replicate hd]
    decide
  unfold positional
  by_cases hwhole : s ≤ 0
  · rw [if_pos hwhole, if_pos hwhole]
    have hwritten : natDigits n ++ List.replicate (-s).toNat '0' =
        written (natDigits n ++ List.replicate (-s).toNat '0') none none := by simp [written]
    rw [hwritten]
    refine ofChars?_written_none negative (List.append_ne_nil_of_left_ne_nil hne _)
      (List.forall_mem_append.mpr ⟨hall, hzeros _⟩) (fun _ h => nomatch h) ?_ rfl fitsSigned_zero
    rw [Option.getD_none, List.append_nil, ofDigitChars_zeros, ofDigitChars_natDigits]
  · rw [if_neg hwhole, if_neg hwhole]
    simp only
    split
    next hinside =>
      have hwritten : ∀ whole fraction : List Char,
          whole ++ '.' :: fraction = written whole (some fraction) none := by simp [written]
      rw [hwritten]
      refine ofChars?_written_none negative ?_ (fun d hd => hall d (List.mem_of_mem_take hd))
        (fun d hd => hall d (List.mem_of_mem_drop hd)) ?_ ?_ hs
      · exact List.ne_nil_of_length_pos (by rw [List.length_take]; omega)
      · rw [Option.getD_some, List.take_append_drop, ofDigitChars_natDigits]
      · rw [Option.getD_some, List.length_drop]
        omega
    next hbefore =>
      have hwritten : ∀ fraction : List Char,
          '0' :: '.' :: fraction = written ['0'] (some fraction) none := by simp [written]
      rw [hwritten]
      refine ofChars?_written_none negative (List.cons_ne_nil _ _) (by simp)
        (List.forall_mem_append.mpr ⟨hzeros _, hall⟩) ?_ ?_ hs
      · have hzero : ∀ ds, Nat.ofDigitChars 10 ('0' :: ds) 0 = Nat.ofDigitChars 10 ds 0 :=
          fun ds => Nat.ofDigitChars_cons
        rw [Option.getD_some, List.singleton_append, hzero, Nat.ofDigitChars_append,
          Nat.ofDigitChars_replicate_zero, Nat.mul_zero, ofDigitChars_natDigits]
      · rw [Option.getD_some, List.length_append, List.length_replicate]
        omega

/-- Zeros that the text writes out are read as digits. -/
theorem ofChars?_sizeDigits (negative : Bool) (n : Nat) {s : Int} (hs : fitsSigned 64 s = true) :
    ofChars? (signChars negative ++ sizeDigits n s) =
      some (if -16 < s ∧ s ≤ 0 then ⟨signed negative (n * tenTo (-s).toNat), 0⟩
        else ⟨signed negative n, s⟩) := by
  unfold sizeDigits
  simp only
  split
  next hsmall =>
    rw [ofChars?_scientific negative n hs, if_neg (by omega)]
  next hlarge =>
    split
    next hpower =>
      have hwritten : natDigits n ++ 'e' :: '+' :: natDigits (-s).toNat =
          written (natDigits n) none (some ('e', '+' :: natDigits (-s).toNat)) := by simp [written]
      have hmark : ∀ p ∈ some ('e', '+' :: natDigits (-s).toNat), p.1 = 'e' ∨ p.1 = 'E' := by
        rintro _ ⟨⟩
        exact .inl rfl
      have hscale : ((none.getD ([] : List Char)).length : Int) - (-s).toNat = s := by
        rw [Option.getD_none, List.length_nil]
        omega
      rw [hwritten, ofChars?_written negative (natDigits_ne_nil n)
        (fun _ => isDigit_of_mem_natDigits) (by simp) hmark (intOfDigits?_plus _) hscale hs,
        Option.getD_none, List.append_nil, ofDigitChars_natDigits, if_neg (by omega)]
    next hplain =>
      rw [ofChars?_positional negative n hs]
      by_cases hwhole : s ≤ 0
      · rw [if_pos hwhole, if_pos ⟨by omega, hwhole⟩]
      · rw [if_neg hwhole, if_neg fun h => hwhole h.2]

/-! ## Texts -/

/-- A decimal as it is read from its text: zeros in front of the point are digits then. -/
def reread (d : Decimal) : Decimal :=
  if d.coefficient = 0 then ⟨0, 0⟩
  else if -16 < d.scale ∧ d.scale ≤ 0 then ⟨d.coefficient * tenTo (-d.scale).toNat, 0⟩
  else d

/-- A decimal whose scale 64 bits hold is read back. -/
theorem ofText?_text {d : Decimal} (hs : fitsSigned 64 d.scale = true) :
    ofText? d.text = some d.reread := by
  rw [ofText?, text, String.toList_ofList, chars, reread]
  by_cases hzero : d.coefficient = 0
  · rw [if_pos hzero, if_pos hzero]
    decide
  · rw [if_neg hzero, if_neg hzero]
    obtain ⟨negative, hchars, hsigned⟩ : ∃ negative,
        (if d.coefficient < 0 then '-' :: sizeDigits d.coefficient.natAbs d.scale
          else sizeDigits d.coefficient.natAbs d.scale) =
            signChars negative ++ sizeDigits d.coefficient.natAbs d.scale ∧
        ∀ k : Nat, signed negative (d.coefficient.natAbs * k) = d.coefficient * k := by
      by_cases hneg : d.coefficient < 0
      · refine ⟨true, if_pos hneg, fun k => ?_⟩
        have habs : -(d.coefficient.natAbs : Int) = d.coefficient := by omega
        rw [signed, if_pos rfl, Int.natCast_mul, ← Int.neg_mul, habs]
      · refine ⟨false, if_neg hneg, fun k => ?_⟩
        have habs : (d.coefficient.natAbs : Int) = d.coefficient := by omega
        rw [signed, if_neg Bool.false_ne_true, Int.natCast_mul, habs]
    have hsame : signed negative d.coefficient.natAbs = d.coefficient := by
      simpa using hsigned 1
    rw [hchars, ofChars?_sizeDigits negative _ hs, hsigned, hsame]

/-- What is read has the value of what was written. -/
theorem value_reread (d : Decimal) : d.reread.value = d.value := by
  unfold reread
  split
  next hzero => rw [value_of_zero hzero, value_of_zero rfl]
  next hzero =>
    split
    next hwhole =>
      obtain ⟨k, hk⟩ : ∃ k : ℕ, -d.scale = k := ⟨(-d.scale).toNat, by omega⟩
      rw [value, value, hk, Int.toNat_natCast, zpow_natCast]
      simp [tenTo]
    next hkept => rfl

theorem compare_reread (d : Decimal) : compare d.reread d = .eq := by
  rw [compare_eq, value_reread, compare_eq_iff_eq]

end RecordQuery.Decimal
