import Mathlib.Data.List.Basic
import RecordQuery.Json.Parser
import RecordQuery.Json.Printer
import RecordQuery.Proofs.Text.Digits
import RecordQuery.Proofs.Text.Hex

/-!
# Strings and numbers are read back

The text of a string is read as parts that stand for its characters (`stringParts_flatMap`),
and these have the string as their text (`textOfParts?_partsOf`).  The text of an integer is read as
the integer as long as nothing stands behind it that could go on with it (`readNumber?_natDigits`).
-/

namespace RecordQuery.Json

open Text

/-! ## Strings -/

/-- The part that a character of a string is written as. -/
def partOf (c : Char) : StringPart :=
  if c = '"' ∨ c = '\\' ∨ c.toNat < 0x20 then .escape c.toNat else .char c

/-- The parts that a string is written as. -/
def partsOf (s : String) : List StringPart := s.toList.map partOf

theorem stringParts_four {cs : List Char} {unit : Nat} (hlength : cs.length = 4)
    (hunit : hexNumber? cs = some unit) (rest : List (Option Char)) :
    stringParts (some '\\' :: some 'u' :: (cs.map some ++ rest)) =
      (stringParts rest).map fun p => (.escape unit :: p.1, p.2) := by
  match cs, hlength with
  | [a, b, c, d], _ =>
      simp only [List.map_cons, List.map_nil, List.cons_append, List.nil_append, stringParts, hunit]
      cases stringParts rest <;> rfl

theorem stringParts_escape {e : Char} {unit : Nat} (hunit : escapeUnit? e = some unit)
    (he : e ≠ 'u') (rest : List (Option Char)) :
    stringParts (some '\\' :: some e :: rest) =
      (stringParts rest).map fun p => (.escape unit :: p.1, p.2) := by
  rw [stringParts]
  · rw [hunit]
    cases stringParts rest <;> rfl
  · exact fun _ _ _ _ _ _ h => he h

theorem stringParts_char {c : Char} (hquote : c ≠ '"') (hslash : c ≠ '\\')
    (hcontrol : ¬c.toNat < 0x20) (rest : List (Option Char)) :
    stringParts (some c :: rest) = (stringParts rest).map fun p => (.char c :: p.1, p.2) := by
  rw [stringParts]
  · rw [if_neg (not_or.mpr ⟨hcontrol, hslash⟩)]
    cases stringParts rest <;> rfl
  · exact hquote
  · exact fun _ _ _ _ _ _ h => hslash h
  · exact fun _ _ _ h => hslash h

/-- A character is read as its part. -/
theorem stringParts_escapeChar (c : Char) (rest : List (Option Char)) :
    stringParts ((escapeChar c).map some ++ rest) =
      (stringParts rest).map fun p => (partOf c :: p.1, p.2) := by
  unfold escapeChar
  -- the seven characters with an escape of their own
  iterate 7
    split
    next hc =>
      subst hc
      exact stringParts_escape rfl (by decide) rest
  split
  next hcontrol =>
    have hpart : partOf c = .escape c.toNat := if_pos (.inr (.inr hcontrol))
    have hunit : hexNumber? (hexDigits 4 c.toNat) = some c.toNat :=
      hexNumber?_hexDigits (Nat.lt_trans hcontrol (by decide))
    rw [hpart]
    exact stringParts_four (length_hexDigits 4 _) hunit rest
  next hquote hslash _ _ _ _ _ hcontrol =>
    have hpart : partOf c = .char c := if_neg (by simp [hquote, hslash, hcontrol])
    rw [hpart]
    exact stringParts_char hquote hslash hcontrol rest

/-- The characters of a string and its closing quote are read as its parts. -/
theorem stringParts_flatMap (cs : List Char) (rest : List (Option Char)) :
    stringParts ((cs.flatMap escapeChar).map some ++ some '"' :: rest) =
      some (cs.map partOf, rest) := by
  induction cs with
  | nil => rfl
  | cons c cs ih =>
      rw [List.flatMap_cons, List.map_append, List.append_assoc, stringParts_escapeChar, ih]
      rfl

theorem map_some_stringChars (s : String) (rest : List (Option Char)) :
    (stringChars s).map some ++ rest =
      some '"' :: ((s.toList.flatMap escapeChar).map some ++ some '"' :: rest) := by
  simp [stringChars]

/-! ## Texts of parts -/

theorem charsOfParts?_escape {u : Nat} (hhigh : isHighSurrogate u = false)
    (hlow : isLowSurrogate u = false) (ps : List StringPart) :
    charsOfParts? (.escape u :: ps) = (charsOfParts? ps).map (Char.ofNat u :: ·) := by
  cases ps with
  | nil => simp [charsOfParts?, hhigh, hlow]
  | cons p ps =>
      cases p with
      | char c => simp [charsOfParts?, hhigh, hlow]
      | escape l => simp [charsOfParts?, hhigh, hlow]
      | damage => simp [charsOfParts?, hhigh, hlow]

theorem charsOfParts?_partOf (c : Char) (ps : List StringPart) :
    charsOfParts? (partOf c :: ps) = (charsOfParts? ps).map (c :: ·) := by
  unfold partOf
  split
  next hc =>
    have hsmall : c.toNat < 0x80 := by
      rcases hc with rfl | rfl | hc
      · decide
      · decide
      · omega
    have hhigh : isHighSurrogate c.toNat = false := by
      simp [isHighSurrogate]
      omega
    have hlow : isLowSurrogate c.toNat = false := by
      simp [isLowSurrogate]
      omega
    rw [charsOfParts?_escape hhigh hlow, Char.ofNat_toNat]
  next hc => rw [charsOfParts?]

/-- The parts of a string have the string as their text. -/
theorem textOfParts?_partsOf (s : String) : textOfParts? (partsOf s) = some s := by
  have hchars : ∀ cs : List Char, charsOfParts? (cs.map partOf) = some cs := by
    intro cs
    induction cs with
    | nil => rfl
    | cons c cs ih =>
        rw [List.map_cons, charsOfParts?_partOf, ih]
        rfl
  rw [textOfParts?, partsOf, hchars, Option.map_some, String.ofList_toList]

/-! ## Numbers -/

/-- Nothing in front goes on with a number. -/
def NumberEnds (rest : List (Option Char)) : Prop :=
  ∀ c, rest.head? = some (some c) → c.isDigit = false ∧ c ≠ '.' ∧ c ≠ 'e' ∧ c ≠ 'E'

theorem spanDigits_append {ds : List Char} (hds : ∀ d ∈ ds, d.isDigit = true)
    {rest : List (Option Char)} (hrest : ∀ c, rest.head? = some (some c) → c.isDigit = false) :
    spanDigits (ds.map some ++ rest) = (ds, rest) := by
  induction ds with
  | nil =>
      match rest, hrest with
      | [], _ => rfl
      | none :: rest, _ => rfl
      | some c :: rest, hrest => simp [spanDigits, hrest c rfl]
  | cons d ds ih =>
      obtain ⟨hfirst, hds⟩ := List.forall_mem_cons.mp hds
      rw [List.map_cons, List.cons_append, spanDigits, if_pos hfirst, ih hds]

/-- Zero is the only number whose first digit is zero. -/
theorem natDigits_zero_cons {n : Nat} {ds : List Char} (h : natDigits n = '0' :: ds) : ds = [] := by
  induction n using Nat.strongRecOn generalizing ds with
  | ind n ih =>
      unfold natDigits at h ih
      by_cases hsmall : n < 10
      · rw [Nat.toDigits_of_lt_base hsmall] at h
        exact (List.cons.inj h).2.symm
      · have hlarge : 10 ≤ n := Nat.le_of_not_lt hsmall
        rw [Nat.toDigits_of_base_le (by decide) hlarge] at h
        cases hhigh : Nat.toDigits 10 (n / 10) with
        | nil => exact absurd hhigh Nat.toDigits_ne_nil
        | cons d more =>
            rw [hhigh, List.cons_append] at h
            have hzero := (List.cons.inj h).1
            subst hzero
            rw [ih (n / 10) (by omega) hhigh] at hhigh
            have hvalue := congrArg (Nat.ofDigitChars 10 · 0) hhigh
            rw [Nat.ofDigitChars_ten_toDigits] at hvalue
            change n / 10 = 0 at hvalue
            omega

theorem readWhole?_natDigits (n : Nat) {rest : List (Option Char)}
    (hrest : ∀ c, rest.head? = some (some c) → c.isDigit = false) :
    readWhole? ((natDigits n).map some ++ rest) = some (natDigits n, rest) := by
  simp only [readWhole?, spanDigits_append (fun _ => isDigit_of_mem_natDigits) hrest]
  split
  next hnil => exact absurd hnil Nat.toDigits_ne_nil
  next d ds hdigits => cases natDigits_zero_cons hdigits
  next => rfl

/-- The digits of a number are read as a whole number without fraction and power. -/
theorem readNumber?_natDigits (negative : Bool) (n : Nat) {rest : List (Option Char)}
    (hrest : NumberEnds rest) :
    readNumber? negative ((natDigits n).map some ++ rest) =
      some (numberOf negative (natDigits n) [] none, rest) := by
  have hwhole := readWhole?_natDigits n fun c hc => (hrest c hc).1
  have hplaces : readPlaces? rest = some ([], rest) := by
    unfold readPlaces?
    split
    next cs => exact absurd rfl (hrest '.' rfl).2.1
    next => rfl
  simp only [readNumber?, hwhole, hplaces, Option.bind_eq_bind, Option.bind_some]
  split
  next c more =>
    obtain ⟨-, -, he, hE⟩ := hrest c rfl
    rw [if_neg (not_or.mpr ⟨he, hE⟩)]
  next => rfl

theorem numberOf_natDigits {n : Nat} (h : fitsUnsigned 64 n = true) :
    numberOf false (natDigits n) [] none = .integer n := by
  simp [numberOf, natDigits, Nat.ofDigitChars_ten_toDigits, h]

theorem numberOf_natDigits_neg {n : Nat} (hpos : 0 < n) (h : fitsSigned 64 (-n) = true) :
    numberOf true (natDigits n) [] none = .integer (-n) := by
  simp [numberOf, natDigits, Nat.ofDigitChars_ten_toDigits, h, hpos]

end RecordQuery.Json
