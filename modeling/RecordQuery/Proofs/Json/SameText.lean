import RecordQuery.Proofs.Json.RoundTrip
import RecordQuery.Proofs.Number.Text
import RecordQuery.Proofs.Text.Hex

/-!
# Values of one text

Different values may have one text: a double without a finite value is written as `null`.  But a
text shows where each part of the value ends.  So two objects of one text have members of the same
names, and the values under each name have one text again (`object_chars_eq_iff`), and two arrays of
one text have items of one text (`array_chars_eq_iff`).

A scanner that counts open brackets and knows when it is inside a string passes over a value without
reading it (`skip_chars`).  Of one text in front of two rests it leaves one rest, so the value
before it is one text, too (`chars_append_inj`).
-/

namespace RecordQuery.Json

open Text

/-! ## Passing over a value -/

/-- Where a scanner stands: outside strings, inside of one, or behind a backslash in one. -/
inductive Place where
  | outside | quoted | escaped

/-- Characters that may end a value or begin a string or a bracket. -/
def markers : List Char := ['"', '[', ']', '\x7b', '\x7d', ',', ':']

/-- What is left of a text behind the value at its start, `depth` brackets being open. -/
def skip : (depth : Nat) → Place → List Char → List Char
  | _, _, [] => []
  | depth, .escaped, _ :: cs => skip depth .quoted cs
  | depth, .quoted, c :: cs =>
    skip depth (if c = '\\' then .escaped else if c = '"' then .outside else .quoted) cs
  | depth, .outside, c :: cs =>
    if c = '"' then skip depth .quoted cs
    else if c = '[' ∨ c = '\x7b' then skip (depth + 1) .outside cs
    else if c ∈ markers ∧ depth = 0 then c :: cs
    else if c = ']' ∨ c = '\x7d' then skip (depth - 1) .outside cs
    else skip depth .outside cs

/-- A text begins with nothing that could belong to a value before it. -/
def Ends (rest : List Char) : Prop := skip 0 .outside rest = rest

variable (depth : Nat)

theorem skip_plain {cs : List Char} (h : ∀ c ∈ cs, c ∉ markers) (rest : List Char) :
    skip depth .outside (cs ++ rest) = skip depth .outside rest := by
  induction cs with
  | nil => rfl
  | cons c cs ih =>
      obtain ⟨hfirst, hrest⟩ := List.forall_mem_cons.mp h
      have hplain := hfirst
      simp only [markers, List.mem_cons, not_or] at hplain
      obtain ⟨hquote, hopen, hclose, hopen', hclose', -⟩ := hplain
      rw [List.cons_append, skip, if_neg hquote, if_neg (not_or.mpr ⟨hopen, hopen'⟩),
        if_neg (fun h => hfirst h.1), if_neg (not_or.mpr ⟨hclose, hclose'⟩), ih hrest]

/-- Inside a string nothing but the quote and the backslash counts. -/
theorem skip_quoted {cs : List Char} (h : ∀ c ∈ cs, c ≠ '"' ∧ c ≠ '\\') (rest : List Char) :
    skip depth .quoted (cs ++ rest) = skip depth .quoted rest := by
  induction cs with
  | nil => rfl
  | cons c cs ih =>
      obtain ⟨⟨hquote, hslash⟩, hrest⟩ := List.forall_mem_cons.mp h
      rw [List.cons_append, skip, if_neg hslash, if_neg hquote, ih hrest]

theorem hexDigits_unquoted (width n : Nat) : ∀ c ∈ hexDigits width n, c ≠ '"' ∧ c ≠ '\\' := by
  have hnone : '"' ∉ hexAlphabet ∧ '\\' ∉ hexAlphabet := by decide
  intro c hc
  have halphabet := mem_hexDigits hc
  exact ⟨fun heq => hnone.1 (heq ▸ halphabet), fun heq => hnone.2 (heq ▸ halphabet)⟩

theorem skip_quote (rest : List Char) :
    skip depth .outside ('"' :: rest) = skip depth .quoted rest := rfl

theorem skip_backslash (c : Char) (rest : List Char) :
    skip depth .quoted ('\\' :: c :: rest) = skip depth .quoted rest := rfl

theorem skip_escapeChar (c : Char) (rest : List Char) :
    skip depth .quoted (escapeChar c ++ rest) = skip depth .quoted rest := by
  unfold escapeChar
  -- the seven characters with an escape of their own
  iterate 7
    split
    next hc => exact skip_backslash depth _ rest
  split
  next hcontrol =>
    rw [List.cons_append, List.cons_append, skip_backslash]
    exact skip_quoted depth (hexDigits_unquoted 4 _) rest
  next hquote hslash _ _ _ _ _ hcontrol =>
    exact skip_quoted depth (List.forall_mem_singleton.mpr ⟨hquote, hslash⟩) rest

theorem skip_escaped (cs rest : List Char) :
    skip depth .quoted (cs.flatMap escapeChar ++ '"' :: rest) = skip depth .outside rest := by
  induction cs with
  | nil => rfl
  | cons c cs ih => rw [List.flatMap_cons, List.append_assoc, skip_escapeChar, ih]

theorem skip_stringChars (s : String) (rest : List Char) :
    skip depth .outside (stringChars s ++ rest) = skip depth .outside rest := by
  rw [stringChars, List.cons_append, List.append_assoc, skip_quote]
  exact skip_escaped depth s.toList rest

theorem skip_respelledName (rest : List Char) :
    skip depth .outside (respelledName ++ rest) = skip depth .outside rest := by
  have htext : respelledName = '"' :: '\\' :: 'u' :: (hexDigits 4 '$'.toNat ++
      ((numberName.toList.drop 1).flatMap escapeChar ++ ['"'])) := rfl
  rw [htext, List.cons_append, List.cons_append, List.cons_append, List.append_assoc,
    List.append_assoc, skip_quote, skip_backslash, skip_quoted depth (hexDigits_unquoted 4 _)]
  exact skip_escaped depth _ rest

/-! ## Every value -/

theorem digit_not_mem_markers {c : Char} (hc : c.isDigit = true) : c ∉ markers := by
  intro hmarker
  have hnone : ∀ d ∈ markers, d.isDigit = false := by simp [markers]
  rw [hnone c hmarker] at hc
  cases hc

theorem natDigits_plain (n : Nat) : ∀ c ∈ natDigits n, c ∉ markers :=
  fun _ hc => digit_not_mem_markers (isDigit_of_mem_natDigits hc)

theorem intDigits_plain (n : Int) : ∀ c ∈ intDigits n, c ∉ markers := by
  unfold intDigits
  split
  · exact List.forall_mem_cons.mpr ⟨by simp [markers], natDigits_plain _⟩
  · exact natDigits_plain _

theorem positional_plain {ds : List Char} (h : ∀ c ∈ ds, c ∉ markers) (scale : Int) :
    ∀ c ∈ Decimal.positional ds scale, c ∉ markers := by
  intro c hc
  rcases Decimal.mem_positional hc with hdigit | rfl | rfl
  · exact h c hdigit
  · simp [markers]
  · simp [markers]

theorem double_plain (d : Double) : ∀ c ∈ (Json.double d).chars, c ∉ markers := by
  rw [chars]
  split
  next hfinite =>
    rw [Double.text]
    split
    · simp [markers]
    · rw [String.toList_ofList]
      have hsize : ∀ c ∈ (if !d.isFinite then ['i', 'n', 'f'] else if d.significand = 0 then ['0']
          else Decimal.positional (natDigits d.shortest.digits) (-d.shortest.exponent)),
          c ∉ markers := by
        split
        · simp [markers]
        · split
          · simp [markers]
          · exact positional_plain (natDigits_plain _) _
      split
      · exact List.forall_mem_cons.mpr ⟨by simp [markers], hsize⟩
      · exact hsize
  next => simp [markers]

theorem skip_open (rest : List Char) :
    skip depth .outside ('\x7b' :: rest) = skip (depth + 1) .outside rest := rfl

/-- A colon inside of a bracket ends nothing. -/
theorem skip_colon (rest : List Char) :
    skip (depth + 1) .outside (':' :: rest) = skip (depth + 1) .outside rest := rfl

theorem skip_close (rest : List Char) :
    skip (depth + 1) .outside ('\x7d' :: rest) = skip depth .outside rest := rfl

mutual

/-- The scanner passes over every value. -/
theorem skip_chars : ∀ (j : Json) (depth : Nat) (rest : List Char),
    skip depth .outside (j.chars ++ rest) = skip depth .outside rest
  | .null, depth, rest => skip_plain depth (by simp [chars, markers]) rest
  | .bool true, depth, rest => skip_plain depth (by simp [chars, markers]) rest
  | .bool false, depth, rest => skip_plain depth (by simp [chars, markers]) rest
  | .integer n, depth, rest => skip_plain depth (intDigits_plain n) rest
  | .double d, depth, rest => skip_plain depth (double_plain d) rest
  | .string s, depth, rest => skip_stringChars depth s rest
  | .array [], depth, rest => rfl
  | .array (j :: js), depth, rest => by
      rw [chars, List.cons_append, List.append_assoc]
      exact (skip_chars j (depth + 1) _).trans (skip_itemChars js depth rest)
  | .object [], depth, rest => rfl
  | .object ((n, j) :: ms), depth, rest => by
      rw [chars, List.cons_append, List.append_assoc, List.cons_append, List.append_assoc]
      refine (skip_stringChars (depth + 1) n _).trans ?_
      exact (skip_chars j (depth + 1) _).trans (skip_memberChars ms depth rest)
  | .respelled j, depth, rest => by
      rw [chars, List.cons_append, List.append_assoc, List.cons_append, List.append_assoc,
        skip_open, skip_respelledName, skip_colon, skip_chars j]
      exact skip_close depth rest
  | .unreadable, depth, rest => skip_plain depth (by simp [chars, markers]) rest

theorem skip_itemChars : ∀ (js : List Json) (depth : Nat) (rest : List Char),
    skip (depth + 1) .outside (itemChars js ++ rest) = skip depth .outside rest
  | [], depth, rest => rfl
  | j :: js, depth, rest => by
      rw [itemChars, List.cons_append, List.append_assoc]
      exact (skip_chars j (depth + 1) _).trans (skip_itemChars js depth rest)

theorem skip_memberChars : ∀ (ms : List (String × Json)) (depth : Nat) (rest : List Char),
    skip (depth + 1) .outside (memberChars ms ++ rest) = skip depth .outside rest
  | [], depth, rest => rfl
  | (n, j) :: ms, depth, rest => by
      rw [memberChars, List.cons_append, List.append_assoc, List.cons_append, List.append_assoc]
      refine (skip_stringChars (depth + 1) n _).trans ?_
      exact (skip_chars j (depth + 1) _).trans (skip_memberChars ms depth rest)

end

/-! ## Equal texts -/

/-- **A text shows where its first value ends.** -/
theorem chars_append_inj {j k : Json} {rest rest' : List Char} (hrest : Ends rest)
    (hrest' : Ends rest') (h : j.chars ++ rest = k.chars ++ rest') :
    j.chars = k.chars ∧ rest = rest' := by
  have hleft : rest = rest' := by
    calc rest = skip 0 .outside (j.chars ++ rest) := by rw [skip_chars, hrest]
      _ = skip 0 .outside (k.chars ++ rest') := by rw [h]
      _ = rest' := by rw [skip_chars, hrest']
  subst hleft
  exact ⟨List.append_cancel_right h, rfl⟩

theorem ends_memberChars (ms : List (String × Json)) : Ends (memberChars ms) := by
  cases ms <;> rfl

theorem ends_colon (rest : List Char) : Ends (':' :: rest) := rfl

theorem stringChars_inj {s t : String} (h : stringChars s = stringChars t) : s = t := by
  have htext : (Json.string s).text = (Json.string t).text := congrArg String.ofList h
  have hs : ofText? (Json.string s).text = some (.string s) := ofText?_text (j := .string s) trivial
  have ht : ofText? (Json.string t).text = some (.string t) := ofText?_text (j := .string t) trivial
  rw [htext, ht] at hs
  exact (Json.string.inj (Option.some.inj hs)).symm

/-- The members of an object with the texts of their values. -/
def memberTexts (ms : List (String × Json)) : List (String × List Char) :=
  ms.map fun m => (m.1, m.2.chars)

theorem member_chars_inj {n n' : String} {j j' : Json} {ms ms' : List (String × Json)}
    (h : stringChars n ++ ':' :: (j.chars ++ memberChars ms) =
      stringChars n' ++ ':' :: (j'.chars ++ memberChars ms')) :
    n = n' ∧ j.chars = j'.chars ∧ memberChars ms = memberChars ms' := by
  obtain ⟨hname, hrest⟩ := chars_append_inj (j := .string n) (k := .string n')
    (ends_colon _) (ends_colon _) h
  obtain ⟨hvalue, hmembers⟩ :=
    chars_append_inj (ends_memberChars ms) (ends_memberChars ms') (List.cons.inj hrest).2
  exact ⟨stringChars_inj hname, hvalue, hmembers⟩

theorem memberChars_eq_iff {ms ms' : List (String × Json)} :
    memberChars ms = memberChars ms' ↔ memberTexts ms = memberTexts ms' := by
  induction ms generalizing ms' with
  | nil =>
      cases ms' with
      | nil => simp
      | cons m' ms' => simp [memberChars, memberTexts]
  | cons m ms ih =>
      cases ms' with
      | nil => simp [memberChars, memberTexts]
      | cons m' ms' =>
          simp only [memberTexts, List.map_cons, List.cons.injEq, Prod.mk.injEq] at ih ⊢
          rw [← ih, memberChars, memberChars]
          constructor
          · intro h
            obtain ⟨hname, hvalue, hmembers⟩ := member_chars_inj (List.cons.inj h).2
            exact ⟨⟨hname, hvalue⟩, hmembers⟩
          · rintro ⟨⟨hname, hvalue⟩, hmembers⟩
            rw [hname, hvalue, hmembers]

/-- **Objects of one text** have members of the same names whose values have one text. -/
theorem object_chars_eq_iff {ms ms' : List (String × Json)} :
    (Json.object ms).chars = (Json.object ms').chars ↔ memberTexts ms = memberTexts ms' := by
  cases ms with
  | nil =>
      cases ms' with
      | nil => simp
      | cons m' ms' => simp [chars, memberTexts, stringChars]
  | cons m ms =>
      cases ms' with
      | nil => simp [chars, memberTexts, stringChars]
      | cons m' ms' =>
          rw [← memberChars_eq_iff, memberChars, memberChars, chars, chars]
          simp only [List.cons.injEq, true_and]

/-! ## Arrays -/

theorem positional_ne_nil {ds : List Char} (h : ds ≠ []) (scale : Int) :
    Decimal.positional ds scale ≠ [] := by
  unfold Decimal.positional
  split
  · exact List.append_ne_nil_of_left_ne_nil h _
  · dsimp only
    split
    · exact List.append_ne_nil_of_right_ne_nil _ (List.cons_ne_nil _ _)
    · exact List.cons_ne_nil _ _

theorem double_ne_nil (d : Double) : (Json.double d).chars ≠ [] := by
  rw [chars]
  split
  next hfinite =>
    rw [Double.text]
    split
    · decide
    · rw [String.toList_ofList, hfinite]
      split
      · exact List.cons_ne_nil _ _
      · simp only [Bool.not_true, Bool.false_eq_true, if_false]
        split
        · exact List.cons_ne_nil _ _
        · exact positional_ne_nil (natDigits_ne_nil _) _
  next => decide

theorem chars_ne_nil : ∀ j : Json, j.chars ≠ []
  | .null | .bool true | .bool false | .unreadable => by decide
  | .integer n => by
      rw [chars, intDigits]
      split
      · exact List.cons_ne_nil _ _
      · exact natDigits_ne_nil _
  | .double d => double_ne_nil d
  | .string _ | .array [] | .array (_ :: _) | .object [] | .object (_ :: _) | .respelled _ => by
      simp [chars, stringChars]

theorem ends_itemChars (js : List Json) : Ends (itemChars js) := by
  cases js <;> rfl

theorem itemChars_ne_nil (js : List Json) : itemChars js ≠ [] := by
  cases js <;> simp [itemChars]

theorem itemChars_eq_iff {js ks : List Json} :
    itemChars js = itemChars ks ↔ js.map chars = ks.map chars := by
  induction js generalizing ks with
  | nil => cases ks <;> simp [itemChars]
  | cons j js ih =>
      cases ks with
      | nil => simp [itemChars]
      | cons k ks =>
          rw [List.map_cons, List.map_cons, List.cons.injEq, ← ih, itemChars, itemChars,
            List.cons.injEq, and_iff_right rfl]
          constructor
          · exact chars_append_inj (ends_itemChars js) (ends_itemChars ks)
          · rintro ⟨hfirst, hrest⟩
            rw [hfirst, hrest]

/-- A value and further items are more than the end of an array. -/
theorem chars_append_ne_close (j : Json) (js : List Json) : j.chars ++ itemChars js ≠ [']'] := by
  intro h
  have hlength := congrArg List.length h
  rw [List.length_append, List.length_singleton] at hlength
  have hfirst := List.length_pos_of_ne_nil (chars_ne_nil j)
  have hrest := List.length_pos_of_ne_nil (itemChars_ne_nil js)
  omega

/-- **Arrays of one text** have items of one text, one by one. -/
theorem array_chars_eq_iff {js ks : List Json} :
    (Json.array js).chars = (Json.array ks).chars ↔ js.map chars = ks.map chars := by
  cases js with
  | nil =>
      cases ks with
      | nil => simp
      | cons k ks => simpa [chars] using (chars_append_ne_close k ks).symm
  | cons j js =>
      cases ks with
      | nil => simpa [chars] using chars_append_ne_close j js
      | cons k ks =>
          rw [← itemChars_eq_iff, itemChars, itemChars, chars, chars]
          simp only [List.cons.injEq, true_and]

/-! ## Texts -/

theorem text_eq_iff {j k : Json} : j.text = k.text ↔ j.chars = k.chars := by
  rw [text, text, String.ofList_inj]

end RecordQuery.Json
