import RecordQuery.Proofs.Json.Tokens

/-!
# JSON values are read back

The text of a value is read as the value (`ofBytes?_text`), provided that the value has a text of
its own (`Readable`): an unreadable one has not, a double is written in decimal digits, and an
integer must be one that 64 bits hold.

The reader is followed through the text, which is written by the same recursion.  Its bound on the
number of steps is met because every two steps consume a character (`ReadsBack`).
-/

namespace RecordQuery.Json

open Text

/-! ## Readable values -/

mutual

/-- The value is read back from its text. -/
def Readable : Json → Prop
  | .null => True
  | .bool _ => True
  | .integer n => if n < 0 then fitsSigned 64 n = true else fitsUnsigned 64 n = true
  | .double _ => False
  | .string _ => True
  | .array js => AllReadable js
  | .object ms => MembersReadable ms
  | .respelled j => Readable j
  | .unreadable => False

def AllReadable : List Json → Prop
  | [] => True
  | j :: js => Readable j ∧ AllReadable js

def MembersReadable : List (String × Json) → Prop
  | [] => True
  | (_, j) :: ms => Readable j ∧ MembersReadable ms

end

/-! ## First characters -/

/-- A value begins with a character that is no blank and ends no array. -/
def StartsValue (c : Char) : Prop := isSpace c = false ∧ c ≠ ']'

instance (c : Char) : Decidable (StartsValue c) := inferInstanceAs (Decidable (_ ∧ _))

theorem exists_startsValue_natDigits (n : Nat) :
    ∃ d ds, natDigits n = d :: ds ∧ d.isDigit = true := by
  cases hdigits : natDigits n with
  | nil => exact absurd hdigits Nat.toDigits_ne_nil
  | cons d ds =>
      have hmem : d ∈ natDigits n := by
        rw [hdigits]
        exact .head _
      exact ⟨d, ds, rfl, isDigit_of_mem_natDigits hmem⟩

theorem startsValue_of_isDigit {c : Char} (h : c.isDigit = true) : StartsValue c := by
  have hne : ∀ d ∈ [' ', '\t', '\n', '\r', ']'], c ≠ d := forall_ne_of_isDigit h (by decide)
  simp only [List.forall_mem_cons] at hne
  obtain ⟨hspace, htab, hline, hreturn, hend, -⟩ := hne
  exact ⟨by simp [isSpace, hspace, htab, hline, hreturn], hend⟩

theorem exists_startsValue {j : Json} (h : j.Readable) :
    ∃ c cs, j.chars = c :: cs ∧ StartsValue c := by
  cases j with
  | null => exact ⟨_, _, rfl, by decide⟩
  | bool b =>
      cases b with
      | false => exact ⟨_, _, rfl, by decide⟩
      | true => exact ⟨_, _, rfl, by decide⟩
  | integer n =>
      rw [chars, intDigits]
      split
      · exact ⟨_, _, rfl, by decide⟩
      · obtain ⟨d, ds, hdigits, hd⟩ := exists_startsValue_natDigits n.natAbs
        exact ⟨d, ds, hdigits, startsValue_of_isDigit hd⟩
  | double d => exact h.elim
  | string s => exact ⟨_, _, rfl, by decide⟩
  | array js =>
      cases js with
      | nil => exact ⟨_, _, rfl, by decide⟩
      | cons j js => exact ⟨_, _, rfl, by decide⟩
  | object ms =>
      cases ms with
      | nil => exact ⟨_, _, rfl, by decide⟩
      | cons m ms => exact ⟨_, _, rfl, by decide⟩
  | respelled j => exact ⟨_, _, rfl, by decide⟩
  | unreadable => exact h.elim

theorem skipSpace_cons {c : Char} (h : isSpace c = false) (rest : List (Option Char)) :
    skipSpace (some c :: rest) = some c :: rest := by
  simp [skipSpace, h]

theorem numberEnds_cons {c : Char} (h : c.isDigit = false ∧ c ≠ '.' ∧ c ≠ 'e' ∧ c ≠ 'E')
    (rest : List (Option Char)) : NumberEnds (some c :: rest) := by
  intro d hd
  cases hd
  exact h

/-! ## Steps of the reader -/

section Steps

variable {steps : Nat} {rest rest' cs : List (Option Char)} {j : Json} {n : List StringPart}

theorem readValue?_digit {c : Char} (hc : c.isDigit = true) :
    readValue? (steps + 1) (some c :: rest) = readNumber? false (some c :: rest) := by
  have hne : ∀ d ∈ ['"', '[', '\x7b', 'n', 't', 'f', '-'], c ≠ d :=
    forall_ne_of_isDigit hc (by decide)
  simp only [List.forall_mem_cons] at hne
  obtain ⟨hquote, harray, hobject, hn, ht, hf, hminus, -⟩ := hne
  rw [readValue?, skipSpace_cons (startsValue_of_isDigit hc).1]
  simp only [hquote, harray, hobject, hn, ht, hf, hminus, if_false]

theorem readValue?_string :
    readValue? (steps + 1) (some '"' :: rest) =
      (stringParts rest).map fun p => (stringOf p.1, p.2) := rfl

theorem readValue?_array {c : Char} (hc : StartsValue c) :
    readValue? (steps + 1) (some '[' :: some c :: rest) =
      (readItems? steps (some c :: rest)).map fun p => (.array p.1, p.2) := by
  rw [readValue?, skipSpace_cons (show isSpace '[' = false by decide)]
  simp only [Char.reduceEq, if_true, if_false, skipSpace_cons hc.1]
  split
  next rest' heq =>
    cases heq
    exact absurd rfl hc.2
  next => rfl

theorem readValue?_object :
    readValue? (steps + 1) (some '\x7b' :: some '"' :: rest) =
      (readMembers? steps (some '"' :: rest)).map fun p => (objectOf p.1, p.2) := rfl

theorem readItems?_end (h : readValue? steps cs = some (j, some ']' :: rest)) :
    readItems? (steps + 1) cs = some ([j], rest) := by
  rw [readItems?, h]
  rfl

theorem readItems?_more (h : readValue? steps cs = some (j, some ',' :: rest)) :
    readItems? (steps + 1) cs = (readItems? steps rest).map fun p => (j :: p.1, p.2) := by
  rw [readItems?, h]
  rfl

theorem readMembers?_end (hname : stringParts cs = some (n, some ':' :: rest))
    (hvalue : readValue? steps rest = some (j, some '\x7d' :: rest')) :
    readMembers? (steps + 1) (some '"' :: cs) = some ([(n, j)], rest') := by
  rw [readMembers?]
  simp only [skipSpace_cons (show isSpace '"' = false by decide), hname]
  show (readValue? steps rest).bind _ = _
  rw [hvalue]
  rfl

theorem readMembers?_more (hname : stringParts cs = some (n, some ':' :: rest))
    (hvalue : readValue? steps rest = some (j, some ',' :: rest')) :
    readMembers? (steps + 1) (some '"' :: cs) =
      (readMembers? steps rest').map fun p => ((n, j) :: p.1, p.2) := by
  rw [readMembers?]
  simp only [skipSpace_cons (show isSpace '"' = false by decide), hname]
  show (readValue? steps rest).bind _ = _
  rw [hvalue]
  rfl

end Steps

/-! ## Objects of their members -/

/-- The members of an object as they are read. -/
def asRead (ms : List (String × Json)) : List (List StringPart × Json) :=
  ms.map fun m => (partsOf m.1, m.2)

theorem named?_asRead (ms : List (String × Json)) : named? (asRead ms) = some ms := by
  rw [named?, asRead, List.mapM_map]
  induction ms with
  | nil => rfl
  | cons m ms ih =>
      rw [List.mapM_cons, ih]
      simp [textOfParts?_partsOf]

/-- A name that is written letter by letter is no respelled mark. -/
theorem isRespelled_partsOf (n : String) : isRespelled (partsOf n) = false := by
  rw [isRespelled, textOfParts?_partsOf]
  by_cases hmark : n = numberName
  · subst hmark
    rfl
  · simp [hmark]

theorem objectOf_asRead (ms : List (String × Json)) : objectOf (asRead ms) = .object ms := by
  have hnamed := named?_asRead ms
  unfold objectOf
  split
  next name j heq =>
    rw [heq] at hnamed
    match ms, heq with
    | [(n, j)], heq =>
        cases heq
        rw [isRespelled_partsOf, hnamed]
        rfl
  next => rw [hnamed]; rfl

/-- The parts of the respelled mark. -/
def respelledParts : List StringPart :=
  .escape '$'.toNat :: partsOf (String.ofList (numberName.toList.drop 1))

theorem stringParts_respelledName (rest : List (Option Char)) :
    stringParts ((respelledName.drop 1).map some ++ rest) = some (respelledParts, rest) := by
  have htext : respelledName.drop 1 = '\\' :: 'u' :: (hexDigits 4 '$'.toNat ++
      ((numberName.toList.drop 1).flatMap escapeChar ++ ['"'])) := rfl
  have hunit : hexNumber? (hexDigits 4 '$'.toNat) = some '$'.toNat :=
    hexNumber?_hexDigits (by decide)
  rw [htext]
  simp only [List.map_cons, List.map_append, List.map_nil, List.cons_append, List.append_assoc,
    List.nil_append]
  rw [stringParts_four (length_hexDigits 4 _) hunit, stringParts_flatMap]
  simp [respelledParts, partsOf]

theorem objectOf_respelled (j : Json) : objectOf [(respelledParts, j)] = .respelled j := by
  have hmark : isRespelled respelledParts = true := rfl
  simp only [objectOf, hmark, if_true]

/-! ## Values inside a text -/

/-- The value is read from its text, whatever stands behind it that does not go on with a number. -/
def ReadsBack (j : Json) : Prop :=
  ∀ (steps : Nat) (rest : List (Option Char)), 2 * j.chars.length ≤ steps → NumberEnds rest →
    readValue? steps (j.chars.map some ++ rest) = some (j, rest)

theorem readItems?_chars {j : Json} {js : List Json} (hj : j.ReadsBack)
    (hjs : ∀ k ∈ js, k.ReadsBack) (steps : Nat) (rest : List (Option Char))
    (hsteps : 2 * (j.chars ++ itemChars js).length ≤ steps) :
    readItems? steps ((j.chars ++ itemChars js).map some ++ rest) = some (j :: js, rest) := by
  induction js generalizing j steps with
  | nil =>
      simp only [itemChars, List.length_append, List.length_cons, List.length_nil] at hsteps
      obtain ⟨steps, rfl⟩ : ∃ k, steps = k + 1 := ⟨steps - 1, by omega⟩
      rw [List.map_append, List.append_assoc]
      exact readItems?_end (hj _ _ (by omega) (numberEnds_cons (by decide) rest))
  | cons k js ih =>
      obtain ⟨hk, hjs⟩ := List.forall_mem_cons.mp hjs
      simp only [itemChars, List.length_append, List.length_cons] at hsteps
      obtain ⟨steps, rfl⟩ : ∃ k, steps = k + 1 := ⟨steps - 1, by omega⟩
      have hrest := ih hk hjs steps (by simp only [List.length_append]; omega)
      rw [List.map_append, List.append_assoc]
      refine (readItems?_more (hj _ _ (by omega) (numberEnds_cons (by decide) _))).trans ?_
      exact congrArg (Option.map _) hrest

theorem readMembers?_chars {n : String} {j : Json} {ms : List (String × Json)} (hj : j.ReadsBack)
    (hms : ∀ m ∈ ms, m.2.ReadsBack) (steps : Nat) (rest : List (Option Char))
    (hsteps : 2 * (stringChars n ++ ':' :: (j.chars ++ memberChars ms)).length ≤ steps) :
    readMembers? steps ((stringChars n ++ ':' :: (j.chars ++ memberChars ms)).map some ++ rest) =
      some (asRead ((n, j) :: ms), rest) := by
  induction ms generalizing n j steps with
  | nil =>
      simp only [memberChars, List.length_append, List.length_cons, List.length_nil] at hsteps
      obtain ⟨steps, rfl⟩ : ∃ k, steps = k + 1 := ⟨steps - 1, by omega⟩
      rw [List.map_append, List.append_assoc, map_some_stringChars, List.map_cons,
        List.map_append, List.cons_append, List.append_assoc]
      exact readMembers?_end (stringParts_flatMap _ _)
        (hj _ _ (by omega) (numberEnds_cons (by decide) rest))
  | cons m ms ih =>
      obtain ⟨hm, hms⟩ := List.forall_mem_cons.mp hms
      simp only [memberChars, List.length_append, List.length_cons] at hsteps
      obtain ⟨steps, rfl⟩ : ∃ k, steps = k + 1 := ⟨steps - 1, by omega⟩
      have hrest := ih (n := m.1) hm hms steps
        (by simp only [List.length_append, List.length_cons]; omega)
      rw [List.map_append, List.append_assoc, map_some_stringChars, List.map_cons,
        List.map_append, List.cons_append, List.append_assoc]
      refine (readMembers?_more (stringParts_flatMap _ _)
        (hj _ _ (by omega) (numberEnds_cons (by decide) _))).trans ?_
      exact congrArg (Option.map _) hrest

/-! ## Every readable value -/

theorem exists_eq_succ_of_readable {j : Json} (h : j.Readable) {steps : Nat}
    (hsteps : 2 * j.chars.length ≤ steps) : ∃ k, steps = k + 1 := by
  obtain ⟨c, cs, hchars, -⟩ := exists_startsValue h
  rw [hchars, List.length_cons] at hsteps
  exact ⟨steps - 1, by omega⟩

theorem readsBack_null : Json.null.ReadsBack := by
  intro steps rest hsteps _
  obtain ⟨steps, rfl⟩ := exists_eq_succ_of_readable (j := .null) trivial hsteps
  rfl

theorem readsBack_bool (b : Bool) : (Json.bool b).ReadsBack := by
  intro steps rest hsteps _
  obtain ⟨steps, rfl⟩ := exists_eq_succ_of_readable (j := .bool b) trivial hsteps
  cases b with
  | false => rfl
  | true => rfl

theorem readsBack_integer {n : Int} (h : (Json.integer n).Readable) :
    (Json.integer n).ReadsBack := by
  intro steps rest hsteps hrest
  obtain ⟨steps, rfl⟩ := exists_eq_succ_of_readable h hsteps
  rw [Readable] at h
  rw [chars, intDigits]
  split at h
  next hneg =>
    have hvalue : (-(n.natAbs : Int)) = n := by omega
    rw [if_pos hneg]
    refine (readNumber?_natDigits true n.natAbs hrest).trans ?_
    rw [numberOf_natDigits_neg (by omega) (by rwa [hvalue]), hvalue]
  next hpos =>
    have hvalue : (n.natAbs : Int) = n := by omega
    have hread := readNumber?_natDigits false n.natAbs hrest
    obtain ⟨d, ds, hdigits, hd⟩ := exists_startsValue_natDigits n.natAbs
    rw [numberOf_natDigits (by rwa [hvalue]), hvalue] at hread
    rw [if_neg hpos]
    rw [hdigits] at hread ⊢
    exact (readValue?_digit hd).trans hread

theorem readsBack_string (s : String) : (Json.string s).ReadsBack := by
  intro steps rest hsteps _
  obtain ⟨steps, rfl⟩ := exists_eq_succ_of_readable (j := .string s) trivial hsteps
  have htext := textOfParts?_partsOf s
  rw [partsOf] at htext
  rw [chars, map_some_stringChars, readValue?_string, stringParts_flatMap, Option.map_some,
    stringOf, htext]
  rfl

theorem readsBack_array {js : List Json} (hreadable : (Json.array js).Readable)
    (h : ∀ j ∈ js, j.ReadsBack) : (Json.array js).ReadsBack := by
  intro steps rest hsteps _
  cases js with
  | nil =>
      obtain ⟨steps, rfl⟩ := exists_eq_succ_of_readable hreadable hsteps
      rfl
  | cons j js =>
      obtain ⟨hj, hjs⟩ := List.forall_mem_cons.mp h
      rw [chars, List.length_cons] at hsteps
      obtain ⟨steps, rfl⟩ : ∃ k, steps = k + 1 := ⟨steps - 1, by omega⟩
      have hitems := readItems?_chars hj hjs steps rest (by omega)
      rw [Readable, AllReadable] at hreadable
      obtain ⟨c, cs, hchars, hc⟩ := exists_startsValue hreadable.1
      rw [hchars] at hitems
      rw [chars, hchars]
      refine (readValue?_array hc).trans ?_
      exact congrArg (Option.map _) hitems

theorem readsBack_object {ms : List (String × Json)} (h : ∀ m ∈ ms, m.2.ReadsBack) :
    (Json.object ms).ReadsBack := by
  intro steps rest hsteps _
  cases ms with
  | nil =>
      obtain ⟨steps, rfl⟩ := exists_eq_succ_of_readable (j := .object []) trivial hsteps
      rfl
  | cons m ms =>
      obtain ⟨hm, hms⟩ := List.forall_mem_cons.mp h
      rw [chars, List.length_cons] at hsteps
      obtain ⟨steps, rfl⟩ : ∃ k, steps = k + 1 := ⟨steps - 1, by omega⟩
      have hmembers := readMembers?_chars (n := m.1) hm hms steps rest (by omega)
      rw [chars]
      refine readValue?_object.trans ?_
      refine (congrArg (Option.map _) hmembers).trans ?_
      rw [Option.map_some, objectOf_asRead]

theorem readsBack_respelled {j : Json} (h : j.ReadsBack) : (Json.respelled j).ReadsBack := by
  intro steps rest hsteps _
  have htext : (Json.respelled j).chars.map some ++ rest =
      some '\x7b' :: some '"' :: ((respelledName.drop 1).map some ++
        some ':' :: (j.chars.map some ++ some '\x7d' :: rest)) := by
    have hname : respelledName = '"' :: respelledName.drop 1 := rfl
    rw [chars, hname]
    simp
  simp only [chars, List.length_cons, List.length_append, List.length_nil] at hsteps
  obtain ⟨steps, rfl⟩ : ∃ k, steps = k + 2 := ⟨steps - 2, by omega⟩
  have hvalue := h steps (some '\x7d' :: rest) (by omega) (numberEnds_cons (by decide) rest)
  have hmembers := readMembers?_end
    (stringParts_respelledName (some ':' :: (j.chars.map some ++ some '\x7d' :: rest))) hvalue
  rw [htext]
  refine readValue?_object.trans ?_
  refine (congrArg (Option.map _) hmembers).trans ?_
  rw [Option.map_some, objectOf_respelled]

mutual

theorem readsBack_of_readable : ∀ {j : Json}, j.Readable → j.ReadsBack
  | .null, _ => readsBack_null
  | .bool b, _ => readsBack_bool b
  | .integer _, h => readsBack_integer h
  | .string s, _ => readsBack_string s
  | .array _, h => readsBack_array h (readsBack_of_allReadable h)
  | .object _, h => readsBack_object (readsBack_of_membersReadable h)
  | .respelled _, h => readsBack_respelled (readsBack_of_readable h)

theorem readsBack_of_allReadable : ∀ {js : List Json}, AllReadable js → ∀ j ∈ js, j.ReadsBack
  | [], _ => fun _ h => nomatch h
  | _ :: _, h =>
      List.forall_mem_cons.mpr ⟨readsBack_of_readable h.1, readsBack_of_allReadable h.2⟩

theorem readsBack_of_membersReadable :
    ∀ {ms : List (String × Json)}, MembersReadable ms → ∀ m ∈ ms, m.2.ReadsBack
  | [], _ => fun _ h => nomatch h
  | (_, _) :: _, h =>
      List.forall_mem_cons.mpr ⟨readsBack_of_readable h.1, readsBack_of_membersReadable h.2⟩

end

/-! ## Whole texts -/

theorem ofChars?_chars {j : Json} (h : j.Readable) : ofChars? (j.chars.map some) = some j := by
  have hread := readsBack_of_readable h (2 * (j.chars.map some).length + 1) []
    (by rw [List.length_map]; exact Nat.le_succ _) (fun c hc => nomatch hc)
  rw [List.append_nil] at hread
  rw [ofChars?, hread]
  rfl

/-- A readable value is read from its text. -/
theorem ofText?_text {j : Json} (h : j.Readable) : ofText? j.text = some j := by
  rw [ofText?, text, String.toList_ofList, ofChars?_chars h]

/-- A readable value is read from the bytes of its text. -/
theorem ofBytes?_text {j : Json} (h : j.Readable) : ofBytes? j.text.toUTF8.toList = some j := by
  rw [ofBytes?, text, Text.decodeChars_toUTF8, String.toList_ofList, ofChars?_chars h]

end RecordQuery.Json
