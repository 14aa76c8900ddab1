import Mathlib.Data.Set.Basic
import RecordQuery.Proofs.Number.Whole
import RecordQuery.Proofs.Query.Literal
import RecordQuery.Proofs.Sample

/-!
# Conditions on sets of codes

A multi-select attribute holds a set of option codes.  Six operators compare it with the set that
all literals name together: whether the two are the same, and whether they share an element.

*Numbers.*  What a literal names is a set of numbers (`Value.numbers`), whole or not.  Compiling
accepts all of them and keeps those that a code can be, the 32-bit whole numbers
(`mem_literalCodes_iff`).

*Answers.*  So the operators compare with the codes among the numbers (`evaluate_codes`).  Whether
an element is shared does not depend on the others, since only codes can be shared.  Whether the
sets are the same does: a number that is no code should be missing from every set of a row, but it
is not looked for (`Sample.fraction_not_missed`).
-/

namespace RecordQuery

open Text

/-! ## Lists of codes -/

theorem mem_distinctCodes {c : Int32} {cs : List Int32} : c ∈ distinctCodes cs ↔ c ∈ cs := by
  induction cs with
  | nil => exact Iff.rfl
  | cons d cs ih =>
      change c ∈ insertCode d (distinctCodes cs) ↔ _
      rw [mem_insertCode, ih, List.mem_cons]

/-- Two lists have one form where they have the same codes. -/
theorem distinctCodes_eq_iff {cs ds : List Int32} :
    distinctCodes cs = distinctCodes ds ↔ ∀ c, c ∈ cs ↔ c ∈ ds := by
  constructor
  · intro h c
    rw [← mem_distinctCodes, h, mem_distinctCodes]
  · intro h
    have hcs := ascending_distinctCodes cs
    have hds := ascending_distinctCodes ds
    have hdistinct : ∀ {l : List Int32}, l.Pairwise (· < ·) → l.Nodup := fun hl =>
      hl.imp Int32.ne_of_lt
    have hperm : (distinctCodes cs).Perm (distinctCodes ds) := by
      rw [List.perm_ext_iff_of_nodup (hdistinct hcs) (hdistinct hds)]
      intro c
      rw [mem_distinctCodes, mem_distinctCodes, h]
    exact hperm.eq_of_pairwise (fun a b _ _ hab hba => absurd hba (Int32.lt_asymm hab)) hcs hds

/-! ## Numbers -/

/-- The numbers that a code can be. -/
def codeNumbers : Set ℚ := Set.range fun c : Int32 => (c.toInt : ℚ)

/-- The codes of a list, as numbers. -/
def numbersOfCodes (cs : List Int32) : Set ℚ := {x | ∃ c ∈ cs, x = c.toInt}

theorem toInt_mem_numbersOfCodes {c : Int32} {cs : List Int32} :
    (c.toInt : ℚ) ∈ numbersOfCodes cs ↔ c ∈ cs := by
  constructor
  · rintro ⟨d, hd, heq⟩
    have hsame : c = d := Int32.toInt_inj.mp (by exact_mod_cast heq)
    rwa [hsame]
  · intro hc
    exact ⟨c, hc, rfl⟩

theorem numbersOfCodes_subset (cs : List Int32) : numbersOfCodes cs ⊆ codeNumbers := by
  rintro x ⟨c, -, rfl⟩
  exact ⟨c, rfl⟩

/-- The numbers that a literal names: the codes of a multi-select option set, the number of any
other literal that has one. -/
def Value.numbers (v : Value) : Set ℚ :=
  match v.unaliased with
  | .int n => {(n.toInt : ℚ)}
  | .bigint n => {(n.toInt : ℚ)}
  | .double d => {d.value}
  | .decimal d => {d.value}
  | .money d => {d.value}
  | .option c => {(c.toInt : ℚ)}
  | .text s => {x | ∃ d, Decimal.ofText? (trim s) = some d ∧ x = d.value}
  | .options cs => numbersOfCodes cs
  | _ => ∅

/-- The numbers that literals name together. -/
def numbersOfLiterals (values : List Value) : Set ℚ := {x | ∃ v ∈ values, x ∈ v.numbers}

/-! ## Literals -/

/-- The codes that the key of a literal names. -/
def Key.namedCodes : Key → List Int32
  | .codes cs => cs
  | k => k.code?.toList

theorem Key.mem_namedCodes_number {d : Decimal} {c : Int32} :
    c ∈ (Key.number d).namedCodes ↔ (c.toInt : ℚ) = d.value := by
  rw [namedCodes, code?, Option.mem_toList, Decimal.toInt32?_eq_some_iff, eq_comm]
  exact nofun

/-- A literal that is read as a number names it, as far as codes are concerned. -/
theorem Key.toInt_mem_numbers_iff {name : String} {v : Value} {d : Decimal}
    (h : numberLiteral name v.unaliased = .ok d) (c : Int32) :
    (c.toInt : ℚ) ∈ v.numbers ↔ (c.toInt : ℚ) = d.value := by
  unfold Value.numbers
  cases hplain : v.unaliased with
  | text s =>
      rw [hplain, numberLiteral, orRefuse_eq_ok_iff] at h
      simp [h]
  | double x =>
      rw [hplain, numberLiteral, decimalOfDouble] at h
      split at h
      next hdecimal =>
        cases h
        rw [Set.mem_singleton_iff, eq_comm, @eq_comm _ _ d.value]
        exact (Double.value_toDecimal?_iff hdecimal c).symm
      next => cases h
  | _ =>
      rw [hplain] at h
      cases h <;> simp [Decimal.ofInt, Decimal.value]

/-- The key of a literal names the codes among the numbers of the literal. -/
theorem Key.mem_namedCodes_iff {name : String} {v : Value} {k : Key}
    (h : ofLiteral name (some .multiSelect) v = .ok k) (c : Int32) :
    c ∈ k.namedCodes ↔ (c.toInt : ℚ) ∈ v.numbers := by
  change ofTypedLiteral name .multiSelect v.unaliased = .ok k at h
  cases hplain : v.unaliased with
  | options cs =>
      rw [hplain] at h
      cases h
      rw [Value.numbers, hplain]
      exact mem_distinctCodes.trans toInt_mem_numbersOfCodes.symm
  | _ =>
      -- all other literals are read as numbers
      have hnumber : (numberLiteral name v.unaliased).map number = .ok k := by
        rw [hplain] at h ⊢
        exact h
      obtain ⟨d, hd, rfl⟩ := map_eq_ok_iff.mp hnumber
      rw [mem_namedCodes_number, toInt_mem_numbers_iff hd]

/-- Literals that compile together name the codes among their numbers. -/
theorem mem_literalCodes_iff {name : String} {values : List Value} {literals : List Key}
    (h : values.mapM (Key.ofLiteral name (some .multiSelect)) = .ok literals) (c : Int32) :
    c ∈ Test.literalCodes literals ↔ (c.toInt : ℚ) ∈ numbersOfLiterals values := by
  have hflat : Test.literalCodes literals = distinctCodes (literals.flatMap Key.namedCodes) := by
    rw [Test.literalCodes]
    congr 2
  rw [hflat, mem_distinctCodes, List.mem_flatMap]
  constructor
  · rintro ⟨k, hk, hc⟩
    obtain ⟨v, hv, hkey⟩ := mem_of_mapM h hk
    exact ⟨v, hv, (Key.mem_namedCodes_iff hkey c).mp hc⟩
  · rintro ⟨v, hv, hc⟩
    obtain ⟨k, hkey⟩ := exists_mapM_eq_ok_iff.mp ⟨literals, h⟩ v hv
    exact ⟨k, (mem_mapM_iff h).mpr ⟨v, hv, hkey⟩, (Key.mem_namedCodes_iff hkey c).mpr hc⟩

/-! ## Answers -/

/-- The operator asks how the set of codes of a row is related to the set of numbers that the
literals name, and which answer makes it hold. -/
inductive Operator.ComparesSets : Operator → Bool → (Set ℚ → Set ℚ → Prop) → Prop where
  | equal (holds : Bool) : ComparesSets (.equal holds) holds (fun S L => S = L)
  | among (holds : Bool) : ComparesSets (.among holds) holds (fun S L => S = L)
  | sharesCodes (holds : Bool) :
      ComparesSets (.sharesCodes holds) holds (fun S L => (S ∩ L).Nonempty)

section Answers

variable {name : String} {values : List Value} {literals : List Key}

/-- The codes of a row are those of the literals. -/
theorem equalsAnyOf_codes_iff
    (h : values.mapM (Key.ofLiteral name (some .multiSelect)) = .ok literals)
    (caseSensitive : Bool) (cs : List Int32) :
    Test.equalsAnyOf caseSensitive literals (.codes (distinctCodes cs)) = true ↔
      numbersOfCodes cs = numbersOfLiterals values ∩ codeNumbers := by
  have hform : distinctCodes (Test.literalCodes literals) = Test.literalCodes literals :=
    distinctCodes_of_ascending (ascending_distinctCodes _)
  rw [Test.equalsAnyOf, decide_eq_true_iff, ← hform, distinctCodes_eq_iff]
  simp only [mem_literalCodes_iff h, ← toInt_mem_numbersOfCodes]
  constructor
  · intro hsame
    ext x
    constructor
    · intro hx
      obtain ⟨c, rfl⟩ := numbersOfCodes_subset cs hx
      exact ⟨(hsame c).mp hx, c, rfl⟩
    · rintro ⟨hx, c, rfl⟩
      exact (hsame c).mpr hx
  · intro hsame c
    rw [hsame]
    exact and_iff_left ⟨c, rfl⟩

/-- A code of a row is among those of the literals. -/
theorem sharesCodesWith_codes_iff
    (h : values.mapM (Key.ofLiteral name (some .multiSelect)) = .ok literals) (cs : List Int32) :
    Test.sharesCodesWith literals (.codes (distinctCodes cs)) = true ↔
      (numbersOfCodes cs ∩ numbersOfLiterals values).Nonempty := by
  rw [Test.sharesCodesWith, List.any_eq_true]
  constructor
  · rintro ⟨c, hc, hshared⟩
    refine ⟨c.toInt, toInt_mem_numbersOfCodes.mpr (mem_distinctCodes.mp hc), ?_⟩
    exact (mem_literalCodes_iff h c).mp (List.contains_iff_mem.mp hshared)
  · rintro ⟨x, ⟨c, hc, rfl⟩, hx⟩
    refine ⟨c, mem_distinctCodes.mpr hc, ?_⟩
    exact List.contains_iff_mem.mpr ((mem_literalCodes_iff h c).mpr hx)

end Answers

/-- Codes are shared with the codes among some numbers where they are shared with the numbers. -/
theorem inter_codeNumbers_nonempty {cs : List Int32} {L : Set ℚ} :
    (numbersOfCodes cs ∩ (L ∩ codeNumbers)).Nonempty ↔ (numbersOfCodes cs ∩ L).Nonempty := by
  rw [← Set.inter_assoc, Set.inter_right_comm,
    Set.inter_eq_left.mpr (numbersOfCodes_subset cs)]

/-- Codes are the codes among some numbers where they are the numbers, unless some number is no
code and is not missed. -/
theorem eq_inter_codeNumbers_iff {cs : List Int32} {L : Set ℚ} :
    (numbersOfCodes cs = L ∩ codeNumbers ↔ numbersOfCodes cs = L) ↔
      (L ⊆ codeNumbers ∨ numbersOfCodes cs ≠ L ∩ codeNumbers) := by
  constructor
  · intro hiff
    by_cases hsame : numbersOfCodes cs = L ∩ codeNumbers
    · rw [← hiff.mp hsame]
      exact .inl (numbersOfCodes_subset cs)
    · exact .inr hsame
  · rintro (hall | hother)
    · rw [Set.inter_eq_left.mpr hall]
    · refine iff_of_false hother fun hsame => hother ?_
      rw [← hsame, Set.inter_eq_left.mpr (numbersOfCodes_subset cs)]

/-- **Operators on sets follow the codes among the numbers of their literals.**  They follow all the
numbers but where some number is no code and those that are make up the set of the row. -/
theorem CompiledCondition.evaluate_codes {c : Condition} {column : String} {e : Entity}
    {ctx : Context} {compiled : CompiledCondition} (hc : c.compileFor column e ctx = .ok compiled)
    (htype : e.typeOf? (lowercase c.name) = some .multiSelect) {holds : Bool}
    {related : Set ℚ → Set ℚ → Prop} (hop : c.operator.ComparesSets holds related) {row : Record}
    {v : Value} (hrow : row.get? column = some v) {cs : List Int32}
    (hcs : v.unaliased = .options cs) (ctx' : Context) :
    ∃ answer : Bool, compiled.evaluate ctx' row = .ok (answer == holds) ∧
      (answer = true ↔ related (numbersOfCodes cs) (numbersOfLiterals c.values ∩ codeNumbers)) ∧
      ((answer = true ↔ related (numbersOfCodes cs) (numbersOfLiterals c.values)) ↔
        (c.operator = .sharesCodes holds ∨ numbersOfLiterals c.values ⊆ codeNumbers ∨
          numbersOfCodes cs ≠ numbersOfLiterals c.values ∩ codeNumbers)) := by
  obtain ⟨-, -, test, expected, htest, rfl⟩ := Condition.compileFor_eq_ok_iff.mp hc
  have hkey : Key.ofColumn row column (some .multiSelect) =
      .ok (some (.codes (distinctCodes cs))) := by
    rw [Key.ofColumn, hrow]
    exact Key.ofStored_eq_some_iff.mpr ⟨by rw [Key.ofValue, hcs], rfl⟩
  rw [htype] at htest
  simp only [evaluate, keyOf, htype, hkey, ok_bind]
  obtain ⟨aliasName, name, o, values⟩ := c
  cases hop with
  | equal | among =>
      obtain ⟨literals, hliterals, h⟩ := bind_eq_ok_iff.mp htest
      cases h
      have hanswer := equalsAnyOf_codes_iff hliterals ctx'.caseSensitive cs
      refine ⟨_, rfl, hanswer, ?_⟩
      rw [hanswer, eq_inter_codeNumbers_iff]
      exact (or_iff_right (by rintro ⟨⟩)).symm
  | sharesCodes =>
      obtain ⟨literals, hliterals, h⟩ := bind_eq_ok_iff.mp htest
      cases h
      have hanswer := sharesCodesWith_codes_iff hliterals cs
      exact ⟨_, rfl, hanswer.trans inter_codeNumbers_nonempty.symm,
        iff_of_true hanswer (.inl rfl)⟩

namespace Sample

/-- Contacts with tags. -/
def tagged : Entity := (Entity.new "contact" "contactid").declare "tags" .multiSelect

/-- The condition that the tags are those of literals. -/
def tagsEqual (values : List Value) : Condition := .new "tags" (.equal true) values

/-- The condition compiled, with the keys of its literals. -/
def compiledTags (literals : List Key) : CompiledCondition :=
  ⟨"tags", some .multiSelect, .equal true, .equalsAny literals, true⟩

/-- A text and a set name two codes together. -/
theorem evaluate_tags :
    (tagsEqual [.text "2.0", .options [1]]).compileFor "tags" tagged ctx =
        .ok (compiledTags [.number ⟨20, 1⟩, .codes [1]]) ∧
      ∃ answer : Bool,
        (compiledTags [.number ⟨20, 1⟩, .codes [1]]).evaluate ctx
          (ada.set "tags" (.options [2, 1, 2])) = .ok (answer == true) ∧
        (answer = true ↔ numbersOfCodes [2, 1, 2] =
          numbersOfLiterals [.text "2.0", .options [1]] ∩ codeNumbers) := by
  have hc : (tagsEqual [.text "2.0", .options [1]]).compileFor "tags" tagged ctx =
      .ok (compiledTags [.number ⟨20, 1⟩, .codes [1]]) := by
    decide +kernel
  have hvalue : (ada.set "tags" (.options [2, 1, 2])).get? "tags" = some (.options [2, 1, 2]) := rfl
  obtain ⟨answer, hanswer, hsame, -⟩ :=
    CompiledCondition.evaluate_codes hc rfl (.equal true) hvalue rfl ctx
  exact ⟨hc, answer, hanswer, hsame⟩

/-- A literal that is no code is not missed in a set of codes. -/
theorem fraction_not_missed :
    (tagsEqual [.int 1, .decimal ⟨15, 1⟩]).compileFor "tags" tagged ctx =
        .ok (compiledTags [.number ⟨1, 0⟩, .number ⟨15, 1⟩]) ∧
      (compiledTags [.number ⟨1, 0⟩, .number ⟨15, 1⟩]).evaluate ctx
        (ada.set "tags" (.options [1])) = .ok true ∧
      numbersOfCodes [1] ≠ numbersOfLiterals [.int 1, .decimal ⟨15, 1⟩] := by
  refine ⟨rfl, by decide +kernel, fun hsame => ?_⟩
  have hfraction : (3 / 2 : ℚ) ∈ numbersOfLiterals [.int 1, .decimal ⟨15, 1⟩] := by
    refine ⟨_, .tail _ (.head _), ?_⟩
    norm_num [Value.numbers, Value.unaliased, Decimal.value]
  rw [← hsame] at hfraction
  obtain ⟨c, hc, heq⟩ := hfraction
  have hone : (1 : Int32).toInt = 1 := rfl
  rw [List.mem_singleton.mp hc, hone] at heq
  norm_num at heq

end Sample

end RecordQuery
