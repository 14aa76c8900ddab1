import RecordQuery.Proofs.Query.Literal
import RecordQuery.Proofs.Sample
import RecordQuery.Proofs.Text.Pattern

/-!
# Matches when case is ignored

To ignore case the text of a row and the literal are each put into lower case, as whole texts, and
then compared.  A match of two equal texts is never lost that way.  A match of a part of a text can
be, since the lower case of a part is not always a part of the lower case.

*Kept matches.*  A text matches in some place of it.  There the match is kept where each `Σ` of the
literal has the same form in the text and in the literal, and, for patterns, where no single `İ` is
asked for (`TextShape.KeepsMatch`).  A match at the beginning or the end of a text has only one
place, so if it is not kept it is lost.

Literals without `Σ` lose no match, if their texts have no `İ` or they are no patterns
(`TextShape.keepsMatch_of_not_mem`).
-/

namespace RecordQuery

open Text

/-! ## Texts -/

namespace TextShape

/-- Somewhere a text matches a literal so that lower case keeps the match. -/
def KeepsMatch : TextShape → (text literal : List Char) → Prop
  | like, text, literal => KeepsCutting [] literal [] text
  | beginsWith, text, literal => ∃ after, text = literal ++ after ∧ KeepsForms [] literal after
  | endsWith, text, literal =>
    ∃ before, text = before ++ literal ∧ KeepsForms before.reverse literal []
  | contains, text, literal =>
    ∃ before after, text = before ++ literal ++ after ∧ KeepsForms before.reverse literal after

variable {shape : TextShape} {text literal : String}

theorem accepts_lowercase (h : shape.KeepsMatch text.toList literal.toList) :
    shape.accepts (lowercase text) (lowercase literal) = true := by
  cases shape with
  | like =>
      change matchesTokens (patternTokens (lowercase literal).toList) (lowercase text).toList = true
      rw [toList_lowercase, toList_lowercase]
      exact h.matchesTokens_lower
  | beginsWith =>
      obtain ⟨after, htext, hforms⟩ := h
      refine startsWith_iff.mpr ?_
      rw [toList_lowercase, toList_lowercase, htext]
      exact lowerFrom_isPrefix_iff.mpr hforms
  | endsWith =>
      obtain ⟨before, htext, hforms⟩ := h
      refine endsWith_iff.mpr ?_
      rw [toList_lowercase, toList_lowercase, htext]
      exact lowerFrom_isSuffix_iff.mpr hforms
  | contains =>
      obtain ⟨before, after, htext, hforms⟩ := h
      refine containsText_iff.mpr ?_
      rw [toList_lowercase, toList_lowercase, htext]
      exact lowerFrom_isInfix hforms

/-- At the beginning and at the end of a text a match has only one place. -/
theorem keepsMatch_of_accepts_lowercase (hshape : shape = beginsWith ∨ shape = endsWith)
    (h : shape.accepts text literal = true)
    (hlower : shape.accepts (lowercase text) (lowercase literal) = true) :
    shape.KeepsMatch text.toList literal.toList := by
  rcases hshape with rfl | rfl
  · obtain ⟨after, htext⟩ := startsWith_iff.mp h
    replace hlower := startsWith_iff.mp hlower
    rw [toList_lowercase, toList_lowercase, ← htext] at hlower
    exact ⟨after, htext.symm, lowerFrom_isPrefix_iff.mp hlower⟩
  · obtain ⟨before, htext⟩ := endsWith_iff.mp h
    replace hlower := endsWith_iff.mp hlower
    rw [toList_lowercase, toList_lowercase, ← htext] at hlower
    exact ⟨before, htext.symm, lowerFrom_isSuffix_iff.mp hlower⟩

/-- Without `Σ` in the literal, and without `İ` in what a pattern is to match, a match is kept. -/
theorem keepsMatch_of_not_mem (hsigma : 'Σ' ∉ literal.toList)
    (hdotted : shape = like → 'İ' ∉ text.toList) (h : shape.accepts text literal = true) :
    shape.KeepsMatch text.toList literal.toList := by
  cases shape with
  | like => exact keepsCutting_of_not_mem hsigma (hdotted rfl) h
  | beginsWith =>
      obtain ⟨after, htext⟩ := startsWith_iff.mp h
      exact ⟨after, htext.symm, keepsForms_of_not_mem hsigma _ _⟩
  | endsWith =>
      obtain ⟨before, htext⟩ := endsWith_iff.mp h
      exact ⟨before, htext.symm, keepsForms_of_not_mem hsigma _ _⟩
  | contains =>
      obtain ⟨before, after, htext⟩ := containsText_iff.mp h
      exact ⟨before, after, htext.symm, keepsForms_of_not_mem hsigma _ _⟩

end TextShape

/-! ## Keys -/

/-- Keys that are equal are equal when case is ignored. -/
theorem Key.equal_ignoringCase {a b : Key} (h : equal true a b = true) :
    equal false a b = true := by
  cases a <;> cases b
  case text.text s t =>
    have hsame : s = t := Std.LawfulEqOrd.eq_of_compare (Option.some.inj (of_decide_eq_true h))
    rw [hsame]
    exact equal_self false _
  all_goals exact h

theorem Test.equalsAnyOf_ignoringCase {literals : List Key} {s : String}
    (h : equalsAnyOf true literals (.text s) = true) :
    equalsAnyOf false literals (.text s) = true := by
  obtain ⟨literal, hliteral, hequal⟩ := List.any_eq_true.mp h
  exact List.any_eq_true.mpr ⟨literal, hliteral, Key.equal_ignoringCase hequal⟩

/-! ## Conditions -/

/-- The context with case counting or not. -/
def Context.withCase (ctx : Context) (caseSensitive : Bool) : Context :=
  { ctx with caseSensitive := caseSensitive }

namespace CompiledCondition

variable {compiled : CompiledCondition} {ctx : Context} {row : Record} {v : Value} {s : String}

/-- A condition that is no test for null and holds of a row with a text has read this text. -/
theorem keyOf_text (hrow : row.get? compiled.column = some v) (htext : v.unaliased = .text s)
    (htest : compiled.test ≠ .null) (hmatch : compiled.evaluate ctx row = .ok true) :
    compiled.keyOf row = .ok (some (.text s)) := by
  obtain ⟨key, hkey, h⟩ := bind_eq_ok_iff.mp hmatch
  cases key with
  | none =>
      rw [decide_eq_false htest] at h
      cases h
  | some k =>
      rw [hkey]
      unfold keyOf at hkey
      split at hkey
      next t =>
        rw [Key.ofColumn, hrow] at hkey
        have hvalue := (Key.ofStored_eq_some_iff.mp hkey).1
        rw [Key.ofValue, htext] at hvalue
        rw [← Except.ok.inj hvalue]
      next => cases hkey

theorem evaluate_equalsAny (hkey : compiled.keyOf row = .ok (some (.text s))) {literals : List Key}
    (htest : compiled.test = .equalsAny literals) (hexpected : compiled.expected = true)
    (caseSensitive : Bool) : compiled.evaluate (ctx.withCase caseSensitive) row =
      .ok (Test.equalsAnyOf caseSensitive literals (.text s)) := by
  rw [evaluate, hkey, ok_bind, htest, hexpected]
  exact congrArg Except.ok (beq_true _)

theorem evaluate_text (hkey : compiled.keyOf row = .ok (some (.text s))) {shape : TextShape}
    {literal : String} (htest : compiled.test = .text shape literal)
    (hexpected : compiled.expected = true) (caseSensitive : Bool) :
    compiled.evaluate (ctx.withCase caseSensitive) row =
      .ok (shape.accepts (Key.folded caseSensitive s) (Key.folded caseSensitive literal)) := by
  rw [evaluate, hkey, ok_bind, htest, hexpected]
  exact congrArg Except.ok (beq_true _)

/-- **What ignoring case loses.**  A condition that holds with case counting holds with case ignored
if it is on equality, if the match is kept, and in particular if the literal has no `Σ` and is no
pattern or meets no `İ`.  At the beginning and at the end of a text nothing else is kept. -/
theorem evaluate_ignoringCase {c : Condition} {e : Entity} {compileCtx : Context} {column : String}
    (hc : c.compileFor column e compileCtx = .ok compiled) (hrow : row.get? column = some v)
    (htext : v.unaliased = .text s)
    (hmatch : compiled.evaluate (ctx.withCase true) row = .ok true) :
    (c.operator = .equal true → compiled.evaluate (ctx.withCase false) row = .ok true) ∧
      ∀ shape, c.operator = .text shape true →
        ∃ w literal, c.values = [w] ∧ w.text? = some literal ∧
          (shape.KeepsMatch s.toList literal.toList →
            compiled.evaluate (ctx.withCase false) row = .ok true) ∧
          ('Σ' ∉ literal.toList → (shape = .like → 'İ' ∉ s.toList) →
            compiled.evaluate (ctx.withCase false) row = .ok true) ∧
          (shape = .beginsWith ∨ shape = .endsWith →
            compiled.evaluate (ctx.withCase false) row = .ok true →
              shape.KeepsMatch s.toList literal.toList) := by
  obtain ⟨-, -, test, expected, htest, rfl⟩ := Condition.compileFor_eq_ok_iff.mp hc
  obtain ⟨aliasName, name, o, values⟩ := c
  constructor
  · rintro rfl
    obtain ⟨literals, -, h⟩ := bind_eq_ok_iff.mp htest
    cases h
    have hkey := keyOf_text hrow htext (by rintro ⟨⟩) hmatch
    rw [evaluate_equalsAny hkey rfl rfl] at hmatch ⊢
    rw [Test.equalsAnyOf_ignoringCase (Except.ok.inj hmatch)]
  · rintro shape rfl
    match values, htest with
    | [w], htest =>
      obtain ⟨-, htest⟩ := Condition.requireType_bind_eq_ok_iff.mp htest
      obtain ⟨literal, hliteral, h⟩ := bind_eq_ok_iff.mp htest
      cases h
      have hkey := keyOf_text hrow htext (by rintro ⟨⟩) hmatch
      have hread : w.text? = some literal := Key.orRefuse_eq_ok_iff.mp hliteral
      rw [evaluate_text hkey rfl rfl] at hmatch ⊢
      have hmatch := Except.ok.inj hmatch
      refine ⟨w, literal, rfl, hread, fun h => ?_, fun hsigma hdotted => ?_, fun hshape h => ?_⟩
      · exact congrArg Except.ok (TextShape.accepts_lowercase h)
      · have hkept := TextShape.keepsMatch_of_not_mem hsigma hdotted hmatch
        exact congrArg Except.ok (TextShape.accepts_lowercase hkept)
      · exact TextShape.keepsMatch_of_accepts_lowercase hshape hmatch (Except.ok.inj h)

end CompiledCondition

namespace Sample

/-- The condition that a full name stands to a text as a shape says. -/
def nameCondition (shape : TextShape) (literal : String) : Condition :=
  .new "fullname" (.text shape true) [.text literal]

/-- The condition compiled. -/
def compiledName (shape : TextShape) (literal : String) : CompiledCondition :=
  ⟨"fullname", some .string, .text shape true, .text shape literal, true⟩

/-- A contact of some name. -/
def contactNamed (name : String) : Record := ada.set "fullname" (.text name)

/-- The last letter has its form at the end of a word in the literal and in the name. -/
theorem evaluate_last_sigma :
    (nameCondition .endsWith "ΟΣ").compileFor "fullname" contact ctx =
        .ok (compiledName .endsWith "ΟΣ") ∧
      (compiledName .endsWith "ΟΣ").evaluate (ctx.withCase true) (contactNamed "ΛΟΓΟΣ") = .ok true ∧
      TextShape.KeepsMatch .endsWith "ΛΟΓΟΣ".toList "ΟΣ".toList ∧
      (compiledName .endsWith "ΟΣ").evaluate (ctx.withCase false) (contactNamed "ΛΟΓΟΣ") =
        .ok true := by
  have hc : (nameCondition .endsWith "ΟΣ").compileFor "fullname" contact ctx =
      .ok (compiledName .endsWith "ΟΣ") := rfl
  have hmatch : (compiledName .endsWith "ΟΣ").evaluate (ctx.withCase true) (contactNamed "ΛΟΓΟΣ") =
      .ok true := by
    decide +kernel
  have hkept : TextShape.KeepsMatch .endsWith "ΛΟΓΟΣ".toList "ΟΣ".toList :=
    ⟨"ΛΟΓ".toList, rfl, lowerFrom_isSuffix_iff.mp (by decide +kernel)⟩
  obtain ⟨-, hshapes⟩ := CompiledCondition.evaluate_ignoringCase hc rfl rfl hmatch
  obtain ⟨w, literal, hvalues, hliteral, hanswer, -⟩ := hshapes .endsWith rfl
  cases hvalues
  cases hliteral
  exact ⟨hc, hmatch, hkept, hanswer hkept⟩

/-- A `Σ` that ends the literal and not the text loses a match, and so does a single `İ`. -/
theorem matches_lost :
    ((nameCondition .beginsWith "ΑΣ").compileFor "fullname" contact ctx =
        .ok (compiledName .beginsWith "ΑΣ") ∧
      (compiledName .beginsWith "ΑΣ").evaluate (ctx.withCase true) (contactNamed "ΑΣΑ") =
        .ok true ∧
      (compiledName .beginsWith "ΑΣ").evaluate (ctx.withCase false) (contactNamed "ΑΣΑ") =
        .ok false) ∧
      (nameCondition .like "_").compileFor "fullname" contact ctx = .ok (compiledName .like "_") ∧
      (compiledName .like "_").evaluate (ctx.withCase true) (contactNamed "İ") = .ok true ∧
      (compiledName .like "_").evaluate (ctx.withCase false) (contactNamed "İ") = .ok false := by
  refine ⟨⟨rfl, ?_, ?_⟩, rfl, ?_, ?_⟩
  all_goals decide +kernel

end Sample

end RecordQuery
