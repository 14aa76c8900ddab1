import RecordQuery.Proofs.Query.Compiled
import RecordQuery.Proofs.Sample

/-!
# Three-valued logic

A condition on an attribute without a value is neither true nor false: it fails, and so does the
opposite condition.  Only the test for null answers there.  Where the attribute has a value a
condition and its opposite are each other's negation (`CompiledCondition.evaluate_three_valued`).

*Unknown values.*  A value is unknown where the attribute is not declared, where the row does not
hold it, and where it is null.  These are the rows without a key (`keyOf_eq_none_iff`).
-/

namespace RecordQuery

open Text

/-! ## Unknown values -/

/-- A row has no value of an attribute that it holds under a column. -/
inductive Unknown (e : Entity) (name column : String) (row : Record) : Prop where
  | undeclared : e.declares name = false → Unknown e name column row
  | absent : row.get? column = none → Unknown e name column row
  | null {v : Value} : row.get? column = some v → v.isNull = true → Unknown e name column row

namespace Key

/-- Only null has no key. -/
theorem ofValue_eq_none_iff {name : String} {v : Value} :
    ofValue name v = .ok none ↔ v.isNull = true := by
  unfold ofValue Value.isNull
  cases v.unaliased with
  | double d =>
      simp only [decimalOfDouble]
      cases d.toDecimal? <;> simp [Except.map]
  | _ => simp

theorem ofStored_eq_none_iff {name : String} {t : AttributeType} {v : Value} :
    ofStored name (some t) v = .ok none ↔ v.isNull = true := by
  rw [← @ofValue_eq_none_iff name, ofStored]
  cases ofValue name v with
  | error failure => simp
  | ok key =>
      cases key with
      | none => simp
      | some k =>
          by_cases hfits : k.fits t = true
          · simp [hfits]
          · simp [hfits]

end Key

namespace CompiledCondition

variable {c : Condition} {column : String} {e : Entity} {ctx ctx' : Context}
  {compiled : CompiledCondition} {row : Record}

/-- A condition reads no key exactly where the value is unknown. -/
theorem keyOf_eq_none_iff (hc : c.compileFor column e ctx = .ok compiled) :
    compiled.keyOf row = .ok none ↔ Unknown e (lowercase c.name) column row := by
  obtain ⟨-, -, test, expected, -, rfl⟩ := Condition.compileFor_eq_ok_iff.mp hc
  have htype : e.declares (lowercase c.name) = (e.typeOf? (lowercase c.name)).isSome := by
    simp [Entity.declares, Entity.typeOf?]
  unfold keyOf
  cases hdeclared : e.typeOf? (lowercase c.name) with
  | none =>
      rw [hdeclared] at htype
      simpa using .undeclared htype
  | some t =>
      rw [hdeclared] at htype
      simp only [Key.ofColumn]
      cases hvalue : row.get? column with
      | none => simpa using .absent hvalue
      | some v =>
          simp only [Key.ofStored_eq_none_iff]
          constructor
          · exact .null hvalue
          · rintro (hundeclared | habsent | ⟨hfound, hnull⟩)
            · rw [htype] at hundeclared
              cases hundeclared
            · rw [hvalue] at habsent
              cases habsent
            · rw [hvalue] at hfound
              cases hfound
              exact hnull

/-- Only the test for null is passed without a key. -/
theorem passes_unknown_iff {s : FiscalSettings} {declared : Option AttributeType} {o : Operator}
    {test : Test} {expected : Bool} (h : o.Asks s declared test expected) :
    (decide (test = .null) && expected) = true ↔ o = .null true := by
  cases h with
  | null holds => simp
  | _ => simp

theorem evaluate_unknown (hc : c.compileFor column e ctx = .ok compiled)
    (hrow : Unknown e (lowercase c.name) column row) :
    compiled.evaluate ctx' row = .ok (decide (c.operator = .null true)) := by
  have hkey := (keyOf_eq_none_iff hc).mpr hrow
  obtain ⟨-, -, test, expected, htest, rfl⟩ := Condition.compileFor_eq_ok_iff.mp hc
  have hpasses : (decide (test = .null) && expected) = decide (c.operator = .null true) :=
    Bool.eq_iff_iff.mpr
      ((passes_unknown_iff (Condition.asks_of_testOf htest)).trans decide_eq_true_iff.symm)
  rw [evaluate, hkey]
  exact congrArg Except.ok hpasses

/-- On a known value the opposite answer of the test is the opposite answer of the condition. -/
theorem evaluate_not {o : Operator} (hkey : compiled.keyOf row ≠ .ok none) {answer : Bool}
    (h : compiled.evaluate ctx' row = .ok answer) :
    evaluate { compiled with operator := o, expected := !compiled.expected } ctx' row =
      .ok (!answer) := by
  obtain ⟨key, hread, h⟩ := bind_eq_ok_iff.mp h
  cases key with
  | none => exact absurd hread hkey
  | some k =>
      obtain ⟨passed, hpassed, h⟩ := bind_eq_ok_iff.mp h
      cases h
      refine bind_eq_ok_iff.mpr ⟨some k, hread, bind_eq_ok_iff.mpr ⟨passed, hpassed, ?_⟩⟩
      cases passed <;> cases compiled.expected <;> rfl

/-- **Conditions are three-valued.**  Where the value is unknown a condition holds if and only if it
tests for null.  Where it is known the condition with the opposite operator compiles too, and holds
of the row exactly when this one does not. -/
theorem evaluate_three_valued (hc : c.compileFor column e ctx = .ok compiled) {answer : Bool}
    (h : compiled.evaluate ctx' row = .ok answer) :
    (Unknown e (lowercase c.name) column row → (answer = true ↔ c.operator = .null true)) ∧
      (¬ Unknown e (lowercase c.name) column row → ∀ o, c.operator.Opposite o →
        ∃ compiled', Condition.compileFor { c with operator := o } column e ctx = .ok compiled' ∧
          compiled'.evaluate ctx' row = .ok !answer) := by
  constructor
  · intro hunknown
    rw [evaluate_unknown hc hunknown] at h
    cases h
    exact decide_eq_true_iff
  · intro hknown o ho
    have hkey : compiled.keyOf row ≠ .ok none := mt (keyOf_eq_none_iff hc).mp hknown
    exact ⟨_, Condition.compileFor_opposite ho hc, evaluate_not hkey h⟩

end CompiledCondition

namespace Sample

/-- The condition that the full name contains a text, or does not. -/
def named (text : String) (holds : Bool) : Condition :=
  .new "fullname" (.text .contains holds) [.text text]

def compiledDa : CompiledCondition :=
  ⟨"fullname", some .string, .text .contains true, .text .contains "da", true⟩

/-- The opposite condition compiles and fails on the contact whose name contains the text.  A record
without a name fails the condition, which does not test for null. -/
theorem contains_three_valued :
    (named "da" true).compileFor "fullname" contact ctx = .ok compiledDa ∧
      compiledDa.evaluate ctx ada = .ok true ∧
      (∃ compiled, (named "da" false).compileFor "fullname" contact ctx = .ok compiled ∧
        compiled.evaluate ctx ada = .ok false) ∧
      Unknown contact "fullname" "fullname" contoso ∧
      compiledDa.evaluate ctx contoso = .ok false ∧
      (false = true ↔ (named "da" true).operator = .null true) := by
  have hc : (named "da" true).compileFor "fullname" contact ctx = .ok compiledDa := rfl
  have hada : compiledDa.evaluate ctx ada = .ok true := rfl
  have hcontoso : compiledDa.evaluate ctx contoso = .ok false := rfl
  have hknown : ¬ Unknown contact "fullname" "fullname" ada := by
    rintro (hundeclared | habsent | ⟨hfound, hnull⟩)
    · cases hundeclared
    · cases habsent
    · cases hfound
      cases hnull
  have hunknown : Unknown contact "fullname" "fullname" contoso := .absent rfl
  have hnot := (CompiledCondition.evaluate_three_valued hc hada).2 hknown _ (.text .contains true)
  exact ⟨hc, hada, hnot, hunknown, hcontoso,
    (CompiledCondition.evaluate_three_valued hc hcontoso).1 hunknown⟩

end Sample

end RecordQuery
