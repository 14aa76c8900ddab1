import RecordQuery.Proofs.Query.Compiled

/-!
# Answers of operators

What an operator with literals says of an attribute of a row: the condition is compiled and then
evaluated, maybe under another context.  Where the attribute is declared and the row holds a key of
the declared type, the answer is that of the test the operator is compiled to (`answer_of_testOf`),
above all where it holds an instant (`HoldsInstant`).
-/

namespace RecordQuery

open Text

namespace Condition

/-- The answer of a condition on a row that holds the attribute under a column. -/
def answer (c : Condition) (column : String) (e : Entity) (ctx ctx' : Context) (row : Record) :
    Except QueryError Bool := do
  let compiled ← c.compileFor column e ctx
  compiled.evaluate ctx' row

variable {c : Condition} {column : String} {e : Entity} {ctx ctx' : Context} {row : Record}
  {type : AttributeType} {test : Test} {expected : Bool}

theorem answer_of_testOf (htype : e.typeOf? (lowercase c.name) = some type)
    (harity : c.operator.arity.accepts c.values.length = true)
    (htest : testOf ctx (lowercase c.name) (some type) c.operator c.values = .ok (test, expected))
    {k : Key} (hkey : Key.ofColumn row column (some type) = .ok (some k)) :
    c.answer column e ctx ctx' row = (test.holds ctx' column k).map (· == expected) := by
  have hcompiled : c.compileFor column e ctx =
      .ok ⟨column, some type, c.operator, test, expected⟩ := by
    refine compileFor_eq_ok_iff.mpr ⟨harity, by simp [htype], test, expected, ?_⟩
    rw [htype]
    exact ⟨htest, rfl⟩
  simp only [answer, hcompiled, ok_bind, CompiledCondition.evaluate, CompiledCondition.keyOf, hkey]
  rfl

end Condition

namespace Entity

/-- The answer of an operator with literals on an attribute of a row. -/
def answer (e : Entity) (ctx : Context) (row : Record) (name : String) (o : Operator)
    (values : List Value) : Except QueryError Bool := do
  let compiled ← Condition.compile ⟨none, name, o, values⟩ e ctx
  compiled.evaluate ctx row

variable {e : Entity} {ctx : Context} {row : Record} {name : String} {o : Operator}
  {values : List Value} {type : AttributeType} {test : Test} {expected : Bool}

theorem answer_of_testOf (htype : e.typeOf? (lowercase name) = some type)
    (harity : o.arity.accepts values.length = true)
    (htest : Condition.testOf ctx (lowercase name) (some type) o values = .ok (test, expected))
    {k : Key} (hkey : Key.ofColumn row (lowercase name) (some type) = .ok (some k)) :
    e.answer ctx row name o values =
      (test.holds ctx (lowercase name) k).map (· == expected) :=
  Condition.answer_of_testOf (c := ⟨none, name, o, values⟩) htype harity htest hkey

end Entity

/-- An attribute that is declared to hold instants, and the instant that a row holds under it. -/
structure HoldsInstant (e : Entity) (row : Record) (name : String) (t : Instant) : Prop where
  declared : e.typeOf? (lowercase name) = some .dateTime
  stored : ∃ v, row.get? (lowercase name) = some v ∧ v.unaliased = .instant t

namespace HoldsInstant

variable {e : Entity} {ctx : Context} {row : Record} {name : String} {t : Instant} {o : Operator}
  {values : List Value} {test : Test} {expected : Bool}

/-- On such an attribute an operator answers with the test of the instant. -/
theorem answer_of_testOf (h : HoldsInstant e row name t)
    (harity : o.arity.accepts values.length = true)
    (htest : Condition.testOf ctx (lowercase name) (some .dateTime) o values =
      .ok (test, expected)) :
    e.answer ctx row name o values =
      (test.holds ctx (lowercase name) (.instant t)).map (· == expected) := by
  obtain ⟨v, hvalue, hinstant⟩ := h.stored
  have hkey : Key.ofColumn row (lowercase name) (some .dateTime) = .ok (some (.instant t)) := by
    simp only [Key.ofColumn, hvalue, Key.ofStored, Key.ofValue, hinstant]
    rfl
  exact Entity.answer_of_testOf h.declared harity htest hkey

/-- An operator that asks whether a test holds answers with it. -/
theorem answer_eq_holds (h : HoldsInstant e row name t)
    (harity : o.arity.accepts values.length = true)
    (htest : Condition.testOf ctx (lowercase name) (some .dateTime) o values = .ok (test, true)) :
    e.answer ctx row name o values = test.holds ctx (lowercase name) (.instant t) := by
  rw [h.answer_of_testOf harity htest]
  cases test.holds ctx (lowercase name) (.instant t) with
  | error failure => rfl
  | ok b => rw [ok_map, beq_true]

/-- An operator that reads one literal for a test of dates answers with the test for what it
reads. -/
theorem answer_of_read (h : HoldsInstant e row name t) {v : Value} {read : Except QueryError α}
    {test : α → Test} (harity : o.arity = .one)
    (htest : Condition.testOf ctx (lowercase name) (some .dateTime) o [v] =
      Condition.requireType (lowercase name) (some .dateTime) AttributeType.isDate >>= fun _ =>
        read >>= fun a => .ok (test a, expected))
    {a : α} (hread : read = .ok a) :
    e.answer ctx row name o [v] =
      ((test a).holds ctx (lowercase name) (.instant t)).map (· == expected) := by
  have hone : o.arity.accepts 1 = true := by
    rw [harity]
    rfl
  refine h.answer_of_testOf hone (htest.trans ?_)
  rw [hread]
  rfl

end HoldsInstant

end RecordQuery
