import RecordQuery.Proofs.Query.Answer
import RecordQuery.Proofs.Query.Literal
import RecordQuery.Proofs.Sample

/-!
# Relational operators

The operators on equality, order, ranges and lists compare the value of a row with literals.  For
all declared types but sets of codes they say where the value stands in one order: it is less than a
literal, equal to it or greater, and the other operators follow from this
(`Condition.form_one_order`).

*One kind.*  A literal is read as the declared type, so its key fits the type as the key of a stored
value does (`Key.fits_of_ofTypedLiteral`).  Keys that fit one type are of one kind and compare.  A
key of another kind would not compare, and then all operators would fail together.

*Places.*  So each literal has a place against the value, the one that sorting gives it
(`Key.place`), and each operator answers from the places of its literals (`AnswerByPlace`).  Whatever
is answered from places follows the laws of one order (`AnswerByPlace.formOneOrder`).

*Sets of codes.*  The key of a multi-select attribute is compared with all literals together, and a
literal may be one number.  So these attributes have no part in this.
-/

namespace RecordQuery

open Text

/-! ## Keys that compare -/

namespace Key

variable {name : String} {t : AttributeType} {v : Value} {k l : Key}

theorem fits_of_ofTypedLiteral (ht : t ≠ .multiSelect) (h : ofTypedLiteral name t v = .ok k) :
    k.fits t = true := by
  cases t with
  | multiSelect => exact absurd rfl ht
  | binary =>
      simp only [ofTypedLiteral] at h
      split at h
      next bs =>
        cases h
        rfl
      next => cases h
  | partyList => cases h
  | _ =>
      obtain ⟨x, -, rfl⟩ := map_eq_ok_iff.mp h
      rfl

/-- Keys that fit one type compare, and as for sorting. -/
theorem compare?_of_fits (hk : k.fits t = true) (hl : l.fits t = true) (caseSensitive : Bool) :
    compare? caseSensitive k l = some (compareForSort caseSensitive (some k) (some l)) := by
  obtain ⟨ord, hord⟩ := Option.ne_none_iff_exists'.mp fun hnone =>
    (compare?_eq_none_iff caseSensitive).mp hnone (kind_eq_of_fits hk hl)
  rw [compareForSort, hord, Option.getD_some]

/-- The place of a key before, at or behind a literal when keys are sorted. -/
def place (caseSensitive : Bool) (name : String) (t : AttributeType) (k : Key) (v : Value) :
    Ordering :=
  compareForSort caseSensitive (some k) (ofLiteral name (some t) v).toOption

theorem compare?_eq_place (ht : t ≠ .multiSelect) (hk : k.fits t = true)
    (hl : ofLiteral name (some t) v = .ok l) (caseSensitive : Bool) :
    compare? caseSensitive k l = some (place caseSensitive name t k v) := by
  rw [place, hl]
  exact compare?_of_fits hk (fits_of_ofTypedLiteral ht hl) caseSensitive

theorem kind_ne_codes (ht : t ≠ .multiSelect) (hk : k.fits t = true) : k.kind ≠ .codes := by
  cases k with
  | codes cs =>
      cases t with
      | multiSelect => exact absurd rfl ht
      | _ => cases hk
  | _ => exact nofun

end Key

theorem Test.equalsAnyOf_eq_any {k : Key} (hk : k.kind ≠ .codes) (caseSensitive : Bool)
    (literals : List Key) :
    equalsAnyOf caseSensitive literals k = literals.any (Key.equal caseSensitive k) := by
  cases k with
  | codes cs => exact absurd rfl hk
  | _ => rfl

/-! ## Conditions that compile -/

/-- The operator compares a value with literals, and takes as many as there are in the list. -/
inductive Operator.Compares : Operator → List Value → Prop where
  | equal (holds : Bool) (a : Value) : Compares (.equal holds) [a]
  | relation (r : Relation) (a : Value) : Compares (.relation r) [a]
  | between (inside : Bool) (a b : Value) : Compares (.between inside) [a, b]
  | among (holds : Bool) (a : Value) (ls : List Value) : Compares (.among holds) (a :: ls)

/-- The operator that asks for one way to stand to a literal. -/
def Operator.ofOrdering : Ordering → Operator
  | .lt => .relation .less
  | .eq => .equal true
  | .gt => .relation .greater

/-- What operators with literals answer follows from where one value stands in an order with the
literals that are accepted. -/
structure FormOneOrder (accepted : Value → Prop)
    (answer : Operator → List Value → Except QueryError Bool) : Prop where
  /-- None of the operators fails. -/
  answers {o : Operator} {ls : List Value} : o.Compares ls → (∀ l ∈ ls, accepted l) →
    ∃ b, answer o ls = .ok b
  /-- The value is less than a literal, equal to it or greater, and only one of the three. -/
  stands {a : Value} : accepted a → ∃! ord, answer (.ofOrdering ord) [a] = .ok true
  lessEqual_iff {a : Value} : accepted a → (answer (.relation .lessEqual) [a] = .ok true ↔
    answer (.relation .less) [a] = .ok true ∨ answer (.equal true) [a] = .ok true)
  greaterEqual_iff {a : Value} : accepted a → (answer (.relation .greaterEqual) [a] = .ok true ↔
    answer (.relation .greater) [a] = .ok true ∨ answer (.equal true) [a] = .ok true)
  between_iff {a b : Value} : accepted a → accepted b →
    (answer (.between true) [a, b] = .ok true ↔
      answer (.relation .greaterEqual) [a] = .ok true ∧
        answer (.relation .lessEqual) [b] = .ok true)
  notBetween_iff {a b : Value} : accepted a → accepted b →
    (answer (.between false) [a, b] = .ok true ↔
      answer (.relation .less) [a] = .ok true ∨ answer (.relation .greater) [b] = .ok true)
  among_iff {ls : List Value} : ls ≠ [] → (∀ l ∈ ls, accepted l) →
    (answer (.among true) ls = .ok true ↔ ∃ l ∈ ls, answer (.equal true) [l] = .ok true)
  notAmong_iff {ls : List Value} : ls ≠ [] → (∀ l ∈ ls, accepted l) →
    (answer (.among false) ls = .ok true ↔ ∀ l ∈ ls, answer (.equal false) [l] = .ok true)

/-- What operators with literals answer is computed from the place of one value before, at or behind
each literal that is accepted. -/
structure AnswerByPlace (accepted : Value → Prop)
    (answer : Operator → List Value → Except QueryError Bool) (place : Value → Ordering) :
    Prop where
  relation {a : Value} (r : Relation) : accepted a →
    answer (.relation r) [a] = .ok (r.accepts (place a))
  equal {a : Value} (holds : Bool) : accepted a →
    answer (.equal holds) [a] = .ok (decide (place a = .eq) == holds)
  between {a b : Value} (inside : Bool) : accepted a → accepted b →
    answer (.between inside) [a, b] = .ok
      ((Relation.greaterEqual.accepts (place a) && Relation.lessEqual.accepts (place b)) == inside)
  among {ls : List Value} (holds : Bool) : ls ≠ [] → (∀ l ∈ ls, accepted l) →
    answer (.among holds) ls = .ok (ls.any (fun l => place l = .eq) == holds)

namespace AnswerByPlace

variable {accepted : Value → Prop} {answer : Operator → List Value → Except QueryError Bool}
  {place : Value → Ordering} {a b : Value} {ls : List Value}

theorem exists_answer (h : AnswerByPlace accepted answer place) {o : Operator}
    (ho : o.Compares ls) (hls : ∀ l ∈ ls, accepted l) : ∃ b, answer o ls = .ok b := by
  cases ho with
  | equal holds a => exact ⟨_, h.equal holds (hls a (.head _))⟩
  | relation r a => exact ⟨_, h.relation r (hls a (.head _))⟩
  | between inside a b =>
      exact ⟨_, h.between inside (hls a (.head _)) (hls b (.tail _ (.head _)))⟩
  | among holds a ls => exact ⟨_, h.among holds (List.cons_ne_nil a ls) hls⟩

/-- The operator for a place answers whether the value has it. -/
theorem answer_ofOrdering (h : AnswerByPlace accepted answer place) (ha : accepted a)
    (ord : Ordering) : answer (.ofOrdering ord) [a] = .ok (decide (place a = ord)) := by
  cases ord with
  | lt => exact h.relation .less ha
  | gt => exact h.relation .greater ha
  | eq => exact (h.equal true ha).trans (congrArg Except.ok (beq_true _))

theorem relation_iff (h : AnswerByPlace accepted answer place) (ha : accepted a) (r : Relation) :
    answer (.relation r) [a] = .ok true ↔ r.accepts (place a) = true := by
  rw [h.relation r ha, Except.ok.injEq]

theorem equal_iff (h : AnswerByPlace accepted answer place) (ha : accepted a) (holds : Bool) :
    answer (.equal holds) [a] = .ok true ↔ decide (place a = .eq) = holds := by
  rw [h.equal holds ha, Except.ok.injEq, beq_iff_eq]

/-- What is computed from places follows the laws of one order. -/
theorem formOneOrder (h : AnswerByPlace accepted answer place) : FormOneOrder accepted answer := by
  constructor
  case answers => exact h.exists_answer
  case stands =>
    intro a ha
    simp [h.answer_ofOrdering ha]
  case lessEqual_iff =>
    intro a ha
    rw [h.relation_iff ha, h.relation_iff ha, h.equal_iff ha]
    cases place a <;> decide
  case greaterEqual_iff =>
    intro a ha
    rw [h.relation_iff ha, h.relation_iff ha, h.equal_iff ha]
    cases place a <;> decide
  case between_iff =>
    intro a b ha hb
    rw [h.between true ha hb, h.relation_iff ha, h.relation_iff hb]
    simp
  case notBetween_iff =>
    intro a b ha hb
    rw [h.between false ha hb, h.relation_iff ha, h.relation_iff hb]
    cases place a <;> cases place b <;> decide
  case among_iff =>
    intro ls hne hls
    rw [h.among true hne hls, Except.ok.injEq, beq_iff_eq, List.any_eq_true]
    exact exists_congr fun l => and_congr_right fun hl => (h.equal_iff (hls l hl) true).symm
  case notAmong_iff =>
    intro ls hne hls
    rw [h.among false hne hls, Except.ok.injEq, beq_iff_eq, List.any_eq_false]
    refine forall₂_congr fun l hl => ?_
    rw [h.equal_iff (hls l hl) false, Bool.not_eq_true]

end AnswerByPlace

/-- Compiling accepts a literal for an attribute. -/
def Entity.AcceptsLiteral (e : Entity) (ctx : Context) (name : String) (v : Value) : Prop :=
  ∃ compiled, Condition.compile ⟨none, name, .equal true, [v]⟩ e ctx = .ok compiled

namespace Condition

variable {ctx : Context} {name column : String} {declared : Option AttributeType} {o : Operator}
  {ls : List Value}

/-- An operator that compares has a test if all its literals can be read. -/
theorem exists_testOf_iff (ctx : Context) (ho : o.Compares ls) :
    (∃ test expected, testOf ctx name declared o ls = .ok (test, expected)) ↔
      ∀ l ∈ ls, ∃ k, Key.ofLiteral name declared l = .ok k := by
  cases ho with
  | equal | among =>
      rw [← exists_mapM_eq_ok_iff]
      constructor
      · rintro ⟨test, expected, h⟩
        obtain ⟨keys, hkeys, -⟩ := bind_eq_ok_iff.mp h
        exact ⟨keys, hkeys⟩
      · rintro ⟨keys, hkeys⟩
        exact ⟨_, _, bind_eq_ok_iff.mpr ⟨keys, hkeys, rfl⟩⟩
  | relation r a =>
      rw [List.forall_mem_singleton]
      constructor
      · rintro ⟨test, expected, h⟩
        obtain ⟨key, hkey, -⟩ := bind_eq_ok_iff.mp h
        exact ⟨key, hkey⟩
      · rintro ⟨key, hkey⟩
        exact ⟨_, _, bind_eq_ok_iff.mpr ⟨key, hkey, rfl⟩⟩
  | between inside a b =>
      rw [List.forall_mem_cons, List.forall_mem_singleton]
      constructor
      · rintro ⟨test, expected, h⟩
        obtain ⟨low, hlow, h⟩ := bind_eq_ok_iff.mp h
        obtain ⟨high, hhigh, -⟩ := bind_eq_ok_iff.mp h
        exact ⟨⟨low, hlow⟩, high, hhigh⟩
      · rintro ⟨⟨low, hlow⟩, high, hhigh⟩
        exact ⟨_, _, bind_eq_ok_iff.mpr ⟨low, hlow, bind_eq_ok_iff.mpr ⟨high, hhigh, rfl⟩⟩⟩

theorem accepts_of_compares (ho : o.Compares ls) : o.arity.accepts ls.length = true := by
  cases ho <;> rfl

variable {e : Entity} {t : AttributeType}

theorem exists_compileFor_iff (htype : e.typeOf? (lowercase name) = some t) (ho : o.Compares ls)
    (aliasName : Option String) :
    (∃ compiled, compileFor ⟨aliasName, name, o, ls⟩ column e ctx = .ok compiled) ↔
      ∀ l ∈ ls, ∃ k, Key.ofLiteral (lowercase name) (some t) l = .ok k := by
  rw [← exists_testOf_iff ctx ho]
  simp only [compileFor_eq_ok_iff, accepts_of_compares ho, htype, Option.isNone_some,
    Bool.false_and, true_and]
  constructor
  · rintro ⟨compiled, test, expected, htest, -⟩
    exact ⟨test, expected, htest⟩
  · rintro ⟨test, expected, htest⟩
    exact ⟨_, test, expected, htest, rfl⟩

theorem acceptsLiteral_iff (htype : e.typeOf? (lowercase name) = some t) {v : Value} :
    e.AcceptsLiteral ctx name v ↔ ∃ k, Key.ofLiteral (lowercase name) (some t) v = .ok k := by
  rw [Entity.AcceptsLiteral, compile, exists_compileFor_iff htype (.equal true v),
    List.forall_mem_singleton]

/-! ## Answers -/

section Answers

variable {ctx' : Context} {row : Record} {aliasName : Option String} {k : Key}
  (htype : e.typeOf? (lowercase name) = some t)
  (ht : t ≠ .multiSelect) (hkey : Key.ofColumn row column (some t) = .ok (some k))

include htype hkey

theorem answer_of_compares (ho : o.Compares ls) {test : Test} {expected : Bool}
    (htest : testOf ctx (lowercase name) (some t) o ls = .ok (test, expected)) :
    answer ⟨aliasName, name, o, ls⟩ column e ctx ctx' row =
      (test.holds ctx' column k).map (· == expected) :=
  answer_of_testOf (c := ⟨aliasName, name, o, ls⟩) htype (accepts_of_compares ho) htest hkey

include ht

theorem answer_relation {a : Value} (r : Relation) (ha : e.AcceptsLiteral ctx name a) :
    answer ⟨aliasName, name, .relation r, [a]⟩ column e ctx ctx' row =
      .ok (r.accepts (k.place ctx'.caseSensitive (lowercase name) t a)) := by
  obtain ⟨l, hl⟩ := (acceptsLiteral_iff htype).mp ha
  have htest : testOf ctx (lowercase name) (some t) (.relation r) [a] =
      .ok (.relation r l, true) := bind_eq_ok_iff.mpr ⟨l, hl, rfl⟩
  rw [answer_of_compares htype hkey (.relation r a) htest, Test.holds,
    Key.compare?_eq_place ht (Key.fits_of_ofColumn hkey) hl]
  simp

theorem answer_between {a b : Value} (inside : Bool) (ha : e.AcceptsLiteral ctx name a)
    (hb : e.AcceptsLiteral ctx name b) :
    answer ⟨aliasName, name, .between inside, [a, b]⟩ column e ctx ctx' row =
      .ok ((Relation.greaterEqual.accepts (k.place ctx'.caseSensitive (lowercase name) t a) &&
        Relation.lessEqual.accepts (k.place ctx'.caseSensitive (lowercase name) t b)) ==
          inside) := by
  have hfits := Key.fits_of_ofColumn hkey
  obtain ⟨low, hlow⟩ := (acceptsLiteral_iff htype).mp ha
  obtain ⟨high, hhigh⟩ := (acceptsLiteral_iff htype).mp hb
  have htest : testOf ctx (lowercase name) (some t) (.between inside) [a, b] =
      .ok (.between low high inside, true) :=
    bind_eq_ok_iff.mpr ⟨low, hlow, bind_eq_ok_iff.mpr ⟨high, hhigh, rfl⟩⟩
  rw [answer_of_compares htype hkey (.between inside a b) htest, Test.holds, Test.isBetween?,
    Key.compare?_eq_place ht hfits hlow, Key.compare?_eq_place ht hfits hhigh]
  simp [Relation.accepts, Bool.beq_eq_decide_eq]

/-- Equality with some literal, whatever operator asks for it. -/
theorem answer_equalsAny {holds : Bool} (hasks : o = .equal holds ∨ o = .among holds)
    (ho : o.Compares ls) (hls : ∀ l ∈ ls, e.AcceptsLiteral ctx name l) :
    answer ⟨aliasName, name, o, ls⟩ column e ctx ctx' row =
      .ok ((ls.any fun l => k.place ctx'.caseSensitive (lowercase name) t l = .eq) == holds) := by
  have hfits := Key.fits_of_ofColumn hkey
  obtain ⟨keys, hkeys⟩ :=
    exists_mapM_eq_ok_iff.mpr fun l hl => (acceptsLiteral_iff htype).mp (hls l hl)
  have htest : testOf ctx (lowercase name) (some t) o ls = .ok (.equalsAny keys, holds) := by
    rcases hasks with rfl | rfl <;> exact bind_eq_ok_iff.mpr ⟨keys, hkeys, rfl⟩
  have hany : keys.any (k.equal ctx'.caseSensitive) =
      ls.any fun l => k.place ctx'.caseSensitive (lowercase name) t l = .eq :=
    any_of_mapM hkeys fun v l hl => by
      simp only [Key.equal, Key.compare?_eq_place ht hfits hl, Option.some.injEq]
  rw [answer_of_compares htype hkey ho htest, Test.holds,
    Test.equalsAnyOf_eq_any (Key.kind_ne_codes ht hfits), hany]
  rfl

theorem answer_equal {a : Value} (holds : Bool) (ha : e.AcceptsLiteral ctx name a) :
    answer ⟨aliasName, name, .equal holds, [a]⟩ column e ctx ctx' row =
      .ok (decide (k.place ctx'.caseSensitive (lowercase name) t a = .eq) == holds) := by
  rw [answer_equalsAny htype ht hkey (.inl rfl) (.equal holds a) (List.forall_mem_singleton.mpr ha),
    List.any_cons, List.any_nil, Bool.or_false]

theorem answer_among (holds : Bool) (hne : ls ≠ [])
    (hls : ∀ l ∈ ls, e.AcceptsLiteral ctx name l) :
    answer ⟨aliasName, name, .among holds, ls⟩ column e ctx ctx' row =
      .ok ((ls.any fun l => k.place ctx'.caseSensitive (lowercase name) t l = .eq) == holds) := by
  obtain ⟨a, rest, rfl⟩ := List.exists_cons_of_ne_nil hne
  exact answer_equalsAny htype ht hkey (.inr rfl) (.among holds a rest) hls

end Answers

/-! ## One order -/

/-- **Relational operators form one order.**  For an attribute of any type but sets of codes, and a
value that fits the type, the operators compile for the same literals, and their answers follow from
where the value stands to each literal. -/
theorem form_one_order {ctx' : Context} {row : Record} {v : Value} {k : Key}
    (htype : e.typeOf? (lowercase name) = some t) (ht : t ≠ .multiSelect)
    (hrow : row.get? column = some v) (hvalue : Key.ofValue column v = .ok (some k))
    (hfits : k.fits t = true) (aliasName : Option String) :
    (∀ {o : Operator} {ls : List Value}, o.Compares ls →
      ((∃ compiled, compileFor ⟨aliasName, name, o, ls⟩ column e ctx = .ok compiled) ↔
        ∀ l ∈ ls, e.AcceptsLiteral ctx name l)) ∧
      FormOneOrder (e.AcceptsLiteral ctx name) fun o ls =>
        answer ⟨aliasName, name, o, ls⟩ column e ctx ctx' row := by
  have hkey : Key.ofColumn row column (some t) = .ok (some k) := by
    rw [Key.ofColumn, hrow]
    exact Key.ofStored_eq_some_iff.mpr ⟨hvalue, hfits⟩
  have hplaces : AnswerByPlace (e.AcceptsLiteral ctx name)
      (fun o ls => answer ⟨aliasName, name, o, ls⟩ column e ctx ctx' row)
      (k.place ctx'.caseSensitive (lowercase name) t) :=
    { relation := answer_relation htype ht hkey
      equal := answer_equal htype ht hkey
      between := answer_between htype ht hkey
      among := answer_among htype ht hkey }
  refine ⟨fun ho => ?_, hplaces.formOneOrder⟩
  simp only [exists_compileFor_iff htype ho, acceptsLiteral_iff htype]

end Condition

namespace Sample

/-- What an operator with literals says of the code of a contact. -/
def codeAnswer (o : Operator) (ls : List Value) : Except QueryError Bool :=
  Condition.answer ⟨none, "Code", o, ls⟩ "code" contact ctx ctx ada

/-- The code of a contact, written with two places, against a text with one. -/
theorem code_in_one_order :
    contact.typeOf? (lowercase "Code") = some .decimal ∧
      ada.get? "code" = some (.decimal ⟨150, 2⟩) ∧
      Key.ofValue "code" (.decimal ⟨150, 2⟩) = .ok (some (.number ⟨150, 2⟩)) ∧
      (Key.number ⟨150, 2⟩).fits .decimal = true ∧
      contact.AcceptsLiteral ctx "Code" (.text " 1.5") ∧
      FormOneOrder (contact.AcceptsLiteral ctx "Code") codeAnswer ∧
      codeAnswer (.equal true) [.text " 1.5"] = .ok true := by
  have htype : contact.typeOf? (lowercase "Code") = some .decimal := by decide +kernel
  have hrow : ada.get? "code" = some (.decimal ⟨150, 2⟩) := rfl
  have horder : FormOneOrder (contact.AcceptsLiteral ctx "Code") codeAnswer :=
    (Condition.form_one_order htype (by decide) hrow (k := .number ⟨150, 2⟩) rfl rfl none).2
  refine ⟨htype, hrow, rfl, rfl, ?_, horder, by decide +kernel⟩
  exact (Condition.acceptsLiteral_iff htype).mpr ⟨.number ⟨15, 1⟩, by decide +kernel⟩

end Sample

end RecordQuery
