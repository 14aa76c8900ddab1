import RecordQuery.Proofs.Query.Compiled
import RecordQuery.Proofs.Query.Evaluation
import RecordQuery.Proofs.Query.KeyOrder

/-!
# Stored values as literals

A value is lowered to a key in two ways: as a stored value, which must then fit the declared type,
and as a literal, which is read as the declared type.  Literals are read more freely, but where a
stored value fits both ways lead to one key (`Key.ofTypedLiteral_of_ofStored`).  So a record passes
the condition that an attribute equals the value that it has (`CompiledCondition.evaluate_eq_own`).

*Sets of codes.*  A key holds a set of codes as the ascending list of its distinct codes, and such a
list is one form of its set (`distinctCodes_of_ascending`).
-/

namespace RecordQuery

open Text

/-! ## Sets of codes -/

theorem mem_insertCode {c d : Int32} {cs : List Int32} : d ∈ insertCode c cs ↔ d = c ∨ d ∈ cs := by
  induction cs with
  | nil => simp [insertCode]
  | cons first cs ih =>
      rw [insertCode]
      split
      next hbefore => exact List.mem_cons
      next hbehind =>
        split
        next hsame =>
          subst hsame
          simp
        next hother => rw [List.mem_cons, ih, List.mem_cons, or_left_comm]

theorem ascending_insertCode {c : Int32} {cs : List Int32} (h : cs.Pairwise (· < ·)) :
    (insertCode c cs).Pairwise (· < ·) := by
  induction cs with
  | nil => exact List.pairwise_singleton ..
  | cons first cs ih =>
      obtain ⟨hfirst, hrest⟩ := List.pairwise_cons.mp h
      rw [insertCode]
      split
      next hbefore =>
        refine .cons (fun d hd => ?_) h
        rcases List.mem_cons.mp hd with rfl | hd
        · exact hbefore
        · exact Int32.lt_trans hbefore (hfirst d hd)
      next hbehind =>
        split
        next hsame => exact h
        next hother =>
          have hlt : first < c := Std.lt_of_le_of_ne (Std.not_lt.mp hbehind) (Ne.symm hother)
          refine .cons (fun d hd => ?_) (ih hrest)
          rcases mem_insertCode.mp hd with rfl | hd
          · exact hlt
          · exact hfirst d hd

theorem ascending_distinctCodes (cs : List Int32) : (distinctCodes cs).Pairwise (· < ·) := by
  induction cs with
  | nil => exact .nil
  | cons c cs ih => exact ascending_insertCode ih

theorem distinctCodes_of_ascending {cs : List Int32} (h : cs.Pairwise (· < ·)) :
    distinctCodes cs = cs := by
  induction cs with
  | nil => rfl
  | cons c cs ih =>
      obtain ⟨hfirst, hrest⟩ := List.pairwise_cons.mp h
      change insertCode c (distinctCodes cs) = c :: cs
      rw [ih hrest]
      cases cs with
      | nil => rfl
      | cons d cs => rw [insertCode, if_pos (hfirst d (.head _))]

/-! ## Two ways to a key -/

namespace Key

variable {name : String} {t : AttributeType} {v : Value} {k : Key}

theorem orRefuse_eq_ok_iff {x : Option α} {a : α} : orRefuse name v x = .ok a ↔ x = some a := by
  cases x with
  | none => simp [orRefuse, refuse]
  | some b => simp [orRefuse]

theorem ofStored_eq_some_iff : ofStored name (some t) v = .ok (some k) ↔
    ofValue name v = .ok (some k) ∧ k.fits t = true := by
  constructor
  · intro h
    refine ⟨?_, fits_of_ofStored h⟩
    obtain ⟨key, hkey, h⟩ := bind_eq_ok_iff.mp h
    cases key with
    | none => cases h
    | some k' =>
        simp only at h
        split at h
        next hfits =>
          cases h
          exact hkey
        next hother => cases h
  · rintro ⟨hvalue, hfits⟩
    simp only [ofStored, hvalue, ok_bind, hfits, if_true, pure_eq_ok]

/-- **A stored value that fits is read alike as a literal.** -/
theorem ofTypedLiteral_of_ofStored (h : ofStored name (some t) v = .ok (some k)) :
    ofTypedLiteral name t v.unaliased = .ok k := by
  obtain ⟨hvalue, hfits⟩ := ofStored_eq_some_iff.mp h
  unfold ofValue at hvalue
  -- the kind of the value gives the kind of the key, and this the types that it may have
  cases hplain : v.unaliased with
  | double d =>
      rw [hplain] at hvalue
      obtain ⟨x, hx, hkey⟩ := map_eq_ok_iff.mp hvalue
      cases hkey
      cases t <;> cases hfits <;> simp [ofTypedLiteral, numberLiteral, hx]
  | _ =>
      rw [hplain] at hvalue
      cases hvalue <;> cases t <;> cases hfits <;> rfl

/-- Sets of codes stand in their one form. -/
def Settled : Key → Prop
  | .codes cs => cs.Pairwise (· < ·)
  | _ => True

theorem settled_of_ofValue (h : ofValue name v = .ok (some k)) : k.Settled := by
  unfold ofValue at h
  cases hplain : v.unaliased with
  | double d =>
      rw [hplain] at h
      obtain ⟨x, hx, hkey⟩ := map_eq_ok_iff.mp h
      cases hkey
      trivial
  | options cs =>
      rw [hplain] at h
      cases h
      exact ascending_distinctCodes cs
  | _ =>
      rw [hplain] at h
      cases h <;> trivial

theorem equal_self (caseSensitive : Bool) (k : Key) : equal caseSensitive k k = true := by
  refine decide_eq_true ?_
  cases k <;> exact congrArg some Std.ReflOrd.compare_self

end Key

/-- A key equals itself as the only literal. -/
theorem Test.equalsAnyOf_self (caseSensitive : Bool) {k : Key} (hk : k.Settled) :
    equalsAnyOf caseSensitive [k] k = true := by
  cases k with
  | codes cs =>
      have hself : literalCodes [.codes cs] = cs := by
        simp only [literalCodes, List.flatMap_singleton, distinctCodes_of_ascending hk]
      exact decide_eq_true hself.symm
  | _ => simp [equalsAnyOf, Key.equal_self]

/-! ## Conditions on own values -/

/-- A record passes the condition that an attribute equals the value that it has, if the value fits
the declared type. -/
theorem CompiledCondition.evaluate_eq_own {c : Condition} {v : Value}
    (hoperator : c.operator = .equal true) (hvalues : c.values = [v]) {e : Entity} {ctx : Context}
    {compiled : CompiledCondition} (hc : c.compile e ctx = .ok compiled) {t : AttributeType}
    (ht : e.typeOf? (lowercase c.name) = some t) {k : Key}
    (hk : Key.ofStored (lowercase c.name) (some t) v = .ok (some k)) {row : Record}
    (hrow : row.get? (lowercase c.name) = some v) (ctx' : Context) :
    compiled.evaluate ctx' row = .ok true := by
  obtain ⟨-, -, test, expected, htest, rfl⟩ := Condition.compileFor_eq_ok_iff.mp hc
  rw [hoperator, hvalues, ht] at htest
  obtain ⟨literals, hliterals, heq⟩ := bind_eq_ok_iff.mp htest
  cases heq
  obtain ⟨literal, rest, hliteral, hrest, rfl⟩ := mapM_cons_eq_ok_iff.mp hliterals
  have hnone : rest = [] := (Except.ok.inj hrest).symm
  subst hnone
  have hsame : literal = k := by
    have hread := Key.ofTypedLiteral_of_ofStored hk
    exact Except.ok.inj (hliteral.symm.trans hread)
  subst hsame
  have hsettled := Key.settled_of_ofValue (Key.ofStored_eq_some_iff.mp hk).1
  have hkey : Key.ofColumn row (lowercase c.name) (some t) = .ok (some literal) := by
    rw [Key.ofColumn, hrow]
    exact hk
  simp only [evaluate, keyOf, ht, hkey, ok_bind, Test.holds, Test.equalsAnyOf_self _ hsettled,
    pure_eq_ok]
  rfl

end RecordQuery
