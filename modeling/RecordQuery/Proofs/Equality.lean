import RecordQuery.Proofs.Number.Value
import RecordQuery.Value

/-!
# Equality of records

*Agreement.*  Two records agree when they hold the same in the same places, but that numbers need
only agree in a given way (`Record.agrees`).  Numbers of all sorts stand deep inside of values, so
agreement follows the recursion of values, and so do the facts about it.

*Laws.*  Values that agree are of one kind (`Value.sameKind_of_agrees`).  Agreement is transitive if
that of numbers is (`Record.agrees_trans`), and one agreement implies another if it does so for the
numbers that the records hold (`Record.agrees_imp`).

*Equality.*  Records are equal when they agree with their numbers equal by value
(`Record.equals`).
-/

namespace RecordQuery

/-! ## Agreement -/

section Agreement

variable (dec : Decimal → Decimal → Bool) (dbl : Double → Double → Bool)

mutual

/-- Two values are the same but for numbers, which agree. -/
def Value.agrees : Value → Value → Bool
  | .null, .null => true
  | .bool b, .bool c => b == c
  | .int m, .int n => m == n
  | .bigint m, .bigint n => m == n
  | .double d, .double e => dbl d e
  | .decimal d, .decimal e => dec d e
  | .text s, .text t => s == t
  | .instant i, .instant j => i == j
  | .recordId i, .recordId j => i == j
  | .bytes bs, .bytes cs => bs == cs
  | .reference r, .reference s => r.agrees s
  | .option c, .option d => c == d
  | .money d, .money e => dec d e
  | .options cs, .options ds => cs == ds
  | .records rs, .records ss => recordsAgree rs ss
  | .aliased c, .aliased d => c.agrees d
  | _, _ => false
termination_by structural v => v

/-- Two references are the same but for numbers, which agree. -/
def Reference.agrees : Reference → Reference → Bool
  | ⟨entity, id, name, keys⟩, ⟨entity', id', name', keys'⟩ =>
    entity == entity' && id == id' && name == name' && attributesAgree keys keys'
termination_by structural v => v

/-- Two records are the same but for numbers, which agree. -/
def Record.agrees : Record → Record → Bool
  | ⟨entity, id, attributes, formatted⟩, ⟨entity', id', attributes', formatted'⟩ =>
    entity == entity' && id == id' && attributesAgree attributes attributes' &&
      formatted == formatted'
termination_by structural v => v

/-- Two merged columns are the same but for numbers, which agree. -/
def MergedColumn.agrees : MergedColumn → MergedColumn → Bool
  | ⟨entity, name, value⟩, ⟨entity', name', value'⟩ =>
    entity == entity' && name == name' && value.agrees value'
termination_by structural v => v

/-- Records agree one by one. -/
def recordsAgree : List Record → List Record → Bool
  | [], [] => true
  | r :: rs, s :: ss => r.agrees s && recordsAgree rs ss
  | _, _ => false
termination_by structural v => v

/-- Attributes have the same names and agree one by one. -/
def attributesAgree : List (String × Value) → List (String × Value) → Bool
  | [], [] => true
  | (n, v) :: as, (m, w) :: bs => n == m && v.agrees w && attributesAgree as bs
  | _, _ => false
termination_by structural v => v

end

end Agreement

/-! ## Kinds -/

/-- Two values are of one kind. -/
inductive Value.SameKind : Value → Value → Prop where
  | null : SameKind .null .null
  | bool (b c : Bool) : SameKind (.bool b) (.bool c)
  | int (m n : Int32) : SameKind (.int m) (.int n)
  | bigint (m n : Int64) : SameKind (.bigint m) (.bigint n)
  | double (d e : Double) : SameKind (.double d) (.double e)
  | decimal (d e : Decimal) : SameKind (.decimal d) (.decimal e)
  | text (s t : String) : SameKind (.text s) (.text t)
  | instant (i j : Instant) : SameKind (.instant i) (.instant j)
  | recordId (i j : RecordId) : SameKind (.recordId i) (.recordId j)
  | bytes (bs cs : List UInt8) : SameKind (.bytes bs) (.bytes cs)
  | reference (r s : Reference) : SameKind (.reference r) (.reference s)
  | option (c d : Int32) : SameKind (.option c) (.option d)
  | money (d e : Decimal) : SameKind (.money d) (.money e)
  | options (cs ds : List Int32) : SameKind (.options cs) (.options ds)
  | records (rs ss : List Record) : SameKind (.records rs) (.records ss)
  | aliased (c d : MergedColumn) : SameKind (.aliased c) (.aliased d)

theorem Value.sameKind_of_kind_eq {v w : Value} (h : v.kind = w.kind) : v.SameKind w := by
  cases v <;> cases w <;> first | constructor | cases h

/-- Values of two kinds do not agree. -/
theorem Value.sameKind_of_agrees {dec : Decimal → Decimal → Bool} {dbl : Double → Double → Bool}
    {v w : Value} (h : v.agrees dec dbl w = true) : v.SameKind w := by
  cases v <;> cases w <;> first | constructor | exact absurd h Bool.false_ne_true

/-! ## Transitivity -/

section Transitivity

variable {dec : Decimal → Decimal → Bool} {dbl : Double → Double → Bool}

/-- Agreement of numbers is transitive. -/
structure NumbersTransitive (dec : Decimal → Decimal → Bool) (dbl : Double → Double → Bool) :
    Prop where
  decimals : ∀ {d e f}, dec d e = true → dec e f = true → dec d f = true
  doubles : ∀ {d e f}, dbl d e = true → dbl e f = true → dbl d f = true

mutual

theorem Value.agrees_trans (hn : NumbersTransitive dec dbl) : ∀ {u v w : Value},
    u.agrees dec dbl v = true → v.agrees dec dbl w = true → u.agrees dec dbl w = true
  | .null, _, _, h, h' => by
      cases Value.sameKind_of_agrees h
      exact h'
  | .bool _, _, _, h, h' | .int _, _, _, h, h' | .bigint _, _, _, h, h' | .text _, _, _, h, h'
  | .instant _, _, _, h, h' | .recordId _, _, _, h, h' | .bytes _, _, _, h, h'
  | .option _, _, _, h, h' | .options _, _, _, h, h' => by
      cases Value.sameKind_of_agrees h
      cases Value.sameKind_of_agrees h'
      exact BEq.trans h h'
  | .double _, _, _, h, h' => by
      cases Value.sameKind_of_agrees h
      cases Value.sameKind_of_agrees h'
      exact hn.doubles h h'
  | .decimal _, _, _, h, h' | .money _, _, _, h, h' => by
      cases Value.sameKind_of_agrees h
      cases Value.sameKind_of_agrees h'
      exact hn.decimals h h'
  | .reference _, _, _, h, h' => by
      cases Value.sameKind_of_agrees h
      cases Value.sameKind_of_agrees h'
      exact Reference.agrees_trans hn h h'
  | .records _, _, _, h, h' => by
      cases Value.sameKind_of_agrees h
      cases Value.sameKind_of_agrees h'
      exact recordsAgree_trans hn h h'
  | .aliased _, _, _, h, h' => by
      cases Value.sameKind_of_agrees h
      cases Value.sameKind_of_agrees h'
      exact MergedColumn.agrees_trans hn h h'

theorem Reference.agrees_trans (hn : NumbersTransitive dec dbl) : ∀ {r s t : Reference},
    r.agrees dec dbl s = true → s.agrees dec dbl t = true → r.agrees dec dbl t = true
  | ⟨_, _, _, _⟩, ⟨_, _, _, _⟩, ⟨_, _, _, _⟩, h, h' => by
      simp only [Reference.agrees, Bool.and_eq_true, beq_iff_eq] at h h' ⊢
      obtain ⟨⟨⟨rfl, rfl⟩, rfl⟩, hkeys⟩ := h
      exact ⟨h'.1, attributesAgree_trans hn hkeys h'.2⟩

theorem Record.agrees_trans (hn : NumbersTransitive dec dbl) : ∀ {r s t : Record},
    r.agrees dec dbl s = true → s.agrees dec dbl t = true → r.agrees dec dbl t = true
  | ⟨_, _, _, _⟩, ⟨_, _, _, _⟩, ⟨_, _, _, _⟩, h, h' => by
      simp only [Record.agrees, Bool.and_eq_true, beq_iff_eq] at h h' ⊢
      obtain ⟨⟨⟨rfl, rfl⟩, hattributes⟩, rfl⟩ := h
      exact ⟨⟨h'.1.1, attributesAgree_trans hn hattributes h'.1.2⟩, h'.2⟩

theorem MergedColumn.agrees_trans (hn : NumbersTransitive dec dbl) : ∀ {b c d : MergedColumn},
    b.agrees dec dbl c = true → c.agrees dec dbl d = true → b.agrees dec dbl d = true
  | ⟨_, _, _⟩, ⟨_, _, _⟩, ⟨_, _, _⟩, h, h' => by
      simp only [MergedColumn.agrees, Bool.and_eq_true, beq_iff_eq] at h h' ⊢
      obtain ⟨⟨rfl, rfl⟩, hvalue⟩ := h
      exact ⟨h'.1, Value.agrees_trans hn hvalue h'.2⟩

theorem recordsAgree_trans (hn : NumbersTransitive dec dbl) : ∀ {rs ss ts : List Record},
    recordsAgree dec dbl rs ss = true → recordsAgree dec dbl ss ts = true →
      recordsAgree dec dbl rs ts = true
  | [], [], _, _, h' => h'
  | [], _ :: _, _, h, _ => nomatch h
  | _ :: _, [], _, h, _ => nomatch h
  | _ :: _, _ :: _, [], _, h' => nomatch h'
  | _ :: _, _ :: _, _ :: _, h, h' => by
      rw [recordsAgree, Bool.and_eq_true] at h h' ⊢
      exact ⟨Record.agrees_trans hn h.1 h'.1, recordsAgree_trans hn h.2 h'.2⟩

theorem attributesAgree_trans (hn : NumbersTransitive dec dbl) :
    ∀ {as bs cs : List (String × Value)}, attributesAgree dec dbl as bs = true →
      attributesAgree dec dbl bs cs = true → attributesAgree dec dbl as cs = true
  | [], [], _, _, h' => h'
  | [], _ :: _, _, h, _ => nomatch h
  | _ :: _, [], _, h, _ => nomatch h
  | _ :: _, _ :: _, [], _, h' => nomatch h'
  | (_, _) :: _, (_, _) :: _, (_, _) :: _, h, h' => by
      simp only [attributesAgree, Bool.and_eq_true, beq_iff_eq] at h h' ⊢
      obtain ⟨⟨rfl, hvalue⟩, hrest⟩ := h
      exact ⟨⟨h'.1.1, Value.agrees_trans hn hvalue h'.1.2⟩, attributesAgree_trans hn hrest h'.2⟩

end

end Transitivity

/-! ## Numbers -/

section Numbers

variable (P : Decimal → Prop) (Q : Double → Prop)

mutual

/-- All numbers of a value have a property. -/
def Value.HasNumbers : Value → Prop
  | .decimal d | .money d => P d
  | .double d => Q d
  | .reference r => r.HasNumbers
  | .records rs => recordsHaveNumbers rs
  | .aliased c => c.HasNumbers
  | .null | .bool _ | .int _ | .bigint _ | .text _ | .instant _ | .recordId _ | .bytes _
  | .option _ | .options _ => True

/-- All numbers of a reference have a property. -/
def Reference.HasNumbers : Reference → Prop
  | ⟨_, _, _, keys⟩ => attributesHaveNumbers keys

/-- All numbers of a record have a property. -/
def Record.HasNumbers : Record → Prop
  | ⟨_, _, attributes, _⟩ => attributesHaveNumbers attributes

/-- All numbers of a merged column have a property. -/
def MergedColumn.HasNumbers : MergedColumn → Prop
  | ⟨_, _, value⟩ => value.HasNumbers

/-- All numbers of records have a property. -/
def recordsHaveNumbers : List Record → Prop
  | [] => True
  | r :: rs => r.HasNumbers ∧ recordsHaveNumbers rs

/-- All numbers of attributes have a property. -/
def attributesHaveNumbers : List (String × Value) → Prop
  | [] => True
  | (_, v) :: as => v.HasNumbers ∧ attributesHaveNumbers as

end

end Numbers

/-- Numbers of these properties that agree in one way agree in another. -/
structure NumbersAgree (P : Decimal → Prop) (Q : Double → Prop)
    (dec dec' : Decimal → Decimal → Bool) (dbl dbl' : Double → Double → Bool) : Prop where
  decimals : ∀ d e, P d → P e → dec d e = true → dec' d e = true
  doubles : ∀ d e, Q d → Q e → dbl d e = true → dbl' d e = true

section Agreement

variable {P : Decimal → Prop} {Q : Double → Prop} {dec dec' : Decimal → Decimal → Bool}
  {dbl dbl' : Double → Double → Bool}

mutual

/-- Values whose numbers agree in one way agree in another if their numbers do. -/
theorem Value.agrees_imp (hn : NumbersAgree P Q dec dec' dbl dbl') : ∀ {v w : Value},
    v.HasNumbers P Q → w.HasNumbers P Q → v.agrees dec dbl w = true → v.agrees dec' dbl' w = true
  | .null, _, _, _, h | .bool _, _, _, _, h | .int _, _, _, _, h | .bigint _, _, _, _, h
  | .text _, _, _, _, h | .instant _, _, _, _, h | .recordId _, _, _, _, h
  | .bytes _, _, _, _, h | .option _, _, _, _, h | .options _, _, _, _, h => by
      cases Value.sameKind_of_agrees h
      exact h
  | .double _, _, hv, hw, h => by
      cases Value.sameKind_of_agrees h with
      | double => exact hn.doubles _ _ hv hw h
  | .decimal _, _, hv, hw, h => by
      cases Value.sameKind_of_agrees h with
      | decimal => exact hn.decimals _ _ hv hw h
  | .money _, _, hv, hw, h => by
      cases Value.sameKind_of_agrees h with
      | money => exact hn.decimals _ _ hv hw h
  | .reference _, _, hv, hw, h => by
      cases Value.sameKind_of_agrees h with
      | reference => exact Reference.agrees_imp hn hv hw h
  | .records _, _, hv, hw, h => by
      cases Value.sameKind_of_agrees h with
      | records => exact recordsAgree_imp hn hv hw h
  | .aliased _, _, hv, hw, h => by
      cases Value.sameKind_of_agrees h with
      | aliased => exact MergedColumn.agrees_imp hn hv hw h

theorem Reference.agrees_imp (hn : NumbersAgree P Q dec dec' dbl dbl') : ∀ {r s : Reference},
    r.HasNumbers P Q → s.HasNumbers P Q → r.agrees dec dbl s = true → r.agrees dec' dbl' s = true
  | ⟨_, _, _, _⟩, ⟨_, _, _, _⟩, hr, hs, h => by
      rw [Reference.agrees, Bool.and_eq_true] at h ⊢
      exact ⟨h.1, attributesAgree_imp hn hr hs h.2⟩

theorem Record.agrees_imp (hn : NumbersAgree P Q dec dec' dbl dbl') : ∀ {r s : Record},
    r.HasNumbers P Q → s.HasNumbers P Q → r.agrees dec dbl s = true → r.agrees dec' dbl' s = true
  | ⟨_, _, _, _⟩, ⟨_, _, _, _⟩, hr, hs, h => by
      rw [Record.agrees, Bool.and_eq_true, Bool.and_eq_true] at h ⊢
      exact ⟨⟨h.1.1, attributesAgree_imp hn hr hs h.1.2⟩, h.2⟩

theorem MergedColumn.agrees_imp (hn : NumbersAgree P Q dec dec' dbl dbl') :
    ∀ {c d : MergedColumn}, c.HasNumbers P Q → d.HasNumbers P Q → c.agrees dec dbl d = true →
      c.agrees dec' dbl' d = true
  | ⟨_, _, _⟩, ⟨_, _, _⟩, hc, hd, h => by
      rw [MergedColumn.agrees, Bool.and_eq_true] at h ⊢
      exact ⟨h.1, Value.agrees_imp hn hc hd h.2⟩

theorem recordsAgree_imp (hn : NumbersAgree P Q dec dec' dbl dbl') : ∀ {rs ss : List Record},
    recordsHaveNumbers P Q rs → recordsHaveNumbers P Q ss → recordsAgree dec dbl rs ss = true →
      recordsAgree dec' dbl' rs ss = true
  | [], [], _, _, _ => rfl
  | [], _ :: _, _, _, h => nomatch h
  | _ :: _, [], _, _, h => nomatch h
  | _ :: _, _ :: _, hr, hs, h => by
      rw [recordsAgree, Bool.and_eq_true] at h ⊢
      exact ⟨Record.agrees_imp hn hr.1 hs.1 h.1, recordsAgree_imp hn hr.2 hs.2 h.2⟩

theorem attributesAgree_imp (hn : NumbersAgree P Q dec dec' dbl dbl') :
    ∀ {as bs : List (String × Value)}, attributesHaveNumbers P Q as → attributesHaveNumbers P Q bs →
      attributesAgree dec dbl as bs = true → attributesAgree dec' dbl' as bs = true
  | [], [], _, _, _ => rfl
  | [], _ :: _, _, _, h => nomatch h
  | _ :: _, [], _, _, h => nomatch h
  | (_, _) :: _, (_, _) :: _, hv, hw, h => by
      rw [attributesAgree, Bool.and_eq_true, Bool.and_eq_true] at h ⊢
      exact ⟨⟨h.1.1, Value.agrees_imp hn hv.1 hw.1 h.1.2⟩, attributesAgree_imp hn hv.2 hw.2 h.2⟩

end

end Agreement

/-! ## Equal records -/

/-- Two records are equal: decimals by value, doubles by value, all else as it is. -/
def Record.equals (a b : Record) : Bool :=
  a.agrees (fun d e => compare d e == .eq) Double.sameValue b

theorem Double.sameValue_trans {d e f : Double} (h : d.sameValue e = true)
    (h' : e.sameValue f = true) : d.sameValue f = true := by
  simp only [sameValue, Bool.and_eq_true, Bool.or_eq_true, beq_iff_eq] at h h' ⊢
  obtain ⟨⟨hd, -⟩, hde⟩ := h
  obtain ⟨⟨-, hf⟩, hef⟩ := h'
  refine ⟨⟨hd, hf⟩, ?_⟩
  rcases hde with rfl | ⟨hdzero, hezero⟩
  · exact hef
  · rcases hef with rfl | ⟨-, hfzero⟩
    · exact .inr ⟨hdzero, hezero⟩
    · exact .inr ⟨hdzero, hfzero⟩

theorem numbersTransitive_of_value :
    NumbersTransitive (fun d e => compare d e == .eq) Double.sameValue where
  decimals {d e f} h h' := by
    rw [beq_iff_eq, Decimal.compare_eq, compare_eq_iff_eq] at h h' ⊢
    exact h.trans h'
  doubles := Double.sameValue_trans

theorem Record.equals_trans {a b c : Record} (h : a.equals b = true) (h' : b.equals c = true) :
    a.equals c = true :=
  agrees_trans numbersTransitive_of_value h h'

end RecordQuery
