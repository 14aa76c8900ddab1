/-!
# Computations that may fail

A computation gives a value or a failure.  The failure of a part is the failure of the whole, so a
value of the whole says that every part gave one: `bind_eq_ok_iff` and `mapM_cons_eq_ok_iff` take
a successful computation apart.

*Guards.*  A step that refuses, or that is checked under a condition, stands before the rest
(`refuse_eq_ok_iff`, `check_eq_ok_iff`).

*Agreement.*  Two computations may differ in why they fail and agree otherwise (`SameValue`).

*Kinds.*  A computation whose parts fail only in certain ways fails only in these (`FailsOnly`).  The
values that it gives are of the kind that its last part gives (`YieldsOnly`).

*Keeping.*  A filter whose test may fail tests all elements first and then keeps some of them.
When no test fails that is an ordinary filter (`kept_eq_filter`, `kept_of_test`).
-/

namespace RecordQuery

/-! ## Sequences -/

@[simp] theorem ok_bind (a : α) (f : α → Except ε β) : (Except.ok a >>= f) = f a := rfl

@[simp] theorem error_bind (e : ε) (f : α → Except ε β) :
    (Except.error e >>= f) = .error e := rfl

@[simp] theorem throw_bind (e : ε) (f : α → Except ε β) :
    ((throw e : Except ε α) >>= f) = .error e := rfl

@[simp] theorem pure_eq_ok (a : α) : (pure a : Except ε α) = .ok a := rfl

@[simp] theorem ok_map (f : α → β) (a : α) : (Except.ok a : Except ε α).map f = .ok (f a) := rfl

@[simp] theorem ok_mapError (f : ε → δ) (a : α) :
    (Except.ok a : Except ε α).mapError f = .ok a := rfl

@[simp] theorem error_mapError (f : ε → δ) (e : ε) :
    (Except.error e : Except ε α).mapError f = .error (f e) := rfl

theorem bind_eq_ok_iff {x : Except ε α} {f : α → Except ε β} {b : β} :
    x >>= f = .ok b ↔ ∃ a, x = .ok a ∧ f a = .ok b := by
  cases x with
  | error e => simp
  | ok a => simp

/-- Of two computations with the same first step the second gives a value where the first does, if
what stands behind the step does. -/
theorem bind_imp_bind {x : Except ε α} {f : α → Except ε β} {g : α → Except ε γ} {b : β} {c : γ}
    (hrest : ∀ a, f a = .ok b → g a = .ok c) (h : x >>= f = .ok b) : x >>= g = .ok c := by
  obtain ⟨a, ha, hb⟩ := bind_eq_ok_iff.mp h
  exact bind_eq_ok_iff.mpr ⟨a, ha, hrest a hb⟩

theorem map_eq_ok_iff {x : Except ε α} {f : α → β} {b : β} :
    x.map f = .ok b ↔ ∃ a, x = .ok a ∧ f a = b := by
  cases x with
  | error e => simp [Except.map]
  | ok a => simp

theorem mapError_eq_ok_iff {x : Except ε α} {f : ε → δ} {a : α} :
    x.mapError f = .ok a ↔ x = .ok a := by
  cases x with
  | error e => simp
  | ok b => simp

theorem exists_eq_ok_of_isOk {x : Except ε α} (h : x.isOk = true) : ∃ a, x = .ok a := by
  cases x with
  | error e => cases h
  | ok a => exact ⟨a, rfl⟩

/-- A value of which something is known. -/
theorem exists_eq_ok_of_map {x : Except ε α} {f : α → β} {b : β}
    (h : x.toOption.map f = some b) : ∃ a, x = .ok a ∧ f a = b := by
  cases x with
  | error e => cases h
  | ok a => exact ⟨a, rfl, Option.some.inj h⟩

theorem exists_eq_error_iff {x : Except ε α} : (∃ e, x = .error e) ↔ ¬ ∃ a, x = .ok a := by
  cases x <;> simp

/-! ## Guards -/

/-- A guard that refuses lets a value through only where its condition fails. -/
theorem refuse_eq_ok_iff {c : Prop} [Decidable c] {e : ε} {x : Except ε β} {b : β} :
    (if c then .error e else x) = .ok b ↔ ¬ c ∧ x = .ok b := by
  by_cases hc : c
  · simp [hc]
  · simp [hc]

/-- A check that is made under a condition must pass where the condition holds. -/
theorem check_eq_ok_iff {c : Prop} [Decidable c] {check : Except ε Unit} {x : Except ε β}
    {b : β} :
    (if c then check >>= fun _ => x else x) = .ok b ↔ (c → check = .ok ()) ∧ x = .ok b := by
  by_cases hc : c
  · cases check with
    | error e => simp [hc]
    | ok u => simp [hc]
  · simp [hc]

/-! ## Agreement -/

/-- Two computations give the same value, or both fail, for whatever reasons. -/
def SameValue (x : Except ε α) (y : Except δ α) : Prop := x.toOption = y.toOption

namespace SameValue

theorem refl (x : Except ε α) : SameValue x x := rfl

theorem bind {x : Except ε α} {y : Except δ α} {f : α → Except ε β} {g : α → Except δ β}
    (h : SameValue x y) (hrest : ∀ a, SameValue (f a) (g a)) :
    SameValue (x >>= f) (y >>= g) := by
  cases x with
  | error e =>
      cases y with
      | error d => rfl
      | ok b => cases h
  | ok a =>
      cases y with
      | error d => cases h
      | ok b =>
          cases h
          exact hrest a

end SameValue

/-! ## Lists -/

theorem mapM_cons_eq_ok_iff {f : α → Except ε β} {a : α} {l : List α} {bs : List β} :
    (a :: l).mapM f = .ok bs ↔
      ∃ b bs', f a = .ok b ∧ l.mapM f = .ok bs' ∧ bs = b :: bs' := by
  rw [List.mapM_cons]
  simp only [bind_eq_ok_iff, pure_eq_ok, Except.ok.injEq]
  constructor
  · rintro ⟨b, hb, bs', hbs, rfl⟩
    exact ⟨b, bs', hb, hbs, rfl⟩
  · rintro ⟨b, bs', hb, hbs, rfl⟩
    exact ⟨b, hb, bs', hbs, rfl⟩

/-- Where no element fails the whole list is mapped. -/
theorem mapM_eq_ok_map {f : α → Except ε β} {g : α → β} {l : List α}
    (h : ∀ a ∈ l, f a = .ok (g a)) : l.mapM f = .ok (l.map g) := by
  induction l with
  | nil => rfl
  | cons a l ih =>
      obtain ⟨hfirst, hrest⟩ := List.forall_mem_cons.mp h
      rw [List.mapM_cons, hfirst, ih hrest]
      rfl

/-- A list is mapped exactly when no element fails. -/
theorem exists_mapM_eq_ok_iff {f : α → Except ε β} {l : List α} :
    (∃ bs, l.mapM f = .ok bs) ↔ ∀ a ∈ l, ∃ b, f a = .ok b := by
  induction l with
  | nil => simp
  | cons a l ih =>
      rw [List.forall_mem_cons, ← ih]
      constructor
      · rintro ⟨bs, h⟩
        obtain ⟨b, bs', hb, hbs, -⟩ := mapM_cons_eq_ok_iff.mp h
        exact ⟨⟨b, hb⟩, bs', hbs⟩
      · rintro ⟨⟨b, hb⟩, bs', hbs⟩
        exact ⟨b :: bs', mapM_cons_eq_ok_iff.mpr ⟨b, bs', hb, hbs, rfl⟩⟩

theorem mem_of_mapM {f : α → Except ε β} {b : β} {l : List α} {bs : List β}
    (h : l.mapM f = .ok bs) (hb : b ∈ bs) : ∃ a ∈ l, f a = .ok b := by
  induction l generalizing bs with
  | nil =>
      cases h
      cases hb
  | cons a l ih =>
      obtain ⟨b', bs', hfirst, hrest, rfl⟩ := mapM_cons_eq_ok_iff.mp h
      rcases List.mem_cons.mp hb with rfl | hb
      · exact ⟨a, .head _, hfirst⟩
      · obtain ⟨a', ha', hlater⟩ := ih hrest hb
        exact ⟨a', .tail _ ha', hlater⟩

theorem mem_mapM_iff {f : α → Except ε β} {b : β} {l : List α} {bs : List β}
    (h : l.mapM f = .ok bs) : b ∈ bs ↔ ∃ a ∈ l, f a = .ok b := by
  refine ⟨mem_of_mapM h, ?_⟩
  rintro ⟨a, ha, hb⟩
  induction l generalizing bs with
  | nil => cases ha
  | cons first l ih =>
      obtain ⟨c, cs, hc, hcs, rfl⟩ := mapM_cons_eq_ok_iff.mp h
      rcases List.mem_cons.mp ha with rfl | ha
      · cases Except.ok.inj (hc.symm.trans hb)
        exact .head _
      · exact .tail _ (ih hcs ha)

/-- A map whose values give back what they were made of. -/
theorem map_of_mapM {f : α → Except ε β} {back : β → α} {l : List α} {bs : List β}
    (h : l.mapM f = .ok bs) (hback : ∀ a b, f a = .ok b → back b = a) : bs.map back = l := by
  induction l generalizing bs with
  | nil =>
      cases h
      rfl
  | cons a l ih =>
      obtain ⟨b, bs', hb, hbs, rfl⟩ := mapM_cons_eq_ok_iff.mp h
      rw [List.map_cons, hback a b hb, ih hbs]

/-- Some value passes a test that is known of what the values are made of. -/
theorem any_of_mapM {f : α → Except ε β} {p : β → Bool} {q : α → Bool} {l : List α} {bs : List β}
    (h : l.mapM f = .ok bs) (hsame : ∀ a b, f a = .ok b → p b = q a) : bs.any p = l.any q := by
  induction l generalizing bs with
  | nil =>
      cases h
      rfl
  | cons a l ih =>
      obtain ⟨b, bs', hb, hbs, rfl⟩ := mapM_cons_eq_ok_iff.mp h
      rw [List.any_cons, List.any_cons, hsame a b hb, ih hbs]

theorem isEmpty_of_mapM {f : α → Except ε β} {l : List α} {bs : List β}
    (h : l.mapM f = .ok bs) : bs.isEmpty = l.isEmpty := by
  cases l with
  | nil =>
      cases h
      rfl
  | cons a l =>
      obtain ⟨b, bs', -, -, rfl⟩ := mapM_cons_eq_ok_iff.mp h
      rfl

/-- Two maps that agree where both give a value give one list, if both give one. -/
theorem mapM_eq_of_ok {f : α → Except ε β} {g : α → Except δ β} {l : List α} {bs cs : List β}
    (hf : l.mapM f = .ok bs) (hg : l.mapM g = .ok cs)
    (h : ∀ a ∈ l, ∀ b c, f a = .ok b → g a = .ok c → b = c) : bs = cs := by
  induction l generalizing bs cs with
  | nil =>
      cases hf
      cases hg
      rfl
  | cons a l ih =>
      obtain ⟨hfirst, hrest⟩ := List.forall_mem_cons.mp h
      obtain ⟨b, bs', hb, hbs, rfl⟩ := mapM_cons_eq_ok_iff.mp hf
      obtain ⟨c, cs', hc, hcs, rfl⟩ := mapM_cons_eq_ok_iff.mp hg
      rw [hfirst b c hb hc, ih hbs hcs hrest]

/-- A map whose values are known where it gives them. -/
theorem eq_map_of_mapM {f : α → Except ε β} {g : α → β} {l : List α} {bs : List β}
    (h : l.mapM f = .ok bs) (hvalues : ∀ a ∈ l, ∀ b, f a = .ok b → b = g a) : bs = l.map g :=
  mapM_eq_of_ok h (mapM_eq_ok_map (f := fun a => (.ok (g a) : Except ε β)) fun _ _ => rfl)
    fun a ha b _ hb hc => (hvalues a ha b hb).trans (Except.ok.inj hc)

/-! ## Kinds of failures -/

/-- Where the computation fails, its failure is of a kind. -/
def FailsOnly (P : ε → Prop) (x : Except ε α) : Prop := ∀ e, x = .error e → P e

namespace FailsOnly

variable {P : ε → Prop} {x : Except ε α} {f : α → Except ε β}

theorem ok (a : α) : FailsOnly P (.ok a : Except ε α) := fun _ h => nomatch h

theorem error {e : ε} (he : P e) : FailsOnly P (.error e : Except ε α) := by
  rintro _ ⟨⟩
  exact he

theorem bind (hx : FailsOnly P x) (hf : ∀ a, FailsOnly P (f a)) : FailsOnly P (x >>= f) := by
  cases x with
  | error e => exact error (hx e rfl)
  | ok a => exact hf a

theorem map (hx : FailsOnly P x) (g : α → β) : FailsOnly P (x.map g) := by
  cases x with
  | error e => exact error (hx e rfl)
  | ok a => exact ok (g a)

theorem ite {c : Prop} [Decidable c] {y : Except ε α} (hx : FailsOnly P x)
    (hy : FailsOnly P y) : FailsOnly P (if c then x else y) := by
  split
  · exact hx
  · exact hy

/-- A check that is made under a condition stands before the rest. -/
theorem check {c : Prop} [Decidable c] {step : Except ε Unit} (hstep : FailsOnly P step)
    (hx : FailsOnly P x) : FailsOnly P (if c then step >>= fun _ => x else x) :=
  ite (hstep.bind fun _ => hx) hx

theorem mapM (hf : ∀ a, FailsOnly P (f a)) (l : List α) : FailsOnly P (l.mapM f) := by
  induction l with
  | nil => exact ok []
  | cons a l ih =>
      rw [List.mapM_cons]
      exact (hf a).bind fun b => ih.bind fun bs => ok (b :: bs)

theorem forM {g : α → Except ε Unit} (hg : ∀ a, FailsOnly P (g a)) (l : List α) :
    FailsOnly P (l.forM g) := by
  induction l with
  | nil => exact ok ()
  | cons a l ih => exact (hg a).bind fun _ => ih

end FailsOnly

/-! ## Kinds of values -/

/-- Where the computation gives a value, the value is of a kind. -/
def YieldsOnly (P : α → Prop) (x : Except ε α) : Prop := ∀ a, x = .ok a → P a

namespace YieldsOnly

variable {P : β → Prop} {x : Except ε α} {f : α → Except ε β}

theorem ok {b : β} (hb : P b) : YieldsOnly P (.ok b : Except ε β) := by
  rintro _ ⟨⟩
  exact hb

theorem error (e : ε) : YieldsOnly P (.error e : Except ε β) := fun _ h => nomatch h

/-- What stands behind a step may use what is known of its value. -/
theorem bind (hf : ∀ a, x = .ok a → YieldsOnly P (f a)) : YieldsOnly P (x >>= f) := by
  intro b hb
  obtain ⟨a, ha, hb⟩ := bind_eq_ok_iff.mp hb
  exact hf a ha b hb

end YieldsOnly

/-! ## Keeping -/

/-- Tested elements that are kept by their tests.  `pair` puts an element beside its test, `back`
takes it out again. -/
theorem kept_eq_filter {f : α → Except ε β} (pair : α → β → γ) (back : γ → α) (p : γ → Bool)
    (hback : ∀ a b, back (pair a b) = a) {l : List α} {cs : List γ}
    (h : l.mapM (fun a => (f a).map (pair a)) = .ok cs) :
    (cs.filter p).map back = l.filter fun a => (f a).toOption.any fun b => p (pair a b) := by
  induction l generalizing cs with
  | nil =>
      cases h
      rfl
  | cons a l ih =>
      obtain ⟨c, rest, hc, hrest, rfl⟩ := mapM_cons_eq_ok_iff.mp h
      obtain ⟨b, hb, rfl⟩ := map_eq_ok_iff.mp hc
      cases hp : p (pair a b) <;> simp [hb, hp, ih hrest, hback, Except.toOption]

/-- Elements that are kept where their test holds. -/
theorem kept_of_test {f : α → Except ε Bool} {l : List α} {cs : List (α × Bool)}
    (h : l.mapM (fun a => (f a).map (a, ·)) = .ok cs) :
    (cs.filter (·.2)).map (·.1) = l.filter fun a => (f a).toOption.any (· = true) := by
  rw [kept_eq_filter (fun a b => (a, b)) (·.1) (·.2) (fun _ _ => rfl) h]
  simp

theorem toOption_any_iff {x : Except ε α} {p : α → Bool} :
    x.toOption.any p = true ↔ ∃ a, x = .ok a ∧ p a = true := by
  cases x <;> simp [Except.toOption]

theorem toOption_holds_iff {x : Except ε Bool} :
    x.toOption.any (· = true) = true ↔ x = .ok true := by
  simp [toOption_any_iff]

end RecordQuery
