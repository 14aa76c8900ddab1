import Mathlib.Data.List.Forall2
import RecordQuery.Proofs.Failure

/-!
# Computations that fail together

Two computations go together when both fail, for whatever reasons, or both give a value and the
values are related (`Together`).  Going together is kept by every way to put computations one after
another, so two runs of one program are compared step by step: `Together.bind` for a step,
`Together.mapM` for a list of related elements, `Together.refuse` and `Together.check` for guards.
-/

namespace RecordQuery

/-- Both computations fail, or they give values that are related. -/
inductive Together (R : α → β → Prop) : Except ε α → Except δ β → Prop where
  | ok {a : α} {b : β} : R a b → Together R (.ok a) (.ok b)
  | error (e : ε) (d : δ) : Together R (.error e) (.error d)

namespace Together

variable {R : α → β → Prop} {S : γ → κ → Prop} {x : Except ε α} {y : Except δ β}

theorem refl {R : α → α → Prop} (h : ∀ a, R a a) (x : Except ε α) : Together R x x := by
  cases x with
  | error e => exact .error e e
  | ok a => exact .ok (h a)

theorem of_eq {x y : Except ε α} (h : x = y) : Together Eq x y := by
  rw [h]
  exact .refl (fun _ => rfl) y

theorem of_sameValue {x : Except ε α} {y : Except δ α} (h : SameValue x y) : Together Eq x y := by
  cases x with
  | error e =>
      cases y with
      | error d => exact .error e d
      | ok b => cases h
  | ok a =>
      cases y with
      | error d => cases h
      | ok b => exact .ok (Option.some.inj h)

theorem of_ok {a : α} {b : β} (h : Together R x y) (hx : x = .ok a) (hy : y = .ok b) : R a b := by
  subst hx hy
  cases h with
  | ok hab => exact hab

/-! ## Sequences -/

theorem bind (h : Together R x y) {f : α → Except ε γ} {g : β → Except δ κ}
    (hrest : ∀ a b, R a b → Together S (f a) (g b)) : Together S (x >>= f) (y >>= g) := by
  cases h with
  | error e d => exact .error e d
  | ok hab => exact hrest _ _ hab

theorem map (h : Together R x y) {f : α → γ} {g : β → κ} (hvalues : ∀ a b, R a b → S (f a) (g b)) :
    Together S (x.map f) (y.map g) := by
  cases h with
  | error e d => exact .error e d
  | ok hab => exact .ok (hvalues _ _ hab)

theorem mono {R' : α → β → Prop} (h : Together R x y) (hvalues : ∀ a b, R a b → R' a b) :
    Together R' x y := by
  cases h with
  | error e d => exact .error e d
  | ok hab => exact .ok (hvalues _ _ hab)

/-- What goes together, with the knowledge of where the values come from. -/
theorem known (h : Together R x y) :
    Together (fun a b => R a b ∧ x = .ok a ∧ y = .ok b) x y := by
  cases h with
  | error e d => exact .error e d
  | ok hab => exact .ok ⟨hab, rfl, rfl⟩

/-! ## Guards -/

/-- Guards that refuse alike. -/
theorem refuse {c c' : Prop} [Decidable c] [Decidable c'] (hguard : c ↔ c') (e : ε) (d : δ)
    (h : ¬ c → Together R x y) :
    Together R (if c then .error e else x) (if c' then .error d else y) := by
  by_cases hc : c
  · rw [if_pos hc, if_pos (hguard.mp hc)]
    exact .error e d
  · rw [if_neg hc, if_neg (mt hguard.mpr hc)]
    exact h hc

/-- Checks that are made under one condition. -/
theorem check {c : Prop} [Decidable c] {p : Except ε Unit} {p' : Except δ Unit}
    (hcheck : Together Eq p p') (h : Together R x y) :
    Together R (if c then p >>= fun _ => x else x) (if c then p' >>= fun _ => y else y) := by
  by_cases hc : c
  · rw [if_pos hc, if_pos hc]
    exact hcheck.bind fun _ _ _ => h
  · rw [if_neg hc, if_neg hc]
    exact h

/-! ## Lists -/

/-- Maps that go together on related elements go together on lists of them. -/
theorem mapM {f : α → Except ε γ} {g : β → Except δ κ} {as : List α} {bs : List β}
    (hrel : List.Forall₂ R as bs) (h : ∀ a b, R a b → Together S (f a) (g b)) :
    Together (List.Forall₂ S) (as.mapM f) (bs.mapM g) := by
  induction hrel with
  | nil => exact .ok .nil
  | cons hhead _ ih =>
      rw [List.mapM_cons, List.mapM_cons]
      exact (h _ _ hhead).bind fun _ _ hfirst => ih.bind fun _ _ hrest => .ok (.cons hfirst hrest)

/-- Maps that go together on the elements of one list. -/
theorem mapM_same {f : α → Except ε γ} {g : α → Except δ κ} {as : List α}
    (h : ∀ a ∈ as, Together S (f a) (g a)) : Together (List.Forall₂ S) (as.mapM f) (as.mapM g) := by
  induction as with
  | nil => exact .ok .nil
  | cons a as ih =>
      obtain ⟨hhead, htail⟩ := List.forall_mem_cons.mp h
      rw [List.mapM_cons, List.mapM_cons]
      exact hhead.bind fun _ _ hfirst => (ih htail).bind fun _ _ hrest => .ok (.cons hfirst hrest)

end Together

/-- The elements of related lists are related, and they are elements. -/
theorem forall₂_with_mem {R : α → β → Prop} {as : List α} {bs : List β} (h : List.Forall₂ R as bs) :
    List.Forall₂ (fun a b => R a b ∧ a ∈ as ∧ b ∈ bs) as bs := by
  induction h with
  | nil => exact .nil
  | cons hfirst _ ih =>
      refine .cons ⟨hfirst, List.mem_cons_self, List.mem_cons_self⟩ (ih.imp ?_)
      rintro a b ⟨hab, ha, hb⟩
      exact ⟨hab, List.mem_cons_of_mem _ ha, List.mem_cons_of_mem _ hb⟩

/-- What is in the first of two related lists is related to something in the other. -/
theorem exists_mem_of_forall₂ {R : α → β → Prop} {as : List α} {bs : List β}
    (h : List.Forall₂ R as bs) {a : α} (ha : a ∈ as) : ∃ b ∈ bs, R a b := by
  induction h with
  | nil => cases ha
  | @cons c b _ _ hfirst _ ih =>
      rcases List.mem_cons.mp ha with rfl | hrest
      · exact ⟨b, List.mem_cons_self, hfirst⟩
      · obtain ⟨b, hb, hab⟩ := ih hrest
        exact ⟨b, List.mem_cons_of_mem _ hb, hab⟩

/-- Maps of one list that relate their values relate the lists, if both give one. -/
theorem forall₂_of_mapM_same {S : γ → κ → Prop} {f : α → Except ε γ} {g : α → Except δ κ}
    {as : List α} {cs : List γ} {ds : List κ} (hf : as.mapM f = .ok cs) (hg : as.mapM g = .ok ds)
    (h : ∀ a ∈ as, ∀ c d, f a = .ok c → g a = .ok d → S c d) : List.Forall₂ S cs ds := by
  induction as generalizing cs ds with
  | nil =>
      cases hf
      cases hg
      exact .nil
  | cons a as ih =>
      obtain ⟨hfirst, hrest⟩ := List.forall_mem_cons.mp h
      obtain ⟨c, cs', hc, hcs, rfl⟩ := mapM_cons_eq_ok_iff.mp hf
      obtain ⟨d, ds', hd, hds, rfl⟩ := mapM_cons_eq_ok_iff.mp hg
      exact .cons (hfirst c d hc hd) (ih hcs hds hrest)

end RecordQuery
