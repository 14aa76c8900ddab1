import Mathlib.Data.List.Basic
import RecordQuery.Query.Order

/-!
# Stable sorting

The sort keeps a list of sorted elements backwards, the last one first, and puts one element after
another into it.  `Descends` is the invariant: no element comes strictly before one further on.
With a weak order an element moves past those it comes before and past no others, so it does not
matter which other elements are in the list: sorting fewer elements gives what is left of the
sorted elements (`stableSort_sublist`).

*Ties.*  Elements that come before neither of each other keep their order (`stableSort_filter`), and
this together with the order of all others determines the sorted list (`eq_of_sorted`).  So an order
that decides first by one order and then by another sorts as two passes do, the deciding one last
(`stableSort_passes`).

The order need only be one for the elements that are sorted, so `WeakOrderOn` is about elements with
a property.
-/

namespace RecordQuery

/-- What comes strictly before what is a weak order of the elements with a property. -/
structure WeakOrderOn (P : α → Prop) (before : α → α → Bool) : Prop where
  asymm : ∀ {a b}, P a → P b → before a b = true → before b a = false
  trans : ∀ {a b c}, P a → P b → P c → before a b = false → before b c = false → before a c = false

/-- Sorted elements with a property, the last one first. -/
structure Descends (P : α → Prop) (before : α → α → Bool) (bs : List α) : Prop where
  holds : ∀ b ∈ bs, P b
  order : bs.Pairwise fun b b' => before b b' = false

variable {P : α → Prop} {before : α → α → Bool} {a b : α} {as bs : List α}

/-! ## Inserting -/

theorem insertBehind_perm (before : α → α → Bool) (a : α) (bs : List α) :
    (insertBehind before a bs).Perm (a :: bs) := by
  induction bs with
  | nil => exact .refl _
  | cons b bs ih =>
      rw [insertBehind]
      split
      · exact (ih.cons b).trans (.swap a b bs)
      · exact .refl _

theorem forall_mem_insertBehind (ha : P a) (hbs : ∀ b ∈ bs, P b) :
    ∀ b ∈ insertBehind before a bs, P b := by
  intro b hb
  rcases List.mem_cons.mp ((insertBehind_perm before a bs).mem_iff.mp hb) with rfl | hb
  · exact ha
  · exact hbs b hb

theorem sublist_insertBehind (before : α → α → Bool) (a : α) (bs : List α) :
    bs.Sublist (insertBehind before a bs) := by
  induction bs with
  | nil => exact List.nil_sublist _
  | cons b bs ih =>
      rw [insertBehind]
      split
      · exact ih.cons_cons b
      · exact List.sublist_cons_self a (b :: bs)

/-- An element that comes before no other one stays at the end. -/
theorem insertBehind_of_last (h : ∀ b ∈ bs, before a b = false) :
    insertBehind before a bs = a :: bs := by
  cases bs with
  | nil => rfl
  | cons b bs => rw [insertBehind, h b (.head _), if_neg Bool.false_ne_true]

namespace Descends

theorem nil : Descends P before [] := ⟨fun _ hb => (nomatch hb), .nil⟩

theorem tail (h : Descends P before (b :: bs)) : Descends P before bs :=
  ⟨(List.forall_mem_cons.mp h.holds).2, (List.pairwise_cons.mp h.order).2⟩

/-- What does not come before the last of sorted elements comes before none of them. -/
theorem forall_not_before (horder : WeakOrderOn P before) (h : Descends P before (b :: bs))
    (ha : P a) (hab : before a b = false) : ∀ b' ∈ b :: bs, before a b' = false := by
  obtain ⟨hfirst, -⟩ := List.pairwise_cons.mp h.order
  obtain ⟨hb, hrest⟩ := List.forall_mem_cons.mp h.holds
  exact List.forall_mem_cons.mpr
    ⟨hab, fun b' hb' => horder.trans ha hb (hrest b' hb') hab (hfirst b' hb')⟩

/-- Inserting keeps elements sorted. -/
theorem insertBehind (horder : WeakOrderOn P before) (h : Descends P before bs) (ha : P a) :
    Descends P before (insertBehind before a bs) := by
  refine ⟨forall_mem_insertBehind ha h.holds, ?_⟩
  induction bs with
  | nil => exact List.pairwise_singleton ..
  | cons b bs ih =>
      rw [RecordQuery.insertBehind]
      split
      next hbefore =>
        obtain ⟨hfirst, -⟩ := List.pairwise_cons.mp h.order
        refine .cons (fun b' hb' => ?_) (ih h.tail)
        rcases List.mem_cons.mp ((insertBehind_perm before a bs).mem_iff.mp hb') with rfl | hb'
        · exact horder.asymm ha (h.holds b (.head _)) hbefore
        · exact hfirst b' hb'
      next hbehind =>
        exact .cons (h.forall_not_before horder ha (Bool.eq_false_iff.mpr hbehind)) h.order

/-- An element finds its place whatever other elements there are. -/
theorem insertBehind_sublist (horder : WeakOrderOn P before) (h : Descends P before bs) (ha : P a)
    (hsub : as.Sublist bs) :
    (RecordQuery.insertBehind before a as).Sublist (RecordQuery.insertBehind before a bs) := by
  induction hsub with
  | slnil => exact .refl _
  | @cons as bs b hsub ih =>
      rw [RecordQuery.insertBehind]
      split
      next hbefore => exact (ih h.tail).cons b
      next hbehind =>
        have hlast := h.forall_not_before horder ha (Bool.eq_false_iff.mpr hbehind)
        rw [insertBehind_of_last fun b' hb' => hlast b' (.tail _ (hsub.subset hb'))]
        exact (hsub.cons b).cons_cons a
  | @cons_cons as bs b hsub ih =>
      rw [RecordQuery.insertBehind, RecordQuery.insertBehind]
      split
      next hbefore => exact (ih h.tail).cons_cons b
      next hbehind => exact (hsub.cons_cons b).cons_cons a

end Descends

/-! ## Sorting -/

/-- Puts elements into sorted ones, one after another. -/
def insertAllBehind (before : α → α → Bool) (sorted as : List α) : List α :=
  as.foldl (fun sorted a => insertBehind before a sorted) sorted

theorem insertAllBehind_perm (before : α → α → Bool) (as sorted : List α) :
    (insertAllBehind before sorted as).Perm (as ++ sorted) := by
  induction as generalizing sorted with
  | nil => exact .refl _
  | cons a as ih =>
      have hinsert := (insertBehind_perm before a sorted).append_left as
      exact ((ih _).trans hinsert).trans List.perm_middle

/-- Sorting keeps all elements. -/
theorem stableSort_perm (before : α → α → Bool) (as : List α) : (stableSort before as).Perm as := by
  have hperm := insertAllBehind_perm before as []
  rw [List.append_nil] at hperm
  exact (List.reverse_perm _).trans hperm

theorem Descends.insertAllBehind_sublist (horder : WeakOrderOn P before) (hbs : ∀ b ∈ bs, P b)
    (hsub : as.Sublist bs) {sorted sorted' : List α} (hsorted : Descends P before sorted)
    (hsorted' : Descends P before sorted') (h : sorted'.Sublist sorted) :
    (insertAllBehind before sorted' as).Sublist (insertAllBehind before sorted bs) := by
  induction hsub generalizing sorted sorted' with
  | slnil => exact h
  | cons b hsub ih =>
      obtain ⟨hb, hrest⟩ := List.forall_mem_cons.mp hbs
      exact ih hrest (hsorted.insertBehind horder hb) hsorted'
        (h.trans (sublist_insertBehind before b sorted))
  | cons_cons b hsub ih =>
      obtain ⟨hb, hrest⟩ := List.forall_mem_cons.mp hbs
      exact ih hrest (hsorted.insertBehind horder hb) (hsorted'.insertBehind horder hb)
        (hsorted.insertBehind_sublist horder hb h)

/-- **Sorting fewer elements gives what is left of the sorted elements.** -/
theorem stableSort_sublist (horder : WeakOrderOn P before) (hbs : ∀ b ∈ bs, P b)
    (h : as.Sublist bs) : (stableSort before as).Sublist (stableSort before bs) :=
  (Descends.insertAllBehind_sublist horder hbs h .nil .nil (.refl [])).reverse

/-! ## Sorted elements -/

theorem Descends.insertAllBehind (horder : WeakOrderOn P before) (has : ∀ a ∈ as, P a)
    {sorted : List α} (h : Descends P before sorted) :
    Descends P before (insertAllBehind before sorted as) := by
  induction as generalizing sorted with
  | nil => exact h
  | cons a as ih =>
      obtain ⟨ha, hrest⟩ := List.forall_mem_cons.mp has
      exact ih hrest (h.insertBehind horder ha)

/-- No element comes strictly before an earlier one. -/
theorem stableSort_pairwise (horder : WeakOrderOn P before) (has : ∀ a ∈ as, P a) :
    (stableSort before as).Pairwise fun a b => before b a = false :=
  List.pairwise_reverse.mpr (Descends.insertAllBehind horder has .nil).order

/-- Elements that are sorted stay where they are. -/
theorem stableSort_of_pairwise (h : as.Pairwise fun a b => before b a = false) :
    stableSort before as = as := by
  have hall : ∀ sorted : List α, (∀ a ∈ as, ∀ b ∈ sorted, before a b = false) →
      insertAllBehind before sorted as = as.reverse ++ sorted := by
    induction as with
    | nil => exact fun _ _ => rfl
    | cons a as ih =>
        intro sorted hsorted
        obtain ⟨hfirst, hrest⟩ := List.pairwise_cons.mp h
        obtain ⟨hlast, hlater⟩ := List.forall_mem_cons.mp hsorted
        have hnext : ∀ a' ∈ as, ∀ b ∈ a :: sorted, before a' b = false := fun a' ha' =>
          List.forall_mem_cons.mpr ⟨hfirst a' ha', hlater a' ha'⟩
        show insertAllBehind before (insertBehind before a sorted) as = _
        rw [insertBehind_of_last hlast, ih hrest _ hnext, List.reverse_cons, List.append_assoc,
          List.singleton_append]
  have hreverse := hall [] fun _ _ _ hb => nomatch hb
  rw [List.append_nil] at hreverse
  exact (congrArg List.reverse hreverse).trans (List.reverse_reverse as)

/-! ## Ties -/

/-- Neither of two elements comes before the other. -/
def tied (before : α → α → Bool) (a b : α) : Bool := !before a b && !before b a

theorem tied_iff : tied before a b = true ↔ before a b = false ∧ before b a = false := by
  simp [tied]

namespace WeakOrderOn

theorem mono (horder : WeakOrderOn P before) {Q : α → Prop} (h : ∀ a, Q a → P a) :
    WeakOrderOn Q before where
  asymm ha hb := horder.asymm (h _ ha) (h _ hb)
  trans ha hb hc := horder.trans (h _ ha) (h _ hb) (h _ hc)

theorem irrefl (horder : WeakOrderOn P before) (ha : P a) : before a a = false := by
  cases hself : before a a with
  | false => rfl
  | true => exact hself.symm.trans (horder.asymm ha ha hself)

theorem tied_self (horder : WeakOrderOn P before) (ha : P a) : tied before a a = true :=
  tied_iff.mpr ⟨horder.irrefl ha, horder.irrefl ha⟩

/-- Elements that tie with one element tie with each other. -/
theorem not_before_of_tied (horder : WeakOrderOn P before) {x : α} (hx : P x) (ha : P a) (hb : P b)
    (hxa : tied before x a = true) (hxb : tied before x b = true) : before a b = false :=
  horder.trans ha hx hb (tied_iff.mp hxa).2 (tied_iff.mp hxb).1

end WeakOrderOn

/-- Elements keep their order if none of them comes before another. -/
theorem stableSort_filter (horder : WeakOrderOn P before) (has : ∀ a ∈ as, P a) {p : α → Bool}
    (hp : ∀ a ∈ as, ∀ b ∈ as, p a = true → p b = true → before a b = false) :
    (stableSort before as).filter p = as.filter p := by
  have hsorted : stableSort before (as.filter p) = as.filter p := by
    refine stableSort_of_pairwise (List.pairwise_iff_forall_sublist.mpr fun {a b} hab => ?_)
    obtain ⟨ha, hpa⟩ := List.mem_filter.mp (hab.subset (.head _))
    obtain ⟨hb, hpb⟩ := List.mem_filter.mp (hab.subset (.tail _ (.head _)))
    exact hp b hb a ha hpb hpa
  have hsub := (stableSort_sublist horder has (List.filter_sublist (p := p))).filter p
  rw [hsorted, List.filter_filter] at hsub
  simp only [Bool.and_self] at hsub
  exact (hsub.eq_of_length ((stableSort_perm before as).filter p).length_eq.symm).symm

/-- First elements tie if each of them stands in the other list too, behind its first element or as
that element. -/
theorem WeakOrderOn.tied_heads (horder : WeakOrderOn P before) (ha : P a)
    (hfirst : ∀ x ∈ as, before x a = false) (hfirst' : ∀ x ∈ bs, before x b = false)
    (hmem : a ∈ b :: bs) (hmem' : b ∈ a :: as) : tied before a b = true := by
  rcases List.mem_cons.mp hmem with rfl | hbehind
  · exact horder.tied_self ha
  · rcases List.mem_cons.mp hmem' with rfl | hbehind'
    · exact horder.tied_self ha
    · exact tied_iff.mpr ⟨hfirst' a hbehind, hfirst b hbehind'⟩

/-- **Sorted lists in which ties stand in one order are one list.** -/
theorem eq_of_sorted (horder : WeakOrderOn P before) (has : ∀ a ∈ as, P a) (hbs : ∀ b ∈ bs, P b)
    (hsorted : as.Pairwise fun a b => before b a = false)
    (hsorted' : bs.Pairwise fun a b => before b a = false)
    (hties : ∀ x, P x → as.filter (tied before x) = bs.filter (tied before x)) : as = bs := by
  induction as generalizing bs with
  | nil =>
      cases bs with
      | nil => rfl
      | cons b bs =>
          have hb := hbs b (.head _)
          have hnone := hties b hb
          rw [List.filter_cons_of_pos (horder.tied_self hb)] at hnone
          cases hnone
  | cons a as ih =>
      obtain ⟨ha, hrest⟩ := List.forall_mem_cons.mp has
      obtain ⟨hfirst, hlater⟩ := List.pairwise_cons.mp hsorted
      have hsame := hties a ha
      rw [List.filter_cons_of_pos (horder.tied_self ha)] at hsame
      cases bs with
      | nil => cases hsame
      | cons b bs =>
          obtain ⟨hb, hrest'⟩ := List.forall_mem_cons.mp hbs
          obtain ⟨hfirst', hlater'⟩ := List.pairwise_cons.mp hsorted'
          have hab : tied before a b = true := by
            have hsame' := hties b hb
            rw [List.filter_cons_of_pos (horder.tied_self hb)] at hsame'
            exact horder.tied_heads ha hfirst hfirst'
              (List.mem_of_mem_filter (hsame ▸ List.mem_cons_self))
              (List.mem_of_mem_filter (hsame' ▸ List.mem_cons_self))
          rw [List.filter_cons_of_pos hab] at hsame
          obtain ⟨rfl, -⟩ := List.cons.inj hsame
          refine congrArg (a :: ·) (ih hrest hrest' hlater hlater' fun x hx => ?_)
          have hboth := hties x hx
          by_cases hxa : tied before x a = true
          · rw [List.filter_cons_of_pos hxa, List.filter_cons_of_pos hxa] at hboth
            exact (List.cons.inj hboth).2
          · rwa [List.filter_cons_of_neg hxa, List.filter_cons_of_neg hxa] at hboth

/-! ## Two passes -/

section Passes

variable {before₁ before₂ : α → α → Bool}
  (hlex : ∀ a b, before a b = (before₁ a b || (tied before₁ a b && before₂ a b)))

include hlex

/-- What ties ties in both orders. -/
theorem tied_of_lex {x a : α} (h : tied before x a = true) :
    tied before₁ x a = true ∧ tied before₂ x a = true := by
  revert h
  simp only [tied, hlex]
  cases before₁ x a <;> cases before₁ a x <;> simp

/-- What two passes leave is sorted by the order that the two make up. -/
theorem stableSort_passes_pairwise (horder₁ : WeakOrderOn P before₁)
    (horder₂ : WeakOrderOn P before₂) (has : ∀ a ∈ as, P a) :
    (stableSort before₁ (stableSort before₂ as)).Pairwise fun a b => before b a = false := by
  have hall₂ : ∀ a ∈ stableSort before₂ as, P a := fun a ha =>
    has a ((stableSort_perm before₂ as).mem_iff.mp ha)
  refine List.pairwise_iff_forall_sublist.mpr fun {a b} hab => ?_
  have hb : P b :=
    hall₂ b ((stableSort_perm before₁ _).mem_iff.mp (hab.subset (.tail _ (.head _))))
  have hba : before₁ b a = false :=
    List.pairwise_iff_forall_sublist.mp (stableSort_pairwise horder₁ hall₂) hab
  rw [hlex, hba, Bool.false_or]
  cases htied : tied before₁ b a with
  | false => rfl
  | true =>
      -- ties of the first order stand as the second pass left them
      have hties : (stableSort before₁ (stableSort before₂ as)).filter (tied before₁ b) =
          (stableSort before₂ as).filter (tied before₁ b) :=
        stableSort_filter horder₁ hall₂ fun c hc d hd hbc hbd =>
          horder₁.not_before_of_tied hb (hall₂ c hc) (hall₂ d hd) hbc hbd
      have hsub := hab.filter (tied before₁ b)
      rw [hties, List.filter_cons_of_pos htied, List.filter_cons_of_pos (horder₁.tied_self hb),
        List.filter_nil] at hsub
      exact List.pairwise_iff_forall_sublist.mp (stableSort_pairwise horder₂ has)
        (hsub.trans List.filter_sublist)

/-- **An order that decides ties of a first order by a second one** sorts as two passes do, that by
the first order being the last. -/
theorem stableSort_passes (horder₁ : WeakOrderOn P before₁) (horder₂ : WeakOrderOn P before₂)
    (horder : WeakOrderOn P before) (has : ∀ a ∈ as, P a) :
    stableSort before as = stableSort before₁ (stableSort before₂ as) := by
  have hall₂ : ∀ a ∈ stableSort before₂ as, P a := fun a ha =>
    has a ((stableSort_perm before₂ as).mem_iff.mp ha)
  have hall₁ : ∀ a ∈ stableSort before₁ (stableSort before₂ as), P a := fun a ha =>
    hall₂ a ((stableSort_perm before₁ _).mem_iff.mp ha)
  have hall : ∀ a ∈ stableSort before as, P a := fun a ha =>
    has a ((stableSort_perm before as).mem_iff.mp ha)
  refine eq_of_sorted horder hall hall₁ (stableSort_pairwise horder has)
    (stableSort_passes_pairwise hlex horder₁ horder₂ has) fun x hx => ?_
  have hkept : ∀ {c d}, P c → P d → tied before x c = true → tied before x d = true →
      before₁ c d = false ∧ before₂ c d = false := by
    intro c d hc hd hxc hxd
    obtain ⟨hxc₁, hxc₂⟩ := tied_of_lex hlex hxc
    obtain ⟨hxd₁, hxd₂⟩ := tied_of_lex hlex hxd
    exact ⟨horder₁.not_before_of_tied hx hc hd hxc₁ hxd₁,
      horder₂.not_before_of_tied hx hc hd hxc₂ hxd₂⟩
  rw [stableSort_filter horder has fun c hc d hd hxc hxd =>
      horder.not_before_of_tied hx (has c hc) (has d hd) hxc hxd,
    stableSort_filter horder₁ hall₂ fun c hc d hd hxc hxd =>
      (hkept (hall₂ c hc) (hall₂ d hd) hxc hxd).1,
    stableSort_filter horder₂ has fun c hc d hd hxc hxd =>
      (hkept (has c hc) (has d hd) hxc hxd).2]

end Passes

end RecordQuery
