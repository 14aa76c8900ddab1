import Mathlib.Logic.Relation
import Mathlib.Tactic.Choose
import RecordQuery.Proofs.Query.Filter
import RecordQuery.Proofs.Sample
import RecordQuery.Query.Scope

/-!
# Filters in another shape

One filter can be written in many shapes.  `Filter.Step` is one change of shape, somewhere in the
tree: a nested filter without conditions is deleted, a nested filter is spliced into a node with the
same connective, a filter is wrapped in a node of its own, or the parts of a node are put into
another order.  What can be reached by such changes, forwards and backwards, says the same
(`evaluate_reshaped`).

*Verdicts.*  A filter without conditions lets everything pass, but inside another filter it is
passed over.  So its answer is not `true` but none: `Filter.verdict` joins the answers of those parts
that have one.  The verdict of a node depends on these answers only, up to their order
(`Connective.join_perm`), and the verdict of a nested filter with the same connective may be replaced
by the answers it was joined from (`Connective.join_splice`).  So each change keeps the verdict
(`Step.verdict_eq`).

*Tests.*  Testing stops at the first answer that settles a node, so it may miss a failure in one
shape and meet it in another.  Where no condition fails it gives the verdict
(`holds_eq_verdict`).
-/

namespace RecordQuery

/-! ## Joined answers -/

namespace Connective

/-- The answer of a node whose parts give answers; none if there are no parts. -/
def join (c : Connective) (answers : List Bool) : Option Bool :=
  if answers = [] then none
  else some (if c.settling ∈ answers then c.settling else !c.settling)

variable {c : Connective} {xs ys zs : List Bool}

theorem join_of_ne_nil (h : xs ≠ []) :
    c.join xs = some (if c.settling ∈ xs then c.settling else !c.settling) := if_neg h

theorem join_eq_none_iff : c.join xs = none ↔ xs = [] := by
  by_cases h : xs = []
  · simp [join, h]
  · simp [join, h]

/-- Only whether there are parts and whether one of them settles matters. -/
theorem join_congr (hempty : xs = [] ↔ ys = [])
    (hsettles : c.settling ∈ xs ↔ c.settling ∈ ys) : c.join xs = c.join ys := by
  simp only [join, hempty, hsettles]

theorem join_perm (h : xs.Perm ys) : c.join xs = c.join ys := by
  have hempty : xs = [] ↔ ys = [] := by
    rw [← List.length_eq_zero_iff, ← List.length_eq_zero_iff, h.length_eq]
  exact join_congr hempty h.mem_iff

/-- One part decides alone, and no part says nothing. -/
theorem join_toList (c : Connective) (o : Option Bool) : c.join o.toList = o := by
  cases o with
  | none => rfl
  | some b => cases c <;> cases b <;> rfl

/-- A joined answer settles where some of its parts does. -/
theorem settling_mem_join_iff : c.settling ∈ (c.join ys).toList ↔ c.settling ∈ ys := by
  by_cases h : ys = []
  · simp [join, h]
  · rw [join_of_ne_nil h]
    by_cases hmem : c.settling ∈ ys
    · simp [hmem]
    · simp [hmem]

/-- Some of the parts may be joined before. -/
theorem join_splice : c.join (xs ++ (c.join ys).toList ++ zs) = c.join (xs ++ ys ++ zs) := by
  have hempty : (c.join ys).toList = [] ↔ ys = [] := by
    rw [Option.toList_eq_nil_iff, join_eq_none_iff]
  refine join_congr ?_ ?_
  · simp only [List.append_eq_nil_iff, hempty]
  · simp only [List.mem_append, settling_mem_join_iff]

end Connective

namespace Filter

/-! ## Verdicts -/

mutual

/-- What a filter says, given what its conditions say; none if it has no condition. -/
def verdict (value : α → Bool) : Filter α → Option Bool
  | .node c cs fs => c.join (cs.map value ++ verdicts value fs)

/-- What some filters say, those that have conditions. -/
def verdicts (value : α → Bool) : List (Filter α) → List Bool
  | [] => []
  | f :: fs => (verdict value f).toList ++ verdicts value fs

end

theorem verdicts_eq (value : α → Bool) (fs : List (Filter α)) :
    verdicts value fs = fs.flatMap fun f => (f.verdict value).toList := by
  induction fs with
  | nil => rfl
  | cons f fs ih => rw [verdicts, List.flatMap_cons, ih]

theorem verdict_node (value : α → Bool) (c : Connective) (cs : List α) (fs : List (Filter α)) :
    (node c cs fs).verdict value =
      c.join (cs.map value ++ fs.flatMap fun f => (f.verdict value).toList) := by
  rw [verdict, verdicts_eq]

theorem conditionsOfAll_eq (fs : List (Filter α)) :
    conditionsOfAll fs = fs.flatMap allConditions := by
  induction fs with
  | nil => rfl
  | cons f fs ih => rw [conditionsOfAll, List.flatMap_cons, ih]

theorem allConditions_node (c : Connective) (cs : List α) (fs : List (Filter α)) :
    (node c cs fs).allConditions = cs ++ fs.flatMap allConditions := by
  rw [allConditions, conditionsOfAll_eq]

mutual

/-- Only a filter without conditions says nothing. -/
theorem verdict_eq_none_iff {value : α → Bool} : ∀ {f : Filter α},
    f.verdict value = none ↔ f.allConditions = []
  | .node c cs fs => by
      rw [verdict, allConditions, Connective.join_eq_none_iff, List.append_eq_nil_iff,
        List.map_eq_nil_iff, List.append_eq_nil_iff, verdicts_eq_nil_iff]

theorem verdicts_eq_nil_iff {value : α → Bool} : ∀ {fs : List (Filter α)},
    verdicts value fs = [] ↔ conditionsOfAll fs = []
  | [] => by simp [verdicts, conditionsOfAll]
  | f :: fs => by
      rw [verdicts, conditionsOfAll, List.append_eq_nil_iff, Option.toList_eq_nil_iff,
        verdict_eq_none_iff, List.append_eq_nil_iff, verdicts_eq_nil_iff]

end

/-! ## Tests -/

section Tests

variable {test : α → Except ε Bool} {value : α → Bool}

theorem reaches_eq {answer : Bool} {cs : List α} (h : ∀ a ∈ cs, test a = .ok (value a)) :
    reaches answer test cs = .ok (decide (answer ∈ cs.map value)) := by
  induction cs with
  | nil => rfl
  | cons a cs ih =>
      obtain ⟨hfirst, hrest⟩ := List.forall_mem_cons.mp h
      rw [reaches, hfirst, ok_bind, ih hrest]
      by_cases ha : value a = answer
      · simp [ha]
      · simp [ha, Ne.symm ha]

mutual

/-- Where no condition fails, testing gives the verdict, and lets pass what says nothing. -/
theorem holds_eq_verdict : ∀ {f : Filter α}, (∀ a ∈ f.allConditions, test a = .ok (value a)) →
    f.holds test = .ok ((f.verdict value).getD true)
  | .node c cs fs, h => by
      have hempty : (cs.isEmpty && allEmpty fs) = true ↔
          (node c cs fs).verdict value = none := by
        rw [verdict_eq_none_iff, ← List.isEmpty_iff, ← isEmpty_eq, isEmpty]
      rw [allConditions, List.forall_mem_append] at h
      obtain ⟨hown, hnested⟩ := h
      rw [holds]
      split
      next hnone => rw [hempty.mp hnone, Option.getD_none, pure_eq_ok]
      next hsome =>
        have hne : cs.map value ++ verdicts value fs ≠ [] := fun hnil =>
          hsome (hempty.mpr (Connective.join_eq_none_iff.mpr hnil))
        rw [reaches_eq hown, ok_bind, nestedReach_eq hnested, verdict,
          Connective.join_of_ne_nil hne, Option.getD_some]
        by_cases hreached : c.settling ∈ cs.map value
        · simp [hreached]
        · by_cases hlater : c.settling ∈ verdicts value fs
          · simp [hreached, hlater]
          · simp [hreached, hlater]

theorem nestedReach_eq {answer : Bool} : ∀ {fs : List (Filter α)},
    (∀ a ∈ conditionsOfAll fs, test a = .ok (value a)) →
      nestedReach answer test fs = .ok (decide (answer ∈ verdicts value fs))
  | [], _ => rfl
  | f :: fs, h => by
      rw [conditionsOfAll, List.forall_mem_append] at h
      obtain ⟨hfirst, hrest⟩ := h
      rw [nestedReach, nestedReach_eq hrest, verdicts]
      cases hverdict : f.verdict value with
      | none =>
          have hempty : f.isEmpty = true := by
            rw [isEmpty_eq, verdict_eq_none_iff.mp hverdict, List.isEmpty_nil]
          rw [if_pos hempty, Option.toList_none, List.nil_append]
      | some b =>
          have hsome : f.isEmpty = false := by
            rw [isEmpty_eq, List.isEmpty_eq_false_iff]
            intro hnil
            rw [verdict_eq_none_iff.mpr hnil] at hverdict
            cases hverdict
          rw [hsome, holds_eq_verdict hfirst, hverdict]
          by_cases hb : b = answer
          · simp [hb]
          · simp [hb, Ne.symm hb]

end

end Tests

/-! ## Changes of shape -/

/-- One change of the shape of a filter, somewhere in it. -/
inductive Step : Filter α → Filter α → Prop where
  /-- A nested filter without conditions is deleted. -/
  | delete {c : Connective} {cs : List α} (fs gs : List (Filter α)) {f : Filter α}
      (hempty : f.isEmpty = true) : Step (node c cs (fs ++ f :: gs)) (node c cs (fs ++ gs))
  /-- A nested filter with the connective of its node gives its parts to the node. -/
  | splice {c : Connective} {cs cs' : List α} (fs gs : List (Filter α)) {fs' : List (Filter α)} :
      Step (node c cs (fs ++ node c cs' fs' :: gs)) (node c (cs ++ cs') (fs ++ fs' ++ gs))
  /-- A filter is put into a node of its own. -/
  | wrap (c : Connective) (f : Filter α) : Step f (node c [] [f])
  /-- The parts of a node change places. -/
  | permute {c : Connective} {cs cs' : List α} {fs fs' : List (Filter α)} (hconditions : cs.Perm cs')
      (hfilters : fs.Perm fs') : Step (node c cs fs) (node c cs' fs')
  /-- A nested filter changes its shape. -/
  | nested {c : Connective} {cs : List α} (fs gs : List (Filter α)) {f f' : Filter α}
      (h : Step f f') : Step (node c cs (fs ++ f :: gs)) (node c cs (fs ++ f' :: gs))

/-- One filter comes from the other by changes of shape, made or undone. -/
def Reshaped : Filter α → Filter α → Prop := Relation.EqvGen Step

variable {f f' : Filter α}

/-- A change of shape keeps what the filter says. -/
theorem Step.verdict_eq (value : α → Bool) (h : Step f f') :
    f.verdict value = f'.verdict value := by
  induction h with
  | @delete c cs fs gs f hempty =>
      have hnone : f.verdict value = none := by
        rw [verdict_eq_none_iff, ← List.isEmpty_iff, ← isEmpty_eq, hempty]
      simp only [verdict_node, List.flatMap_append, List.flatMap_cons, hnone, Option.toList_none,
        List.nil_append]
  | @splice c cs cs' fs gs fs' =>
      simp only [verdict_node, List.map_append, List.flatMap_append, List.flatMap_cons]
      rw [← List.append_assoc, ← List.append_assoc, Connective.join_splice]
      -- the conditions of the nested filter now stand before the answers of `fs`
      refine Connective.join_perm ?_
      simp only [List.append_assoc]
      exact (List.perm_append_comm_assoc _ _ _).append_left _
  | wrap c f =>
      rw [verdict_node, List.map_nil, List.nil_append, List.flatMap_singleton,
        Connective.join_toList]
  | permute hconditions hfilters =>
      rw [verdict_node, verdict_node]
      exact Connective.join_perm ((hconditions.map value).append (hfilters.flatMap_right _))
  | nested fs gs _ ih =>
      simp only [verdict_node, List.flatMap_append, List.flatMap_cons, ih]

/-- A change of shape keeps the conditions, but not their order. -/
theorem Step.allConditions_perm (h : Step f f') : f.allConditions.Perm f'.allConditions := by
  induction h with
  | @delete c cs fs gs f hempty =>
      have hnone : f.allConditions = [] := by rw [← List.isEmpty_iff, ← isEmpty_eq, hempty]
      simp only [allConditions_node, List.flatMap_append, List.flatMap_cons, hnone,
        List.nil_append]
      exact .refl _
  | @splice c cs cs' fs gs fs' =>
      simp only [allConditions_node, List.flatMap_append, List.flatMap_cons, List.append_assoc]
      exact (List.perm_append_comm_assoc _ _ _).append_left _
  | wrap c f =>
      rw [allConditions_node, List.nil_append, List.flatMap_singleton]
  | permute hconditions hfilters =>
      rw [allConditions_node, allConditions_node]
      exact hconditions.append (hfilters.flatMap_right _)
  | nested fs gs _ ih =>
      simp only [allConditions_node, List.flatMap_append, List.flatMap_cons]
      exact ((ih.append_right _).append_left _).append_left _

theorem Reshaped.verdict_eq (value : α → Bool) (h : Reshaped f f') :
    f.verdict value = f'.verdict value := by
  induction h with
  | rel _ _ h => exact h.verdict_eq value
  | refl _ => rfl
  | symm _ _ _ ih => exact ih.symm
  | trans _ _ _ _ _ ih ih' => exact ih.trans ih'

theorem Reshaped.allConditions_perm (h : Reshaped f f') :
    f.allConditions.Perm f'.allConditions := by
  induction h with
  | rel _ _ h => exact h.allConditions_perm
  | refl _ => exact .refl _
  | symm _ _ _ ih => exact ih.symm
  | trans _ _ _ _ _ ih ih' => exact ih.trans ih'

/-- Filters of different shapes have one answer where no condition fails. -/
theorem Reshaped.holds_eq {test : α → Except ε Bool} (h : Reshaped f f')
    (hall : ∀ a ∈ f.allConditions, ∃ b, test a = .ok b) :
    ∃ answer, f.holds test = .ok answer ∧ f'.holds test = .ok answer := by
  choose! value hvalue using hall
  have hvalue' : ∀ a ∈ f'.allConditions, test a = .ok (value a) := fun a ha =>
    hvalue a (h.allConditions_perm.mem_iff.mpr ha)
  refine ⟨_, holds_eq_verdict hvalue, ?_⟩
  rw [holds_eq_verdict hvalue', h.verdict_eq value]

/-- A filter compiles in every shape or in none. -/
theorem Reshaped.exists_mapM {compile : α → Except ε β} {g : Filter β} (h : Reshaped f f')
    (hg : f.mapM compile = .ok g) : ∃ g', f'.mapM compile = .ok g' := by
  have hall := exists_mapM_iff.mp ⟨g, hg⟩
  exact exists_mapM_iff.mpr fun a ha => hall a (h.allConditions_perm.mem_iff.mpr ha)

/-! ## Evaluation of a reshaped filter -/

/-- A filter without conditions compiles. -/
theorem exists_compile_of_allConditions_eq_nil {F : Filter Condition}
    (h : F.allConditions = []) (s : Scope) (ctx : Context) : ∃ G, F.compile s ctx = .ok G := by
  refine exists_mapM_iff.mpr fun a ha => ?_
  rw [h] at ha
  cases ha

/-- A filter that compiles may be reshaped, before or after it is compiled: where all its
conditions can be tested, every shape compiles and has the same answer.  A filter without
conditions lets every record pass, and it has none exactly if the compiled filter has none. -/
theorem evaluate_reshaped (F : Filter Condition) (s : Scope) (ctx : Context) :
    (∀ G, F.compile s ctx = .ok G → ∀ (ctx' : Context) (row : Record),
      (∀ c ∈ G.allConditions, ∃ b, c.evaluate ctx' row = .ok b) →
        ∃ answer, G.evaluate ctx' row = .ok answer ∧
          (∀ G', G.Reshaped G' → G'.evaluate ctx' row = .ok answer) ∧
          ∀ F', F.Reshaped F' →
            ∃ G', F'.compile s ctx = .ok G' ∧ G'.evaluate ctx' row = .ok answer) ∧
      (F.allConditions = [] →
        ∃ G, F.compile s ctx = .ok G ∧ ∀ ctx' row, G.evaluate ctx' row = .ok true) ∧
      ∀ G, F.compile s ctx = .ok G → G.isEmpty = F.isEmpty := by
  refine ⟨fun G hG ctx' row hall => ?_, fun hnil => ?_, fun G hG => isEmpty_of_mapM hG⟩
  · have hsource : ∀ c ∈ F.allConditions,
        ∃ b, (c.compileIn s ctx >>= (·.evaluate ctx' row)) = .ok b := fun c hc => by
      obtain ⟨d, hd⟩ := exists_mapM_iff.mp ⟨G, hG⟩ c hc
      rw [hd, ok_bind]
      exact hall d ((mem_mapM_iff (mapM_allConditions hG)).mpr ⟨c, hc, hd⟩)
    obtain ⟨answer, hanswer, -⟩ := Reshaped.holds_eq (.refl G) hall
    refine ⟨answer, hanswer, fun G' h => ?_, fun F' h => ?_⟩
    · obtain ⟨b, hb, hb'⟩ := h.holds_eq hall
      cases hanswer.symm.trans hb
      exact hb'
    · obtain ⟨G', hG'⟩ := h.exists_mapM hG
      obtain ⟨b, hb, hb'⟩ := h.holds_eq hsource
      rw [← holds_of_mapM hG] at hb
      cases hanswer.symm.trans hb
      exact ⟨G', hG', (holds_of_mapM hG').trans hb'⟩
  · obtain ⟨G, hG⟩ := exists_compile_of_allConditions_eq_nil hnil s ctx
    refine ⟨G, hG, fun ctx' row => holds_of_isEmpty ?_⟩
    rw [isEmpty_of_mapM hG, isEmpty_eq, hnil, List.isEmpty_nil]

end Filter

namespace Sample

/-- The contacts of a name or a code, in a filter within a filter and beside one that says
nothing. -/
def nestedChoice : Filter Condition :=
  .node .or [.eq "fullname" (.text "Grace")]
    [.node .or [.eq "code" (.decimal ⟨15, 1⟩)] [], .empty]

/-- The contacts of a code or a name. -/
def flatChoice : Filter Condition :=
  .node .or [.eq "code" (.decimal ⟨15, 1⟩), .eq "fullname" (.text "Grace")] []

theorem nestedChoice_reshaped : nestedChoice.Reshaped flatChoice :=
  .trans _ _ _ (.rel _ _ (.delete [_] [] rfl)) <|
    .trans _ _ _ (.rel _ _ (.splice [] [])) (.rel _ _ (.permute (.swap _ _ _) (.refl _)))

/-- One shape finds Ada by her code alone, the other tests her name before. -/
theorem flatChoice_evaluate : ∃ G G',
    nestedChoice.compile (.root contact []) ctx = .ok G ∧
      (∀ c ∈ G.allConditions, ∃ b, c.evaluate ctx ada = .ok b) ∧
      flatChoice.compile (.root contact []) ctx = .ok G' ∧
      G.evaluate ctx ada = .ok true ∧ G'.evaluate ctx ada = .ok true := by
  obtain ⟨G, hG, hknown⟩ := exists_eq_ok_of_map
    (x := nestedChoice.compile (.root contact []) ctx)
    (f := fun G => (G.allConditions.all fun c => (c.evaluate ctx ada).isOk,
      (G.evaluate ctx ada).toOption)) (b := (true, some true)) (by decide +kernel)
  obtain ⟨hall, htrue⟩ := Prod.ext_iff.mp hknown
  have hall : ∀ c ∈ G.allConditions, ∃ b, c.evaluate ctx ada = .ok b := fun c hc =>
    exists_eq_ok_of_isOk (List.all_eq_true.mp hall c hc)
  obtain ⟨hshapes, -, -⟩ := Filter.evaluate_reshaped nestedChoice (.root contact []) ctx
  obtain ⟨answer, hanswer, -, hflat⟩ := hshapes G hG ctx ada hall
  obtain ⟨G', hG', hanswer'⟩ := hflat flatChoice nestedChoice_reshaped
  rw [hanswer] at htrue
  cases htrue
  exact ⟨G, G', hG, hall, hG', hanswer, hanswer'⟩

end Sample

end RecordQuery
