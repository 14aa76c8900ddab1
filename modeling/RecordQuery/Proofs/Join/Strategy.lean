import RecordQuery.Proofs.Join.Planned
import RecordQuery.Proofs.Sample

/-!
# The choice of a strategy

How many rows a plan expects decides which joins search their records and which look them up.
Nothing else of a plan depends on it, and the choice cannot be observed: two plans of the same
links expand every row alike.

*One join.*  Joins made of one link for different numbers of rows differ in their candidates
alone, and these find the same records (`Join.FindsAs`, `Database.planLink_findsAs`).

*All joins.*  `expand_congr` and `resolveFrom_congr` carry this through trees and forests.
-/

namespace RecordQuery

/-! ## Joins that find the same -/

/-- Two joins are the same up to how they find the records with a key. -/
structure Join.FindsAs (i j : Join) : Prop where
  aliasName : i.aliasName = j.aliasName
  entity : i.entity = j.entity
  fromAttribute : i.fromAttribute = j.fromAttribute
  kind : i.kind = j.kind
  columns : i.columns = j.columns
  withKey : ∀ k, i.candidates.withKey i.toAttribute k = j.candidates.withKey j.toAttribute k

namespace Join.FindsAs

variable {i j : Join}

theorem matchesOf_eq (h : i.FindsAs j) (source : Record) : i.matchesOf source = j.matchesOf source := by
  simp only [Join.matchesOf, h.fromAttribute, h.withKey]

theorem merge_eq (h : i.FindsAs j) (row joined : Record) : i.merge row joined = j.merge row joined :=
  Join.merge_congr h.aliasName h.entity h.columns row joined

end Join.FindsAs

mutual

/-- Trees of joins that find the same expand every row alike. -/
theorem expand_congr : ∀ {t u : Tree Join}, Tree.Rel Join.FindsAs t u →
    ∀ row source : Record, expand row source t = expand row source u
  | .node i ts, .node j us, .node hjoin hbranches, row, source => by
      have hbelow : ∀ joined, resolveFrom joined ts [i.merge row joined] =
          resolveFrom joined us [j.merge row joined] := by
        intro joined
        rw [hjoin.merge_eq, resolveFrom_congr hbranches]
      simp only [expand, hjoin.matchesOf_eq, hbelow, hjoin.kind]

theorem resolveFrom_congr : ∀ {ts us : List (Tree Join)}, Tree.ForestRel Join.FindsAs ts us →
    ∀ (source : Record) (rows : List Record), resolveFrom source ts rows = resolveFrom source us rows
  | [], [], .nil, source, rows => rfl
  | t :: ts, u :: us, .cons htree hforest, source, rows => by
      have hhead : ∀ row, expand row source t = expand row source u :=
        fun row => expand_congr htree row source
      simp only [resolveFrom, hhead, resolveFrom_congr hforest]

end

/-! ## Plans for different numbers of rows -/

namespace Database

variable {db : Database} {ctx : Context} {m n : Nat} {parent : Entity} {state : PlanState}

/-- Joins made of one link under one alias for different numbers of rows find the same. -/
theorem findsAs_of_planned {l : LinkSpec} {i j : Join} (hi : l.Planned db ctx m i)
    (hj : l.Planned db ctx n j) (halias : i.aliasName = j.aliasName) : i.FindsAs j := by
  have hentity : i.entity = j.entity := by
    have := hi.entity.symm.trans hj.entity
    exact Except.ok.inj this
  have hto : i.toAttribute = j.toAttribute := hi.toAttribute.trans hj.toAttribute.symm
  obtain ⟨criteria, records, hcriteria, hrecords, hprepare⟩ := hi.candidates
  obtain ⟨criteria', records', hcriteria', hrecords', hprepare'⟩ := hj.candidates
  rw [hentity, halias, hcriteria'] at hcriteria
  cases hcriteria
  rw [hentity, hrecords'] at hrecords
  cases hrecords
  refine ⟨halias, hentity, hi.fromAttribute.trans hj.fromAttribute.symm,
    hi.kind.trans hj.kind.symm, hi.columns.trans hj.columns.symm, fun k => ?_⟩
  rw [Candidates.withKey_prepare hprepare, Candidates.withKey_prepare hprepare', hto]

/-- Planning one link gathers the same and makes joins that find the same. -/
theorem planLink_findsAs {l : LinkSpec} {i j : Join} {state₁ state₂ : PlanState}
    (hm : db.planLink ctx m parent state l = .ok (i, state₁))
    (hn : db.planLink ctx n parent state l = .ok (j, state₂)) : i.FindsAs j ∧ state₁ = state₂ := by
  obtain ⟨-, -, -, hi, hialias, rfl⟩ := planLink_eq_ok hm
  obtain ⟨-, -, -, hj, hjalias, rfl⟩ := planLink_eq_ok hn
  have hfinds := findsAs_of_planned hi hj (hialias.trans hjalias.symm)
  exact ⟨hfinds, by rw [hfinds.aliasName, hfinds.entity]⟩

mutual

theorem planTree_findsAs : ∀ {l : Link} {parent : Entity} {state state₁ state₂ : PlanState}
    {t u : Tree Join}, planTree db ctx m parent state l = .ok (t, state₁) →
      planTree db ctx n parent state l = .ok (u, state₂) →
        Tree.Rel Join.FindsAs t u ∧ state₁ = state₂
  | .node l branches, parent, state, state₁, state₂, t, u, hm, hn => by
      obtain ⟨i, state₃, ts, hi, hts, rfl⟩ := planTree_eq_ok hm
      obtain ⟨j, state₅, us, hj, hus, rfl⟩ := planTree_eq_ok hn
      obtain ⟨hfinds, rfl⟩ := planLink_findsAs hi hj
      rw [← hfinds.entity] at hus
      obtain ⟨hbelow, rfl⟩ := planForest_findsAs hts hus
      exact ⟨.node hfinds hbelow, rfl⟩

theorem planForest_findsAs : ∀ {ls : List Link} {parent : Entity}
    {state state₁ state₂ : PlanState} {ts us : List (Tree Join)},
      planForest db ctx m parent state ls = .ok (ts, state₁) →
        planForest db ctx n parent state ls = .ok (us, state₂) →
          Tree.ForestRel Join.FindsAs ts us ∧ state₁ = state₂
  | [], parent, state, state₁, state₂, ts, us, hm, hn => by
      cases hm
      cases hn
      exact ⟨.nil, rfl⟩
  | l :: ls, parent, state, state₁, state₂, ts, us, hm, hn => by
      obtain ⟨t, state₃, ts', ht, hts, rfl⟩ := planForest_cons_eq_ok hm
      obtain ⟨u, state₅, us', hu, hus, rfl⟩ := planForest_cons_eq_ok hn
      obtain ⟨htree, rfl⟩ := planTree_findsAs ht hu
      obtain ⟨hforest, rfl⟩ := planForest_findsAs hts hus
      exact ⟨.cons htree hforest, rfl⟩

end

/-- **The strategy cannot be observed.**  Whatever numbers of rows two plans expect, their joins
expand every row to the same rows in the same order, or fail alike. -/
theorem resolve_eq_of_plans {links : List Link} {ts us : List (Tree Join)}
    {aliases aliases' : NameMap Entity} (hm : db.plan ctx m parent links = .ok (ts, aliases))
    (hn : db.plan ctx n parent links = .ok (us, aliases')) (row source : Record) :
    resolve ts row source = resolve us row source := by
  obtain ⟨⟨ts', state₁⟩, hts, heq⟩ := map_eq_ok_iff.mp hm
  cases heq
  obtain ⟨⟨us', state₂⟩, hus, heq⟩ := map_eq_ok_iff.mp hn
  cases heq
  obtain ⟨hforest, -⟩ := planForest_findsAs hts hus
  exact resolveFrom_congr hforest source [row]

/-- One account is searched for and looked up, a hundred and one are looked up only; the account
that is joined is the same. -/
theorem resolve_eq_of_sample_plans : ∃ ts us aliases aliases',
    Sample.db.plan Sample.ctx 1 Sample.account Sample.links = .ok (ts, aliases) ∧
      Sample.db.plan Sample.ctx 101 Sample.account Sample.links = .ok (us, aliases') ∧
        resolve ts Sample.contoso Sample.contoso = resolve us Sample.contoso Sample.contoso := by
  obtain ⟨⟨ts, aliases⟩, hm⟩ := exists_eq_ok_of_isOk
    (x := Sample.db.plan Sample.ctx 1 Sample.account Sample.links) (by decide +kernel)
  obtain ⟨⟨us, aliases'⟩, hn⟩ := exists_eq_ok_of_isOk
    (x := Sample.db.plan Sample.ctx 101 Sample.account Sample.links) (by decide +kernel)
  exact ⟨ts, us, aliases, aliases', hm, hn, resolve_eq_of_plans hm hn _ _⟩

end Database

end RecordQuery
