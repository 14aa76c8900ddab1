import Mathlib.Data.List.Forall2
import RecordQuery.Proofs.Join.Candidates
import RecordQuery.Proofs.NameMap
import RecordQuery.Query.Plan

/-!
# Planned joins

What a successful plan says of every link and the join made of it.

*Trees.*  A plan keeps the shape of the links.  `Tree.Rel` relates trees of one shape by their
labels, so a fact about single links and joins becomes one about whole plans.

*Links.*  `Database.planLink_eq_ok` takes the planning of one link apart: the checks that it
passed, the join, and what was gathered.  `LinkSpec.Planned` is the part that speaks of the link
and the join alone, and `Database.planForest_rel` carries it to the whole forest.  A forest is taken
apart with `Database.planTree_eq_ok` and `Database.planForest_cons_eq_ok`.

*Aliases.*  A plan gives out every alias once (`PlanState.GivesOut`), so its joins are told apart by
their aliases (`Database.plan_aliases`).
-/

namespace RecordQuery

open Text

/-! ## Trees of one shape -/

namespace Tree

mutual

/-- Two trees have one shape, and labels at the same place are related. -/
inductive Rel (R : α → β → Prop) : Tree α → Tree β → Prop where
  | node {a : α} {b : β} {ts : List (Tree α)} {us : List (Tree β)} :
      R a b → ForestRel R ts us → Rel R (.node a ts) (.node b us)

/-- Two forests have one shape, and labels at the same place are related. -/
inductive ForestRel (R : α → β → Prop) : List (Tree α) → List (Tree β) → Prop where
  | nil : ForestRel R [] []
  | cons {t : Tree α} {u : Tree β} {ts : List (Tree α)} {us : List (Tree β)} :
      Rel R t u → ForestRel R ts us → ForestRel R (t :: ts) (u :: us)

end

mutual

theorem Rel.mono {R S : α → β → Prop} (h : ∀ a b, R a b → S a b) : ∀ {t : Tree α} {u : Tree β},
    Rel R t u → Rel S t u
  | .node _ _, .node _ _, .node hlabel hbelow => .node (h _ _ hlabel) (hbelow.mono h)

theorem ForestRel.mono {R S : α → β → Prop} (h : ∀ a b, R a b → S a b) :
    ∀ {ts : List (Tree α)} {us : List (Tree β)}, ForestRel R ts us → ForestRel S ts us
  | [], [], .nil => .nil
  | _ :: _, _ :: _, .cons htree hforest => .cons (htree.mono h) (hforest.mono h)

end

mutual

theorem Rel.labels {R : α → β → Prop} : ∀ {t : Tree α} {u : Tree β}, Rel R t u →
    List.Forall₂ R t.labels u.labels
  | .node _ _, .node _ _, .node hlabel hbelow => .cons hlabel hbelow.labels

/-- Forests of one shape list related labels. -/
theorem ForestRel.labels {R : α → β → Prop} : ∀ {ts : List (Tree α)} {us : List (Tree β)},
    ForestRel R ts us → List.Forall₂ R (forestLabels ts) (forestLabels us)
  | [], [], .nil => .nil
  | _ :: _, _ :: _, .cons htree hforest => List.rel_append htree.labels hforest.labels

end

mutual

theorem Rel.of_labels {R S : α → β → Prop} : ∀ {t : Tree α} {u : Tree β}, Rel R t u →
    List.Forall₂ S t.labels u.labels → Rel S t u
  | .node _ _, .node _ _, .node _ hbelow, .cons hlabel hlabels =>
      .node hlabel (hbelow.of_labels hlabels)

/-- Forests of one shape are related by what relates their lists of labels. -/
theorem ForestRel.of_labels {R S : α → β → Prop} : ∀ {ts : List (Tree α)} {us : List (Tree β)},
    ForestRel R ts us → List.Forall₂ S (forestLabels ts) (forestLabels us) → ForestRel S ts us
  | [], [], .nil, _ => .nil
  | t :: ts, u :: us, .cons htree hforest, h => by
      have hlength := htree.labels.length_eq
      have hfirst := List.forall₂_take t.labels.length h
      have hrest := List.forall₂_drop t.labels.length h
      rw [forestLabels, forestLabels] at hfirst hrest
      rw [List.take_left, hlength, List.take_left] at hfirst
      rw [List.drop_left, hlength, List.drop_left] at hrest
      exact .cons (htree.of_labels hfirst) (hforest.of_labels hrest)

end

end Tree

/-! ## Single links -/

/-- Merging reads neither the candidates of a join nor the attributes that it compares. -/
theorem Join.merge_congr {i j : Join} (halias : i.aliasName = j.aliasName)
    (hentity : i.entity = j.entity) (hcolumns : i.columns = j.columns) (row joined : Record) :
    i.merge row joined = j.merge row joined := by
  obtain ⟨a, e, f, t, k, c, found⟩ := i
  obtain ⟨a', e', f', t', k', c', found'⟩ := j
  cases halias
  cases hentity
  cases hcolumns
  rfl

/-- The join is the one that a plan for some rows makes of the link. -/
structure LinkSpec.Planned (db : Database) (ctx : Context) (rows : Nat) (l : LinkSpec)
    (j : Join) : Prop where
  entity : db.schema.find l.target = .ok j.entity
  fromAttribute : j.fromAttribute = lowercase l.fromAttribute
  toAttribute : j.toAttribute = lowercase l.toAttribute
  kind : j.kind = l.kind
  columns : j.columns = l.columns
  /-- The records that satisfy the criteria were made ready. -/
  candidates : ∃ criteria records,
    l.criteria.compile (.link j.entity j.aliasName) ctx = .ok criteria ∧
      db.select ctx j.entity criteria = .ok records ∧
      Candidates.prepare (.select rows records.length) j.toAttribute records = .ok j.candidates

namespace Database

variable {db : Database} {ctx : Context} {rows : Nat} {parent : Entity} {state state' : PlanState}

/-- A link that was planned had a new alias, started from the entity type above it and, in strict
mode, named declared attributes. -/
theorem planLink_eq_ok {l : LinkSpec} {j : Join}
    (h : db.planLink ctx rows parent state l = .ok (j, state')) :
    NameMap.contains state.aliases j.aliasName = false ∧
      equalIgnoringAsciiCase l.source parent.name = true ∧
      (ctx.strict = true → l.requireDeclared parent j.entity = .ok ()) ∧
      l.Planned db ctx rows j ∧
      j.aliasName = l.aliasAt (state.position + 1) ∧
      state' = ⟨NameMap.insert state.aliases j.aliasName j.entity, state.position + 1⟩ := by
  unfold planLink at h
  simp only [throw_bind, refuse_eq_ok_iff] at h
  obtain ⟨hnew, hsource, h⟩ := h
  obtain ⟨e, he, h⟩ := bind_eq_ok_iff.mp h
  obtain ⟨hstrict, h⟩ := check_eq_ok_iff.mp h
  obtain ⟨criteria, hcriteria, h⟩ := bind_eq_ok_iff.mp h
  obtain ⟨records, hrecords, h⟩ := bind_eq_ok_iff.mp h
  obtain ⟨candidates, hcandidates, h⟩ := bind_eq_ok_iff.mp h
  cases h
  exact ⟨by simpa using hnew, by simpa using hsource, hstrict,
    ⟨he, rfl, rfl, rfl, rfl, criteria, records, hcriteria, hrecords, hcandidates⟩, rfl, rfl⟩

/-- A link is planned as any join that a plan may make of it, if its checks pass. -/
theorem planLink_of_planned {l : LinkSpec} {j : Join}
    (hnew : NameMap.contains state.aliases j.aliasName = false)
    (hsource : equalIgnoringAsciiCase l.source parent.name = true)
    (hstrict : ctx.strict = true → l.requireDeclared parent j.entity = .ok ())
    (hplanned : l.Planned db ctx rows j)
    (halias : j.aliasName = l.aliasAt (state.position + 1)) :
    db.planLink ctx rows parent state l =
      .ok (j, ⟨NameMap.insert state.aliases j.aliasName j.entity, state.position + 1⟩) := by
  obtain ⟨criteria, records, hcriteria, hrecords, hcandidates⟩ := hplanned.candidates
  obtain ⟨aliasName, e, fromAttribute, toAttribute, kind, columns, candidates⟩ := j
  cases hplanned.fromAttribute
  cases hplanned.toAttribute
  cases hplanned.kind
  cases hplanned.columns
  subst halias
  unfold planLink
  simp only [throw_bind, hnew, hsource, Bool.not_true, Bool.false_eq_true, if_false]
  refine bind_eq_ok_iff.mpr ⟨e, hplanned.entity, check_eq_ok_iff.mpr ⟨hstrict, ?_⟩⟩
  exact bind_eq_ok_iff.mpr ⟨criteria, hcriteria, bind_eq_ok_iff.mpr ⟨records, hrecords,
    bind_eq_ok_iff.mpr ⟨candidates, hcandidates, rfl⟩⟩⟩

/-! ## Whole plans -/

/-- The links below a link start from the entity type that it joins. -/
theorem planTree_eq_ok {parent : Entity} {state state' : PlanState} {l : LinkSpec}
    {branches : List Link} {t : Tree Join}
    (h : planTree db ctx rows parent state (.node l branches) = .ok (t, state')) :
    ∃ j state₁ below, db.planLink ctx rows parent state l = .ok (j, state₁) ∧
      planForest db ctx rows j.entity state₁ branches = .ok (below, state') ∧
        t = .node j below := by
  simp only [planTree] at h
  obtain ⟨⟨j, state₁⟩, hj, h⟩ := bind_eq_ok_iff.mp h
  obtain ⟨⟨below, state₂⟩, hbelow, h⟩ := bind_eq_ok_iff.mp h
  cases h
  exact ⟨j, state₁, below, hj, hbelow, rfl⟩

/-- Links side by side start from one entity type, each in the state that those before it leave. -/
theorem planForest_cons_eq_ok {parent : Entity} {state state' : PlanState} {l : Link}
    {ls : List Link} {ts : List (Tree Join)}
    (h : planForest db ctx rows parent state (l :: ls) = .ok (ts, state')) :
    ∃ t state₁ rest, planTree db ctx rows parent state l = .ok (t, state₁) ∧
      planForest db ctx rows parent state₁ ls = .ok (rest, state') ∧ ts = t :: rest := by
  simp only [planForest] at h
  obtain ⟨⟨t, state₁⟩, ht, h⟩ := bind_eq_ok_iff.mp h
  obtain ⟨⟨rest, state₂⟩, hrest, h⟩ := bind_eq_ok_iff.mp h
  cases h
  exact ⟨t, state₁, rest, ht, hrest, rfl⟩

/-- The plan of a link without links below it holds the join of that link alone. -/
theorem plan_single {l : LinkSpec} {joins : List (Tree Join)} {aliases : NameMap Entity}
    (h : db.plan ctx rows parent [.node l []] = .ok (joins, aliases)) :
    ∃ j, joins = [.node j []] ∧ l.Planned db ctx rows j ∧ j.aliasName = l.aliasAt 1 ∧
      aliases = [(j.aliasName, j.entity)] := by
  obtain ⟨⟨forest, state⟩, hforest, heq⟩ := map_eq_ok_iff.mp h
  cases heq
  obtain ⟨t, state₁, rest, htree, hrest, rfl⟩ := planForest_cons_eq_ok hforest
  cases hrest
  obtain ⟨j, state₂, below, hj, hbelow, rfl⟩ := planTree_eq_ok htree
  cases hbelow
  obtain ⟨-, -, -, hplanned, halias, rfl⟩ := planLink_eq_ok hj
  exact ⟨j, rfl, hplanned, halias, rfl⟩

/-- Planning a single link relates it to its join and keeps a property of the state. -/
def EachLink (db : Database) (ctx : Context) (rows : Nat) (R : LinkSpec → Join → Prop)
    (P : PlanState → Prop) : Prop :=
  ∀ {parent : Entity} {state state' : PlanState} {l : LinkSpec} {j : Join},
    db.planLink ctx rows parent state l = .ok (j, state') → R l j ∧ (P state → P state')

section

variable {R : LinkSpec → Join → Prop} {P : PlanState → Prop}

mutual

theorem planTree_induction (hlink : EachLink db ctx rows R P) : ∀ {l : Link} {parent : Entity}
    {state state' : PlanState} {t : Tree Join},
    planTree db ctx rows parent state l = .ok (t, state') →
      Tree.Rel R l t ∧ (P state → P state')
  | .node l branches, parent, state, state', t, h => by
      obtain ⟨j, state₁, below, hj, hbelow, rfl⟩ := planTree_eq_ok h
      obtain ⟨hlabel, hfirst⟩ := hlink hj
      obtain ⟨hrel, hrest⟩ := planForest_induction hlink hbelow
      exact ⟨.node hlabel hrel, fun hstate => hrest (hfirst hstate)⟩

/-- What holds of every single link and its join, and what every single link keeps of the state,
holds of a whole plan. -/
theorem planForest_induction (hlink : EachLink db ctx rows R P) : ∀ {ls : List Link}
    {parent : Entity} {state state' : PlanState} {ts : List (Tree Join)},
    planForest db ctx rows parent state ls = .ok (ts, state') →
      Tree.ForestRel R ls ts ∧ (P state → P state')
  | [], parent, state, state', ts, h => by
      cases h
      exact ⟨.nil, id⟩
  | l :: ls, parent, state, state', ts, h => by
      obtain ⟨t, state₁, forest, ht, hforest, rfl⟩ := planForest_cons_eq_ok h
      obtain ⟨htree, hfirst⟩ := planTree_induction hlink ht
      obtain ⟨hrel, hrest⟩ := planForest_induction hlink hforest
      exact ⟨.cons htree hrel, fun hstate => hrest (hfirst hstate)⟩

end

end

/-- Every join of a planned forest is the one planned for the link at its place. -/
theorem planForest_rel {ls : List Link} {ts : List (Tree Join)}
    (h : planForest db ctx rows parent state ls = .ok (ts, state')) :
    Tree.ForestRel (LinkSpec.Planned db ctx rows) ls ts := by
  refine (planForest_induction (P := fun _ => True) (fun hj => ?_) h).1
  obtain ⟨-, -, -, hplanned, -, -⟩ := planLink_eq_ok hj
  exact ⟨hplanned, id⟩

/-- The joins of a plan bear the aliases that their links have of their own. -/
theorem planForest_names {ls : List Link} {ts : List (Tree Join)}
    (h : planForest db ctx rows parent state ls = .ok (ts, state')) :
    Tree.ForestRel (fun l j => ∀ a, l.aliasName = some a → j.aliasName = a) ls ts := by
  refine (planForest_induction (P := fun _ => True) (fun hj => ⟨fun a ha => ?_, id⟩) h).1
  obtain ⟨-, -, -, -, hname, -⟩ := planLink_eq_ok hj
  rw [hname, LinkSpec.aliasAt, ha]
  rfl

end Database

/-! ## Aliases -/

/-- Planning led from one state to another and gave out aliases: new ones, and each once. -/
structure PlanState.GivesOut (state : PlanState) (given : List String) (state' : PlanState) :
    Prop where
  contains : ∀ a, NameMap.contains state'.aliases a = true ↔
    NameMap.contains state.aliases a = true ∨ a ∈ given
  fresh : ∀ a ∈ given, NameMap.contains state.aliases a = false
  nodup : given.Nodup

namespace PlanState.GivesOut

variable {state state' state'' : PlanState} {given given' : List String}

theorem nil : state.GivesOut [] state :=
  ⟨fun a => by simp, fun a h => by simp at h, List.nodup_nil⟩

theorem append (h : state.GivesOut given state') (h' : state'.GivesOut given' state'') :
    state.GivesOut (given ++ given') state'' where
  contains a := by rw [h'.contains, h.contains, List.mem_append, or_assoc]
  fresh a ha := by
    rcases List.mem_append.mp ha with hfirst | hrest
    · exact h.fresh a hfirst
    · refine Bool.eq_false_iff.mpr fun hold => ?_
      exact Bool.eq_false_iff.mp (h'.fresh a hrest) ((h.contains a).mpr (.inl hold))
  nodup := by
    refine List.nodup_append.mpr ⟨h.nodup, h'.nodup, ?_⟩
    rintro a ha b hb rfl
    exact Bool.eq_false_iff.mp (h'.fresh a hb) ((h.contains a).mpr (.inr ha))

end PlanState.GivesOut

namespace Database

variable {db : Database} {ctx : Context} {rows : Nat}

theorem planLink_givesOut {l : LinkSpec} {j : Join} {parent : Entity} {state state' : PlanState}
    (h : db.planLink ctx rows parent state l = .ok (j, state')) :
    state.GivesOut [j.aliasName] state' := by
  obtain ⟨hnew, -, -, -, -, rfl⟩ := planLink_eq_ok h
  refine ⟨fun a => ?_, List.forall_mem_singleton.mpr hnew, List.pairwise_singleton ..⟩
  rw [NameMap.contains_insert, List.mem_singleton, or_comm, @eq_comm _ a]

mutual

theorem planTree_givesOut : ∀ {l : Link} {parent : Entity} {state state' : PlanState}
    {t : Tree Join}, planTree db ctx rows parent state l = .ok (t, state') →
      state.GivesOut (t.labels.map (·.aliasName)) state'
  | .node l branches, parent, state, state', t, h => by
      obtain ⟨j, state₁, below, hj, hbelow, rfl⟩ := planTree_eq_ok h
      exact (planLink_givesOut hj).append (planForest_givesOut hbelow)

theorem planForest_givesOut : ∀ {ls : List Link} {parent : Entity} {state state' : PlanState}
    {ts : List (Tree Join)}, planForest db ctx rows parent state ls = .ok (ts, state') →
      state.GivesOut ((Tree.forestLabels ts).map (·.aliasName)) state'
  | [], parent, state, state', ts, h => by
      cases h
      exact .nil
  | l :: ls, parent, state, state', ts, h => by
      obtain ⟨t, state₁, forest, ht, hforest, rfl⟩ := planForest_cons_eq_ok h
      rw [Tree.forestLabels, List.map_append]
      exact (planTree_givesOut ht).append (planForest_givesOut hforest)

end

/-- The joins of a plan have different aliases, and the map of the plan has these. -/
theorem plan_aliases {parent : Entity} {links : List Link} {joins : List (Tree Join)}
    {aliases : NameMap Entity} (h : db.plan ctx rows parent links = .ok (joins, aliases)) :
    ((Tree.forestLabels joins).map (·.aliasName)).Nodup ∧
      ∀ a, NameMap.contains aliases a = true ↔ ∃ j ∈ Tree.forestLabels joins, j.aliasName = a := by
  obtain ⟨⟨forest, state⟩, hforest, heq⟩ := map_eq_ok_iff.mp h
  cases heq
  have hgiven := planForest_givesOut hforest
  refine ⟨hgiven.nodup, fun a => ?_⟩
  rw [hgiven.contains, List.mem_map]
  simp [PlanState.start, NameMap.contains, NameMap.get?]

end Database

end RecordQuery
