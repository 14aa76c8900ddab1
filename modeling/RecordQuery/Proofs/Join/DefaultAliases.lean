import Mathlib.Data.List.Nodup
import RecordQuery.Proofs.Join.Planned
import RecordQuery.Proofs.Query.Failures
import RecordQuery.Proofs.Sample
import RecordQuery.Proofs.Text.Digits

/-!
# Aliases that links are given

A link without an alias of its own is named by the entity type it joins and its position.  The name
may end with digits, so two such links can be given one alias after all.

*Names and numbers.*  `RunTogether` says when a name and a position read like another name and a
later position: the first name has the leading digits of the later position behind the second one,
and the digits that are left are the earlier position.

*Positions.*  The aliases that links are given are different just when no two links are given one
(`LinkSpec.Repeat`).  Among links without aliases of their own it is those that clash
(`LinkSpec.repeat_iff_clash`).

*Plans.*  A plan gives out the aliases in depth-first order (`Database.planForest_aliases`).  It
reports a repeated alias only where the aliases up to there repeat one
(`Database.planForest_repeats`), for everything else that a link is checked for fails in another way.
`Database.plan_default_aliases` puts both together.
-/

namespace RecordQuery

open Text

/-! ## Names and numbers -/

/-- The first name with the first number behind it is the second name with the second number behind
it, because the second number starts with digits that belong to the first name. -/
def RunTogether (x : String) (m : Nat) (y : String) (n : Nat) : Prop :=
  ∃ digits, digits ≠ "" ∧ x = y ++ digits ∧ toString n = digits ++ toString m

theorem runTogether_iff {x y : String} {m n : Nat} (hlt : m < n) :
    RunTogether x m y n ↔ x ++ toString m = y ++ toString n := by
  constructor
  · rintro ⟨digits, -, rfl, hn⟩
    rw [hn, String.append_assoc]
  · intro h
    have hchars : x.toList ++ natDigits m = y.toList ++ natDigits n := by
      simpa only [String.toList_append, toList_toString] using congrArg String.toList h
    have hne : natDigits m ≠ natDigits n := fun heq => Nat.ne_of_lt hlt (natDigits_injective heq)
    have hlength := length_natDigits_mono (Nat.le_of_lt hlt)
    rcases List.append_eq_append_iff.mp hchars with ⟨ds, -, hm⟩ | ⟨ds, hx, hn⟩
    · -- the earlier number would have more digits
      have hnil : ds = [] := by
        rw [hm, List.length_append] at hlength
        exact List.length_eq_zero_iff.mp (by omega)
      rw [hnil] at hm
      exact absurd hm hne
    · refine ⟨String.ofList ds, fun hempty => hne ?_, ?_, ?_⟩
      · rw [hn, String.ofList_eq_empty_iff.mp hempty, List.nil_append]
      · rw [← String.toList_inj, String.toList_append, String.toList_ofList, hx]
      · rw [← String.toList_inj, String.toList_append, String.toList_ofList, toList_toString,
          toList_toString, hn]

/-! ## Aliases by position -/

/-- The aliases of links that stand behind a number of others. -/
def aliasesFrom (position : Nat) (ls : List LinkSpec) : List String :=
  ls.mapIdx fun i l => l.aliasAt (position + i + 1)

theorem aliasesFrom_cons (position : Nat) (l : LinkSpec) (ls : List LinkSpec) :
    aliasesFrom position (l :: ls) =
      l.aliasAt (position + 1) :: aliasesFrom (position + 1) ls := by
  simp only [aliasesFrom, List.mapIdx_cons, Nat.add_assoc, Nat.add_comm 1]

theorem aliasesFrom_append (position : Nat) (ls ls' : List LinkSpec) :
    aliasesFrom position (ls ++ ls') =
      aliasesFrom position ls ++ aliasesFrom (position + ls.length) ls' := by
  simp only [aliasesFrom, List.mapIdx_append, Nat.add_comm, Nat.add_left_comm]

/-- Two of the links in depth-first order are given one alias. -/
def LinkSpec.Repeat (ls : List LinkSpec) : Prop :=
  ∃ (i j : Nat) (l l' : LinkSpec), i < j ∧ ls[i]? = some l ∧ ls[j]? = some l' ∧
    l.aliasAt (i + 1) = l'.aliasAt (j + 1)

theorem nodup_aliasesFrom_iff_not_repeat {ls : List LinkSpec} :
    (aliasesFrom 0 ls).Nodup ↔ ¬ LinkSpec.Repeat ls := by
  have hnamed : ∀ {i : Nat} {l : LinkSpec}, ls[i]? = some l →
      (aliasesFrom 0 ls)[i]? = some (l.aliasAt (i + 1)) := by
    intro i l hl
    simp [aliasesFrom, hl]
  rw [List.nodup_iff_getElem?_ne_getElem?]
  constructor
  · rintro hne ⟨i, j, l, l', hlt, hl, hl', halias⟩
    obtain ⟨hj, -⟩ := List.getElem?_eq_some_iff.mp hl'
    refine hne i j hlt (by rwa [aliasesFrom, List.length_mapIdx]) ?_
    rw [hnamed hl, hnamed hl', halias]
  · intro hapart i j hlt hj heq
    rw [aliasesFrom, List.length_mapIdx] at hj
    have hl := List.getElem?_eq_getElem (Nat.lt_trans hlt hj)
    have hl' := List.getElem?_eq_getElem hj
    rw [hnamed hl, hnamed hl', Option.some.injEq] at heq
    exact hapart ⟨i, j, _, _, hlt, hl, hl', heq⟩

/-- Two of the links, named by their entity types and positions, have one alias. -/
def LinkSpec.Clash (ls : List LinkSpec) : Prop :=
  ∃ i j l l', i < j ∧ ls[i]? = some l ∧ ls[j]? = some l' ∧
    RunTogether l.target (i + 1) l'.target (j + 1)

theorem LinkSpec.repeat_iff_clash {ls : List LinkSpec} (h : ∀ l ∈ ls, l.aliasName = none) :
    Repeat ls ↔ Clash ls := by
  have hnamed : ∀ {i : Nat} {l : LinkSpec}, ls[i]? = some l →
      l.aliasAt (i + 1) = l.target ++ toString (i + 1) := by
    intro i l hl
    rw [aliasAt, h l (List.mem_of_getElem? hl), Option.getD_none]
  constructor
  · rintro ⟨i, j, l, l', hlt, hl, hl', halias⟩
    rw [hnamed hl, hnamed hl'] at halias
    exact ⟨i, j, l, l', hlt, hl, hl', (runTogether_iff (Nat.succ_lt_succ hlt)).mpr halias⟩
  · rintro ⟨i, j, l, l', hlt, hl, hl', htogether⟩
    refine ⟨i, j, l, l', hlt, hl, hl', ?_⟩
    rw [hnamed hl, hnamed hl', (runTogether_iff (Nat.succ_lt_succ hlt)).mp htogether]

/-- Links without aliases of their own have different aliases unless two of them clash. -/
theorem nodup_aliasesFrom_iff {ls : List LinkSpec} (h : ∀ l ∈ ls, l.aliasName = none) :
    (aliasesFrom 0 ls).Nodup ↔ ¬ LinkSpec.Clash ls := by
  rw [nodup_aliasesFrom_iff_not_repeat, LinkSpec.repeat_iff_clash h]

/-! ## Single links -/

/-- The failure is of a kind that a link has, apart from its alias. -/
inductive QueryError.OfLink : QueryError → Prop where
  | ofCondition {e : QueryError} : e.OfCondition → OfLink e
  | unknownEntity (name : String) : OfLink (.unknownEntity name)
  | detached (aliasName source parent : String) :
      OfLink (.malformed (.detachedLink aliasName source parent))

theorem QueryError.OfLink.ne_duplicate {e : QueryError} (h : e.OfLink) (a : String) :
    e ≠ .malformed (.duplicateAlias a) := by
  rintro rfl
  cases h with
  | ofCondition h => cases h

theorem FailsOnly.ofLink {x : Except QueryError α} (hx : FailsOnly QueryError.OfCondition x) :
    FailsOnly QueryError.OfLink x := fun e he => .ofCondition (hx e he)

theorem failsOnly_joinKey? (name : String) (r : Record) :
    FailsOnly QueryError.OfCondition (joinKey? name r) := by
  unfold joinKey?
  split
  next v _ => exact (Key.failsOnly_ofValue name v).map _
  next => exact .ok none

theorem Candidates.failsOnly_prepare (strategy : JoinStrategy) (name : String) (rs : List Record) :
    FailsOnly QueryError.OfCondition (prepare strategy name rs) := by
  cases strategy with
  | nestedLoop => exact .ok _
  | hashJoin =>
      exact (FailsOnly.mapM (fun r => (failsOnly_joinKey? name r).map _) rs).bind fun _ => .ok _

theorem LinkSpec.failsOnly_requireDeclared (l : LinkSpec) (parent e : Entity) :
    FailsOnly QueryError.OfCondition (l.requireDeclared parent e) := by
  have hrequire : ∀ (e : Entity) name, FailsOnly QueryError.OfCondition (e.require name) :=
    fun e name => .ite (.ok ()) (.error (.unknownAttribute ..))
  exact (hrequire parent _).bind fun _ => .forM (hrequire e) _

namespace Database

variable {db : Database} {ctx : Context} {rows : Nat}

theorem failsOnly_find (name : String) :
    FailsOnly QueryError.OfLink (db.schema.find name) := by
  unfold Schema.find
  split
  next e _ => exact .ok e
  next => exact .error (.unknownEntity name)

theorem failsOnly_select (e : Entity) (criteria : Filter CompiledCondition) :
    FailsOnly QueryError.OfCondition (db.select ctx e criteria) :=
  (FailsOnly.mapM (fun r => (criteria.failsOnly_evaluate ctx r).map _) _).bind fun _ => .ok _

/-- A link is refused for its alias only where the alias was given out before. -/
theorem contains_of_planLink {parent : Entity} {state : PlanState} {l : LinkSpec} {a : String}
    (h : db.planLink ctx rows parent state l = .error (.malformed (.duplicateAlias a))) :
    NameMap.contains state.aliases a = true ∧ a = l.aliasAt (state.position + 1) := by
  unfold planLink at h
  simp only [throw_bind] at h
  split at h
  next hold =>
    cases h
    exact ⟨hold, rfl⟩
  next hnew =>
    refine absurd rfl (QueryError.OfLink.ne_duplicate ?_ a)
    -- what stands behind the check of the alias fails for other reasons
    refine FailsOnly.ite (.error (.detached ..)) ?_ _ h
    refine (failsOnly_find l.target).bind fun e => ?_
    refine .check (l.failsOnly_requireDeclared parent e).ofLink ?_
    exact (l.criteria.failsOnly_compile _ ctx).ofLink.bind fun criteria =>
      (failsOnly_select e criteria).ofLink.bind fun records =>
        (Candidates.failsOnly_prepare _ _ records).ofLink.bind fun _ => .ok _

/-! ## Plans -/

mutual

theorem planTree_aliases : ∀ {t : Link} {parent : Entity} {state state' : PlanState}
    {u : Tree Join}, planTree db ctx rows parent state t = .ok (u, state') →
      u.labels.map (·.aliasName) = aliasesFrom state.position t.labels ∧
        state'.position = state.position + t.labels.length
  | .node l branches, parent, state, state', u, h => by
      obtain ⟨j, state₁, below, hj, hbelow, rfl⟩ := planTree_eq_ok h
      obtain ⟨-, -, -, -, halias, rfl⟩ := planLink_eq_ok hj
      obtain ⟨hnames, hposition⟩ := planForest_aliases hbelow
      rw [Tree.labels, Tree.labels, List.map_cons, aliasesFrom_cons, hnames, halias, hposition,
        List.length_cons]
      exact ⟨rfl, Nat.succ_add_eq_add_succ ..⟩

/-- The joins of a plan have the aliases of their links at their positions in depth-first order. -/
theorem planForest_aliases : ∀ {ts : List Link} {parent : Entity} {state state' : PlanState}
    {us : List (Tree Join)}, planForest db ctx rows parent state ts = .ok (us, state') →
      (Tree.forestLabels us).map (·.aliasName) =
          aliasesFrom state.position (Tree.forestLabels ts) ∧
        state'.position = state.position + (Tree.forestLabels ts).length
  | [], parent, state, state', us, h => by
      cases h
      exact ⟨rfl, rfl⟩
  | t :: ts, parent, state, state', us, h => by
      obtain ⟨u, state₁, rest, hu, hrest, rfl⟩ := planForest_cons_eq_ok h
      obtain ⟨hfirst, hposition₁⟩ := planTree_aliases hu
      obtain ⟨hlater, hposition⟩ := planForest_aliases hrest
      rw [Tree.forestLabels, Tree.forestLabels, List.map_append, aliasesFrom_append, hfirst, hlater,
        hposition, hposition₁, List.length_append]
      exact ⟨rfl, Nat.add_assoc ..⟩

end

/-- An alias of some links in depth-first order was given out before, or to a link before. -/
def Repeats (state : PlanState) (ls : List LinkSpec) (a : String) : Prop :=
  ∃ before after, aliasesFrom state.position ls = before ++ a :: after ∧
    (NameMap.contains state.aliases a = true ∨ a ∈ before)

theorem Repeats.append {state : PlanState} {ls : List LinkSpec} {a : String}
    (h : Repeats state ls a) (ls' : List LinkSpec) : Repeats state (ls ++ ls') a := by
  obtain ⟨before, after, heq, hold⟩ := h
  exact ⟨before, after ++ _, by rw [aliasesFrom_append, heq, List.append_assoc]; rfl, hold⟩

/-- What is repeated behind links that were planned is repeated among all of them. -/
theorem Repeats.behind {state state' : PlanState} {ls ls' : List LinkSpec} {a : String}
    (hgiven : state.GivesOut (aliasesFrom state.position ls) state')
    (hposition : state'.position = state.position + ls.length) (h : Repeats state' ls' a) :
    Repeats state (ls ++ ls') a := by
  obtain ⟨before, after, heq, hold⟩ := h
  refine ⟨aliasesFrom state.position ls ++ before, after, ?_, ?_⟩
  · rw [aliasesFrom_append, ← hposition, heq, List.append_assoc]
  · rw [hgiven.contains, or_assoc] at hold
    rwa [List.mem_append]

mutual

theorem planTree_repeats : ∀ {t : Link} {parent : Entity} {state : PlanState} {a : String},
    planTree db ctx rows parent state t = .error (.malformed (.duplicateAlias a)) →
      Repeats state t.labels a
  | .node l branches, parent, state, a, h => by
      simp only [planTree] at h
      cases hj : db.planLink ctx rows parent state l with
      | error failure =>
          rw [hj] at h
          cases h
          obtain ⟨hold, rfl⟩ := contains_of_planLink hj
          exact ⟨[], _, aliasesFrom_cons .., .inl hold⟩
      | ok p =>
          obtain ⟨j, state₁⟩ := p
          simp only [hj, ok_bind] at h
          have hgiven := planLink_givesOut hj
          obtain ⟨-, -, -, -, halias, rfl⟩ := planLink_eq_ok hj
          have hname : aliasesFrom state.position [l] = [j.aliasName] := by
            rw [aliasesFrom_cons, ← halias]
            rfl
          rw [← hname] at hgiven
          cases hbelow : planForest db ctx rows j.entity _ branches with
          | error failure =>
              rw [hbelow] at h
              cases h
              exact (planForest_repeats hbelow).behind hgiven rfl
          | ok below =>
              rw [hbelow] at h
              cases h

/-- A plan reports a repeated alias only where one is repeated. -/
theorem planForest_repeats : ∀ {ts : List Link} {parent : Entity} {state : PlanState} {a : String},
    planForest db ctx rows parent state ts = .error (.malformed (.duplicateAlias a)) →
      Repeats state (Tree.forestLabels ts) a
  | [], parent, state, a, h => by cases h
  | t :: ts, parent, state, a, h => by
      simp only [planForest] at h
      cases ht : planTree db ctx rows parent state t with
      | error failure =>
          rw [ht] at h
          cases h
          exact (planTree_repeats ht).append _
      | ok p =>
          obtain ⟨u, state₁⟩ := p
          simp only [ht, ok_bind] at h
          have hgiven := planTree_givesOut ht
          obtain ⟨hnames, hposition⟩ := planTree_aliases ht
          rw [hnames] at hgiven
          cases hrest : planForest db ctx rows parent state₁ ts with
          | error failure =>
              rw [hrest] at h
              cases h
              exact (planForest_repeats hrest).behind hgiven hposition
          | ok rest =>
              rw [hrest] at h
              cases h

end

/-- **Default aliases.**  Links without aliases of their own are refused for a duplicate alias only
where two of them clash, and where two clash they cannot be planned. -/
theorem plan_default_aliases {parent : Entity} {links : List Link}
    (hdefault : ∀ l ∈ Tree.forestLabels links, l.aliasName = none) :
    (∀ a, db.plan ctx rows parent links = .error (.malformed (.duplicateAlias a)) →
        LinkSpec.Clash (Tree.forestLabels links)) ∧
      (LinkSpec.Clash (Tree.forestLabels links) →
        ∃ failure, db.plan ctx rows parent links = .error failure) := by
  have hnodup := nodup_aliasesFrom_iff hdefault
  constructor
  · intro a h
    cases hforest : db.planForest ctx rows parent .start links with
    | ok p =>
        rw [plan, hforest] at h
        cases h
    | error failure =>
        rw [plan, hforest] at h
        cases h
        obtain ⟨before, after, heq, hold | hbefore⟩ := planForest_repeats hforest
        · cases hold
        · refine Classical.byContradiction fun hapart => ?_
          have hall : (before ++ a :: after).Nodup := heq ▸ hnodup.mpr hapart
          exact (List.nodup_append.mp hall).2.2 a hbefore a (.head _) rfl
  · rw [exists_eq_error_iff]
    rintro hclash ⟨⟨joins, aliases⟩, hplan⟩
    obtain ⟨⟨ts, state⟩, hts, -⟩ := map_eq_ok_iff.mp hplan
    have hall := (planForest_givesOut hts).nodup
    rw [(planForest_aliases hts).1] at hall
    exact hnodup.mp hall hclash

end Database

namespace Sample

/-- Two entity types whose names differ by a digit. -/
def digitDb : Database where
  store := ⟨[]⟩
  schema := Schema.ofEntities 1 default [Entity.new "a" "aid", Entity.new "a1" "a1id"]

/-- A link from `a` to another entity type, without an alias. -/
def digitLink (target : String) : Link :=
  .node ⟨"a", "x", target, "x", .leftOuter, none, .empty, .empty⟩ []

/-- The entity type `a1` at the first position, and `a` at the eleventh. -/
def digitLinks : List Link := digitLink "a1" :: List.replicate 10 (digitLink "a")

/-- The two links clash, so the plan fails; with one link less it does not. -/
theorem plan_default_aliases_digits :
    (∀ l ∈ Tree.forestLabels digitLinks, l.aliasName = none) ∧
      LinkSpec.Clash (Tree.forestLabels digitLinks) ∧
      (∃ failure, digitDb.plan ctx 1 (Entity.new "a" "aid") digitLinks = .error failure) ∧
      (digitDb.plan ctx 1 (Entity.new "a" "aid") (digitLinks.take 10)).isOk = true := by
  have hdefault : ∀ l ∈ Tree.forestLabels digitLinks, l.aliasName = none := by decide +kernel
  have hclash : LinkSpec.Clash (Tree.forestLabels digitLinks) :=
    ⟨0, 10, _, _, by decide, rfl, rfl, "1", by decide, by decide +kernel, by decide +kernel⟩
  exact ⟨hdefault, hclash, (Database.plan_default_aliases hdefault).2 hclash, by decide +kernel⟩

/-- Links without aliases of their own are refused for a duplicate alias. -/
theorem default_aliases_collide :
    (∀ l ∈ Tree.forestLabels digitLinks, l.aliasName = none) ∧
      digitDb.plan ctx 1 (Entity.new "a" "aid") digitLinks =
        .error (.malformed (.duplicateAlias "a11")) := by
  refine ⟨by decide +kernel, ?_⟩
  rfl

end Sample

end RecordQuery
