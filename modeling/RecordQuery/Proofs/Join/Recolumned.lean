import RecordQuery.Proofs.Join.Agreement
import RecordQuery.Proofs.Join.Columns
import RecordQuery.Proofs.Join.Meaning
import RecordQuery.Proofs.Join.Strategy

/-!
# Other columns

Links that differ in nothing but their columns are planned to joins that find the same records.
What these put into a row differs in general.  `LinkSpec.FillsAlike` says that it does not differ
under some names, and such joins keep rows in agreement (`Database.planForest_agrees`).

*Positions.*  The alias of a link may depend on the position of the link in its forest, so links at
the same place are related at their position (`Tree.ForestRelAt`).
-/

namespace RecordQuery

open Text

/-! ## Trees with positions -/

namespace Tree

mutual

/-- Two trees have one shape, and labels at the same place are related at their position.  Positions
count depth first; `p` is that of the last label before the trees and `q` that of their last. -/
inductive RelAt (R : Nat → α → β → Prop) : Nat → Tree α → Tree β → Nat → Prop where
  | node {p q : Nat} {a : α} {b : β} {ts : List (Tree α)} {us : List (Tree β)} :
      R (p + 1) a b → ForestRelAt R (p + 1) ts us q → RelAt R p (.node a ts) (.node b us) q

/-- Two forests have one shape, and labels at the same place are related at their position. -/
inductive ForestRelAt (R : Nat → α → β → Prop) :
    Nat → List (Tree α) → List (Tree β) → Nat → Prop where
  | nil {p : Nat} : ForestRelAt R p [] [] p
  | cons {p q r : Nat} {t : Tree α} {u : Tree β} {ts : List (Tree α)} {us : List (Tree β)} :
      RelAt R p t u q → ForestRelAt R q ts us r → ForestRelAt R p (t :: ts) (u :: us) r

end

end Tree

/-! ## What a link fills in -/

/-- The join of a link with an alias that has no records to add yet. -/
def LinkSpec.bareJoin (l : LinkSpec) (aliasName : String) (e : Entity) : Join :=
  ⟨aliasName, e, l.fromAttribute, l.toAttribute, l.kind, l.columns, .searched []⟩

/-- The attributes that a link puts into an empty row for a joined record. -/
def LinkSpec.fills (l : LinkSpec) (aliasName : String) (e : Entity) (joined : Record) :
    NameMap Value :=
  ((l.bareJoin aliasName e).merge (.new e.name .nil) joined).attributes

/-- The link is another one with other columns.  For every record that may be stored behind it both
put the same values, or none, under some names. -/
inductive LinkSpec.FillsAlike (db : Database) (names : List String) (position : Nat)
    (l : LinkSpec) : LinkSpec → Prop where
  | columns (columns : ColumnSet) :
      (∀ e, db.schema.find l.target = .ok e → ∀ joined ∈ db.store.snapshot e, ∀ n ∈ names,
        NameMap.get? (l.fills (l.aliasAt position) e joined) n =
          NameMap.get? (LinkSpec.fills { l with columns := columns } (l.aliasAt position) e joined) n) →
      FillsAlike db names position l { l with columns := columns }

variable {db : Database} {ctx : Context} {n : Nat} {names : List String}

/-- A row holds what was filled in, else what it held before. -/
theorem LinkSpec.get?_merge_eq {l : LinkSpec} {j : Join} (hcolumns : j.columns = l.columns)
    (row joined : Record) (name : String) :
    NameMap.get? (j.merge row joined).attributes name =
      (NameMap.get? (l.fills j.aliasName j.entity joined) name).or
        (NameMap.get? row.attributes name) := by
  have hbare : ∀ row, (l.bareJoin j.aliasName j.entity).merge row joined = j.merge row joined := by
    intro row
    exact Join.merge_congr (i := l.bareJoin j.aliasName j.entity) (j := j) rfl rfl hcolumns.symm
      row joined
  have hempty : NameMap.get? (Record.new j.entity.name .nil).attributes name = none := rfl
  rw [fills, hbare, Join.merge_eq_extend, Join.merge_eq_extend, Choice.extend, Choice.extend,
    NameMap.get?_insertAll, NameMap.get?_insertAll, hempty, Option.or_none]

/-- No link puts anything under a name without a point. -/
theorem LinkSpec.get?_fills_of_pointFree (l : LinkSpec) (aliasName : String) (e : Entity)
    (joined : Record) {name : String} (hname : PointFree name) :
    NameMap.get? (l.fills aliasName e joined) name = none :=
  Join.get?_merge_of_pointFree _ _ joined hname

/-- Where the names have no point, links that differ in their columns alone fill in alike. -/
theorem LinkSpec.fillsAlike_of_pointFree (db : Database) (hnames : ∀ n ∈ names, PointFree n)
    (position : Nat) (l : LinkSpec) (columns : ColumnSet) :
    l.FillsAlike db names position { l with columns := columns } := by
  refine .columns columns fun e _ joined _ n hn => ?_
  rw [l.get?_fills_of_pointFree _ e joined (hnames n hn),
    get?_fills_of_pointFree _ _ e joined (hnames n hn)]

/-- A join finds stored records. -/
theorem LinkSpec.Planned.mem_snapshot {l : LinkSpec} {j : Join} (hplanned : l.Planned db ctx n j)
    {source : Record} {matched : List Record} (h : j.matchesOf source = .ok matched)
    {joined : Record} (hjoined : joined ∈ matched) : joined ∈ db.store.snapshot j.entity := by
  obtain ⟨key, hkey, hkeys⟩ := keys_of_matchesOf hplanned h
  rw [matchesOf_planned hplanned hkey hkeys] at h
  cases h
  obtain ⟨⟨joined, position⟩, hfound, rfl⟩ := List.mem_map.mp hjoined
  obtain ⟨⟨hposition, -⟩, -⟩ := mem_found.mp hfound
  exact List.mem_of_getElem? hposition

namespace Database

variable {parent : Entity} {state : PlanState}

/-! ## Plans -/

/-- Links that fill in alike are planned to joins that agree. -/
theorem planLink_agrees {l l' : LinkSpec} (hl : l.FillsAlike db names (state.position + 1) l')
    {i j : Join} {state₁ state₂ : PlanState}
    (h : db.planLink ctx n parent state l = .ok (i, state₁))
    (h' : db.planLink ctx n parent state l' = .ok (j, state₂)) :
    i.Agrees names j ∧ i.entity = j.entity ∧ state₁ = state₂ ∧
      state₁.position = state.position + 1 := by
  obtain ⟨columns, hfills⟩ := hl
  obtain ⟨-, -, -, hi, hialias, rfl⟩ := planLink_eq_ok h
  obtain ⟨-, -, -, hj, hjalias, rfl⟩ := planLink_eq_ok h'
  have halias : i.aliasName = j.aliasName := hialias.trans hjalias.symm
  have hentity : i.entity = j.entity := Except.ok.inj (hi.entity.symm.trans hj.entity)
  -- but for its columns the other join is planned for the same link
  have hplanned : l.Planned db ctx n { j with columns := l.columns } :=
    ⟨hj.entity, hj.fromAttribute, hj.toAttribute, hj.kind, rfl, hj.candidates⟩
  have hfinds := findsAs_of_planned hi hplanned halias
  refine ⟨⟨hfinds.matchesOf_eq, hfinds.kind, ?_⟩, hentity, by rw [halias, hentity], rfl⟩
  intro source found hfound joined hjoined row row' hrow
  refine ⟨?_, fun name hname => ?_⟩
  · rw [Join.id_merge, Join.id_merge, hrow.id]
  · have hstored := hi.mem_snapshot hfound hjoined
    have hsame := hfills i.entity hi.entity joined hstored name hname
    rw [LinkSpec.get?_merge_eq hi.columns, LinkSpec.get?_merge_eq hj.columns, ← halias, ← hentity,
      hialias, hsame, hrow.attributes name hname]

mutual

theorem planTree_agrees : ∀ {l l' : Link} {parent : Entity} {state : PlanState} {q : Nat},
    Tree.RelAt (LinkSpec.FillsAlike db names) state.position l l' q →
      ∀ {state₁ state₂ : PlanState} {t u : Tree Join},
        planTree db ctx n parent state l = .ok (t, state₁) →
          planTree db ctx n parent state l' = .ok (u, state₂) →
            Tree.Rel (Join.Agrees names) t u ∧ state₁ = state₂ ∧ state₁.position = q
  | .node l ls, .node l' ls', parent, state, q, .node hlink hbelow, state₁, state₂, t, u, h, h' => by
      obtain ⟨i, state₃, ts, hi, hts, rfl⟩ := planTree_eq_ok h
      obtain ⟨j, state₅, us, hj, hus, rfl⟩ := planTree_eq_ok h'
      obtain ⟨hagrees, hentity, rfl, hposition⟩ := planLink_agrees hlink hi hj
      rw [← hentity] at hus
      rw [← hposition] at hbelow
      obtain ⟨hforest, rfl, hlast⟩ := planForest_agrees hbelow hts hus
      exact ⟨.node hagrees hforest, rfl, hlast⟩

/-- Links that fill in alike, position by position, are planned to joins that agree. -/
theorem planForest_agrees : ∀ {ls ls' : List Link} {parent : Entity} {state : PlanState} {q : Nat},
    Tree.ForestRelAt (LinkSpec.FillsAlike db names) state.position ls ls' q →
      ∀ {state₁ state₂ : PlanState} {ts us : List (Tree Join)},
        planForest db ctx n parent state ls = .ok (ts, state₁) →
          planForest db ctx n parent state ls' = .ok (us, state₂) →
            Tree.ForestRel (Join.Agrees names) ts us ∧ state₁ = state₂ ∧ state₁.position = q
  | [], [], parent, state, _, .nil, state₁, state₂, ts, us, h, h' => by
      cases h
      cases h'
      exact ⟨.nil, rfl, rfl⟩
  | l :: ls, l' :: ls', parent, state, q, .cons htree hforest, state₁, state₂, ts, us, h, h' => by
      obtain ⟨t, state₃, ts', ht, hts, rfl⟩ := planForest_cons_eq_ok h
      obtain ⟨u, state₅, us', hu, hus, rfl⟩ := planForest_cons_eq_ok h'
      obtain ⟨hfirst, rfl, hposition⟩ := planTree_agrees htree ht hu
      rw [← hposition] at hforest
      obtain ⟨hrest, rfl, hlast⟩ := planForest_agrees hforest hts hus
      exact ⟨.cons hfirst hrest, rfl, hlast⟩

end

end Database

end RecordQuery
