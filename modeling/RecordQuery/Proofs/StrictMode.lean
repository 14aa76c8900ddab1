import RecordQuery.Proofs.Execution
import RecordQuery.Proofs.Join.Planned
import RecordQuery.Proofs.NameMap
import RecordQuery.Proofs.Sample

/-!
# Strict mode

In strict mode a query may only name attributes that are declared.  Names are checked where they
are used: by the compiler of conditions, by that of orders, for the attributes of every link and
for the columns.  Together these checks are one, of all names that the query looks up
(`Query.LooksUp`), and they change nothing else (`Database.execute_strictly`).

*Guards.*  A strict computation that is the lenient one behind a check is described by
`GuardedBy`: it agrees with the lenient one where the check passes, and gives no value where it
does not.  Guards compose in sequence (`GuardedBy.bind`), so each step is looked at alone.
-/

namespace RecordQuery

open Text

/-! ## Guarded computations -/

/-- The first computation is the second one behind a check. -/
structure GuardedBy (P : Prop) (x y : Except ε α) : Prop where
  eq_of_pass : P → x = y
  pass_of_ok : ∀ a, x = .ok a → P

namespace GuardedBy

variable {P Q : Prop}

/-- A failure needs no check. -/
theorem error (failure : ε) : GuardedBy P (.error failure : Except ε α) (.error failure) :=
  ⟨fun _ => rfl, fun _ h => nomatch h⟩

/-- A check that fails refuses. -/
theorem refuse (failure : ε) (y : Except ε α) (h : ¬P) : GuardedBy P (.error failure) y :=
  ⟨fun hp => absurd hp h, fun _ h => nomatch h⟩

/-- A check that passes changes nothing. -/
theorem pass (x : Except ε α) (h : P) : GuardedBy P x x :=
  ⟨fun _ => rfl, fun _ _ => h⟩

theorem refl (x : Except ε α) : GuardedBy True x x := pass x trivial

theorem congr {x y : Except ε α} (h : GuardedBy P x y) (hiff : P ↔ Q) : GuardedBy Q x y :=
  ⟨fun hq => h.eq_of_pass (hiff.mpr hq), fun a ha => hiff.mp (h.pass_of_ok a ha)⟩

/-- A step and what follows it are behind both their checks. -/
theorem bind {x y : Except ε α} {f g : α → Except ε β} (h : GuardedBy P x y)
    (hrest : ∀ a, x = .ok a → GuardedBy Q (f a) (g a)) :
    GuardedBy (P ∧ Q) (x >>= f) (y >>= g) where
  eq_of_pass := by
    rintro ⟨hp, hq⟩
    rw [← h.eq_of_pass hp]
    cases hx : x with
    | error failure => rfl
    | ok a => exact (hrest a hx).eq_of_pass hq
  pass_of_ok := by
    intro b hb
    obtain ⟨a, ha, hb⟩ := bind_eq_ok_iff.mp hb
    exact ⟨h.pass_of_ok a ha, (hrest a ha).pass_of_ok b hb⟩

/-- What follows a step that needs no check is behind its own check. -/
theorem after (x : Except ε α) {f g : α → Except ε β}
    (hrest : ∀ a, x = .ok a → GuardedBy Q (f a) (g a)) : GuardedBy Q (x >>= f) (x >>= g) :=
  ((refl x).bind hrest).congr ⟨And.right, .intro trivial⟩

/-- What comes before a step that needs no check is behind its own check. -/
theorem before {x y : Except ε α} (h : GuardedBy P x y) (f : α → Except ε β) :
    GuardedBy P (x >>= f) (y >>= f) :=
  (h.bind fun a _ => refl (f a)).congr ⟨And.left, (.intro · trivial)⟩

theorem mapM {check : α → Prop} {f g : α → Except ε β} {l : List α}
    (h : ∀ a ∈ l, GuardedBy (check a) (f a) (g a)) :
    GuardedBy (∀ a ∈ l, check a) (l.mapM f) (l.mapM g) := by
  induction l with
  | nil => exact pass _ (by simp)
  | cons a l ih =>
      obtain ⟨hfirst, hrest⟩ := List.forall_mem_cons.mp h
      rw [List.mapM_cons, List.mapM_cons]
      refine (hfirst.bind fun b _ => (ih hrest).before _).congr ?_
      rw [List.forall_mem_cons]

mutual

theorem filterMapM {check : α → Prop} {f g : α → Except ε β} : ∀ {F : Filter α},
    (∀ a ∈ F.allConditions, GuardedBy (check a) (f a) (g a)) →
      GuardedBy (∀ a ∈ F.allConditions, check a) (F.mapM f) (F.mapM g)
  | .node c cs fs, h => by
      rw [Filter.allConditions, List.forall_mem_append] at h ⊢
      rw [Filter.mapM, Filter.mapM]
      exact (mapM h.1).bind fun _ _ => (filterMapAllM h.2).before _

theorem filterMapAllM {check : α → Prop} {f g : α → Except ε β} : ∀ {fs : List (Filter α)},
    (∀ a ∈ Filter.conditionsOfAll fs, GuardedBy (check a) (f a) (g a)) →
      GuardedBy (∀ a ∈ Filter.conditionsOfAll fs, check a) (Filter.mapAllM f fs)
        (Filter.mapAllM g fs)
  | [], _ => pass _ (by simp [Filter.conditionsOfAll])
  | F :: fs, h => by
      rw [Filter.conditionsOfAll, List.forall_mem_append] at h ⊢
      rw [Filter.mapAllM, Filter.mapAllM]
      exact (filterMapM h.1).bind fun _ _ => (filterMapAllM h.2).before _

end

end GuardedBy

/-! ## What a query looks up -/

/-- A link at its place in a query. -/
structure PlacedLink where
  /-- The entity type that the link starts from. -/
  parent : Option Entity
  aliasName : String
  spec : LinkSpec

mutual

/-- The links of a tree that stands behind a number of other links, depth first. -/
def Link.placed (s : Schema) (parent : Option Entity) (before : Nat) : Link → List PlacedLink
  | .node l branches =>
    ⟨parent, l.aliasAt (before + 1), l⟩ ::
      Link.allPlaced s (s.entity? l.target) (before + 1) branches

/-- The links of a forest that stands behind a number of other links, depth first. -/
def Link.allPlaced (s : Schema) (parent : Option Entity) (before : Nat) :
    List Link → List PlacedLink
  | [] => []
  | l :: ls =>
    let first := Link.placed s parent before l
    first ++ Link.allPlaced s parent (before + first.length) ls

end

/-- A link looks up a name on an entity type. -/
inductive PlacedLink.LooksUp (s : Schema) (p : PlacedLink) : Entity → String → Prop where
  | fromAttribute {e : Entity} : p.parent = some e → LooksUp s p e p.spec.fromAttribute
  | toAttribute {e : Entity} : s.entity? p.spec.target = some e → LooksUp s p e p.spec.toAttribute
  | column {e : Entity} {name : String} : s.entity? p.spec.target = some e →
      name ∈ p.spec.columns.explicit → LooksUp s p e name
  | condition {e : Entity} {c : Condition} : s.entity? p.spec.target = some e →
      c ∈ p.spec.criteria.allConditions → c.aliasName = none ∨ c.aliasName = some p.aliasName →
        LooksUp s p e (lowercase c.name)

namespace Query

/-- The links of a query. -/
def placedLinks (s : Schema) (q : Query) : List PlacedLink :=
  Link.allPlaced s (s.entity? q.entity) 0 q.links

/-- An alias means an entity type: that of the link with the alias, and without an alias that of
the query. -/
def Means (s : Schema) (q : Query) (e : Entity) : Option String → Prop
  | none => s.entity? q.entity = some e
  | some a => ∃ p ∈ q.placedLinks s, p.aliasName = a ∧ s.entity? p.spec.target = some e

/-- A query looks up a name on an entity type. -/
inductive LooksUp (s : Schema) (q : Query) : Entity → String → Prop where
  | column {e : Entity} {name : String} : s.entity? q.entity = some e →
      name ∈ q.columns.explicit → LooksUp s q e name
  | condition {e : Entity} {c : Condition} : c ∈ q.criteria.allConditions →
      q.Means s e c.aliasName → LooksUp s q e (lowercase c.name)
  | order {e : Entity} {o : Order} : o ∈ q.orders → q.Means s e o.aliasName →
      LooksUp s q e (lowercase o.name)
  | link {p : PlacedLink} {e : Entity} {name : String} : p ∈ q.placedLinks s →
      p.LooksUp s e name → LooksUp s q e name

end Query

/-! ## Both modes -/

namespace Context

/-- The context in strict mode. -/
def strictly (ctx : Context) : Context := { ctx with strict := true }

/-- The context in lenient mode. -/
def leniently (ctx : Context) : Context := { ctx with strict := false }

end Context

section Modes

variable {db : Database} {ctx : Context} {e parent : Entity} {name : String}

/-- Names that are looked up on an entity type must be declared there. -/
abbrev Declared (looksUp : Entity → String → Prop) : Prop :=
  ∀ e name, looksUp e name → e.declares name = true

theorem Entity.isSome_typeOf? (e : Entity) (name : String) :
    (e.typeOf? name).isSome = e.declares name := by
  simp [declares, typeOf?]

theorem Entity.require_guarded (e : Entity) (name : String) :
    GuardedBy (e.declares name = true) (e.require name) (.ok ()) := by
  unfold require
  cases e.declares name with
  | false => exact .refuse _ _ Bool.false_ne_true
  | true => exact .pass _ rfl

theorem Entity.requireAll_guarded (e : Entity) (names : List String) :
    GuardedBy (∀ name ∈ names, e.declares name = true) (e.requireAll names) (.ok ()) := by
  induction names with
  | nil => exact .pass _ (by simp)
  | cons name names ih =>
      rw [List.forall_mem_cons]
      exact (e.require_guarded name).bind fun _ _ => ih

/-- The check of a declared type refuses in strict mode only. -/
theorem refusal_guarded (e : Entity) (name : String) (failure : QueryError) (ctx : Context)
    {x y : Except QueryError α} (hsame : x = y) :
    GuardedBy (e.declares name = true)
      (if (e.typeOf? name).isNone && ctx.strictly.strict then .error failure else x)
      (if (e.typeOf? name).isNone && ctx.leniently.strict then .error failure else y) := by
  subst hsame
  rw [← e.isSome_typeOf?]
  cases e.typeOf? name with
  | none => exact .refuse _ _ Bool.false_ne_true
  | some t => exact .pass _ rfl

namespace Condition

theorem compileFor_guarded (c : Condition) (column : String) (e : Entity) (ctx : Context) :
    GuardedBy (e.declares (lowercase c.name) = true) (c.compileFor column e ctx.strictly)
      (c.compileFor column e ctx.leniently) := by
  simp only [compileFor, throw_bind]
  split
  · exact .error _
  · exact refusal_guarded e _ _ ctx rfl

/-- A condition is checked against the entity type that the scope finds for it. -/
theorem compileIn_guarded (c : Condition) (s : Scope) (ctx : Context) :
    GuardedBy (∀ column e, s.locate? c.aliasName (lowercase c.name) = some (column, e) →
        e.declares (lowercase c.name) = true)
      (c.compileIn s ctx.strictly) (c.compileIn s ctx.leniently) := by
  unfold compileIn
  split
  next column e hlocate =>
    exact (c.compileFor_guarded column e ctx).congr (by simp [hlocate])
  next => exact .error _

end Condition

theorem Order.compile_guarded (o : Order) (s : Scope) (ctx : Context) :
    GuardedBy (∀ column e, s.locate? o.aliasName (lowercase o.name) = some (column, e) →
        e.declares (lowercase o.name) = true)
      (o.compile s ctx.strictly) (o.compile s ctx.leniently) := by
  simp only [compile]
  split
  next => exact .error _
  next column e hlocate =>
    exact (refusal_guarded e _ _ ctx rfl).congr (by simp [hlocate])

theorem Projector.new_guarded (db : Database) (e : Entity) (aliases : NameMap Entity)
    (columns : ColumnSet) :
    GuardedBy (∀ name ∈ columns.explicit, e.declares name = true)
      (Projector.new db e aliases columns true) (Projector.new db e aliases columns false) :=
  (e.requireAll_guarded columns.explicit).before fun _ =>
    .ok (Projector.mk db e aliases columns)

/-! ## Links -/

/-- Planning some links led from one state to another. -/
structure PlanState.Gathers (s : Schema) (state : PlanState) (links : List PlacedLink)
    (state' : PlanState) : Prop where
  position : state'.position = state.position + links.length
  aliases : ∀ a e, NameMap.get? state'.aliases a = some e ↔
    NameMap.get? state.aliases a = some e ∨
      ∃ p ∈ links, p.aliasName = a ∧ s.entity? p.spec.target = some e

namespace PlanState.Gathers

variable {s : Schema} {state state' state'' : PlanState} {links links' : List PlacedLink}

theorem nil : state.Gathers s [] state :=
  ⟨rfl, fun a e => by simp⟩

theorem append (h : state.Gathers s links state') (h' : state'.Gathers s links' state'') :
    state.Gathers s (links ++ links') state'' where
  position := by rw [h'.position, h.position, List.length_append, Nat.add_assoc]
  aliases a e := by
    simp only [h'.aliases, h.aliases, List.mem_append, or_and_right, exists_or, or_assoc]

end PlanState.Gathers

theorem Schema.find_eq_ok_iff {s : Schema} : s.find name = .ok e ↔ s.entity? name = some e := by
  unfold find
  cases s.entity? name <;> simp

/-- In the criteria of a link only the link itself has an alias. -/
theorem Scope.locate?_link {aliasName column : String} {a : Option String} {e' : Entity} :
    (Scope.link e aliasName).locate? a name = some (column, e') ↔
      (a = none ∨ a = some aliasName) ∧ name = column ∧ e = e' := by
  cases a with
  | none => simp [locate?, link]
  | some a =>
      by_cases ha : a = aliasName
      · simp [locate?, link, ha]
      · simp [locate?, link, ha, Ne.symm ha, NameMap.get?]

namespace Database

variable {rows : Nat} {state state' : PlanState}

theorem planLink_gathers {l : LinkSpec} {j : Join} (before : Option Entity)
    (h : db.planLink ctx rows parent state l = .ok (j, state')) :
    state.Gathers db.schema [⟨before, l.aliasAt (state.position + 1), l⟩] state' := by
  obtain ⟨hnew, -, -, hplanned, halias, rfl⟩ := planLink_eq_ok h
  refine ⟨rfl, fun a e => ?_⟩
  have hnone : NameMap.get? state.aliases j.aliasName = none := by
    simpa [NameMap.contains] using hnew
  rw [NameMap.get?_insert]
  simp only [List.mem_singleton, exists_eq_left, Schema.find_eq_ok_iff.mp hplanned.entity, ← halias]
  split
  next ha => simp [← ha, hnone]
  next ha => simp [ha]

mutual

theorem planTree_gathers : ∀ {l : Link} {parent : Entity} {state state' : PlanState}
    {t : Tree Join},
    planTree db ctx rows parent state l = .ok (t, state') →
      state.Gathers db.schema (Link.placed db.schema (some parent) state.position l) state'
  | .node l branches, parent, state, state', t, h => by
      obtain ⟨j, state₁, below, hj, hbelow, rfl⟩ := planTree_eq_ok h
      obtain ⟨-, -, -, hplanned, -, -⟩ := planLink_eq_ok hj
      have hfirst := planLink_gathers (some parent) hj
      have hrest := planForest_gathers hbelow
      rw [hfirst.position, ← Schema.find_eq_ok_iff.mp hplanned.entity] at hrest
      exact hfirst.append hrest

theorem planForest_gathers : ∀ {ls : List Link} {parent : Entity} {state state' : PlanState}
    {ts : List (Tree Join)}, planForest db ctx rows parent state ls = .ok (ts, state') →
      state.Gathers db.schema (Link.allPlaced db.schema (some parent) state.position ls) state'
  | [], parent, state, state', ts, h => by
      cases h
      exact .nil
  | l :: ls, parent, state, state', ts, h => by
      obtain ⟨t, state₁, forest, ht, hforest, rfl⟩ := planForest_cons_eq_ok h
      have hfirst := planTree_gathers ht
      have hrest := planForest_gathers hforest
      rw [hfirst.position] at hrest
      exact hfirst.append hrest

end

/-- All names that a link looks up, in the order of their checks. -/
theorem declared_placed_iff {l : LinkSpec} {aliasName : String}
    (he : db.schema.entity? l.target = some e) :
    (parent.declares l.fromAttribute = true ∧
        ∀ name ∈ l.toAttribute :: l.columns.explicit, e.declares name = true) ∧
      (∀ c ∈ l.criteria.allConditions, ∀ column e',
        (Scope.link e aliasName).locate? c.aliasName (lowercase c.name) = some (column, e') →
          e'.declares (lowercase c.name) = true) ↔
      Declared ((PlacedLink.mk (some parent) aliasName l).LooksUp db.schema) := by
  constructor
  · rintro ⟨⟨hfrom, hown⟩, hcriteria⟩ e' name hname
    cases hname with
    | fromAttribute hparent =>
        cases hparent
        exact hfrom
    | toAttribute htarget =>
        cases he.symm.trans htarget
        exact hown _ (.head _)
    | column htarget hcolumn =>
        cases he.symm.trans htarget
        exact hown _ (.tail _ hcolumn)
    | condition htarget hc hscope =>
        cases he.symm.trans htarget
        exact hcriteria _ hc _ _ (Scope.locate?_link.mpr ⟨hscope, rfl, rfl⟩)
  · intro h
    refine ⟨⟨h _ _ (.fromAttribute rfl), fun name hname => ?_⟩, fun c hc column e' hlocate => ?_⟩
    · rcases List.mem_cons.mp hname with rfl | hcolumn
      · exact h _ _ (.toAttribute he)
      · exact h _ _ (.column he hcolumn)
    · obtain ⟨hscope, -, rfl⟩ := Scope.locate?_link.mp hlocate
      exact h _ _ (.condition he hc hscope)

theorem planLink_guarded (l : LinkSpec) :
    GuardedBy
      (Declared
        ((PlacedLink.mk (some parent) (l.aliasAt (state.position + 1)) l).LooksUp db.schema))
      (db.planLink ctx.strictly rows parent state l)
      (db.planLink ctx.leniently rows parent state l) := by
  simp only [planLink, throw_bind]
  split
  · exact .error _
  split
  · exact .error _
  refine .after _ fun e he => ?_
  rw [if_pos (show ctx.strictly.strict = true from rfl),
    if_neg (show ¬ctx.leniently.strict = true from Bool.false_ne_true)]
  have hnames : GuardedBy _ (l.requireDeclared parent e) (.ok ()) :=
    (parent.require_guarded l.fromAttribute).bind fun _ _ => e.requireAll_guarded _
  have hcriteria := GuardedBy.filterMapM (F := l.criteria) fun c _ =>
    c.compileIn_guarded (.link e (l.aliasAt (state.position + 1))) ctx
  exact (hnames.bind fun _ _ => hcriteria.before _).congr
    (declared_placed_iff (Schema.find_eq_ok_iff.mp he))

mutual

theorem planTree_guarded : ∀ (l : Link) (parent : Entity) (state : PlanState),
    GuardedBy (∀ p ∈ Link.placed db.schema (some parent) state.position l,
        Declared (p.LooksUp db.schema))
      (planTree db ctx.strictly rows parent state l) (planTree db ctx.leniently rows parent state l)
  | .node l branches, parent, state => by
      rw [Link.placed, List.forall_mem_cons, planTree, planTree]
      refine (planLink_guarded l).bind ?_
      rintro ⟨j, state₁⟩ hj
      obtain ⟨-, -, -, hplanned, -, rfl⟩ := planLink_eq_ok hj
      rw [Schema.find_eq_ok_iff.mp hplanned.entity]
      exact (planForest_guarded branches j.entity ⟨_, _⟩).before fun p => .ok (Tree.node j p.1, p.2)

theorem planForest_guarded : ∀ (ls : List Link) (parent : Entity) (state : PlanState),
    GuardedBy (∀ p ∈ Link.allPlaced db.schema (some parent) state.position ls,
        Declared (p.LooksUp db.schema))
      (planForest db ctx.strictly rows parent state ls)
      (planForest db ctx.leniently rows parent state ls)
  | [], parent, state => .pass _ (by simp [Link.allPlaced])
  | l :: ls, parent, state => by
      rw [Link.allPlaced, List.forall_mem_append, planForest, planForest]
      refine (planTree_guarded l parent state).bind ?_
      rintro ⟨t, state₁⟩ ht
      rw [← (planTree_gathers ht).position]
      exact (planForest_guarded ls _ _).before _

end

/-! ## Queries -/

variable {q : Query} {joins : List (Tree Join)} {aliases : NameMap Entity}

theorem plan_guarded (he : db.schema.entity? q.entity = some e) (n : Nat) :
    GuardedBy (∀ p ∈ q.placedLinks db.schema, Declared (p.LooksUp db.schema))
      (db.plan ctx.strictly n e q.links) (db.plan ctx.leniently n e q.links) := by
  rw [Query.placedLinks, he]
  exact (planForest_guarded q.links e .start).before _

/-- The scope of a query finds what the aliases of its links mean. -/
theorem locate?_root_iff (name : String) (he : db.schema.entity? q.entity = some e) {n : Nat}
    (h : db.plan ctx n e q.links = .ok (joins, aliases)) {aliasName : Option String} {e' : Entity} :
    (∃ column, (Scope.root e aliases).locate? aliasName name = some (column, e')) ↔
      q.Means db.schema e' aliasName := by
  obtain ⟨⟨forest, state⟩, hforest, heq⟩ := map_eq_ok_iff.mp h
  cases heq
  cases aliasName with
  | none => simp [Scope.locate?, Scope.root, Query.Means, he]
  | some a =>
      have halias := (planForest_gathers hforest).aliases a e'
      rw [Query.Means, Query.placedLinks, he]
      simpa [Scope.locate?, Scope.root, PlanState.start, NameMap.get?] using halias

theorem declared_means_iff (he : db.schema.entity? q.entity = some e) {n : Nat}
    (h : db.plan ctx n e q.links = .ok (joins, aliases)) {aliasName : Option String} :
    (∀ column e', (Scope.root e aliases).locate? aliasName name = some (column, e') →
        e'.declares name = true) ↔
      ∀ e', q.Means db.schema e' aliasName → e'.declares name = true := by
  simp only [← locate?_root_iff name he h, forall_exists_index]
  exact forall_comm

/-- All names that a query looks up, in the order of their checks. -/
theorem declared_iff (he : db.schema.entity? q.entity = some e) :
    (∀ p ∈ q.placedLinks db.schema, Declared (p.LooksUp db.schema)) ∧
      (∀ c ∈ q.criteria.allConditions, ∀ e', q.Means db.schema e' c.aliasName →
        e'.declares (lowercase c.name) = true) ∧
      (∀ o ∈ q.orders, ∀ e', q.Means db.schema e' o.aliasName →
        e'.declares (lowercase o.name) = true) ∧
      (∀ name ∈ q.columns.explicit, e.declares name = true) ↔
      Declared (q.LooksUp db.schema) := by
  constructor
  · rintro ⟨hlinks, hcriteria, horders, hcolumns⟩ e' name hname
    cases hname with
    | column hentity hcolumn =>
        cases he.symm.trans hentity
        exact hcolumns name hcolumn
    | condition hc hmeans => exact hcriteria _ hc e' hmeans
    | order ho hmeans => exact horders _ ho e' hmeans
    | link hp hlooks => exact hlinks _ hp e' name hlooks
  · intro h
    exact ⟨fun p hp e' name hlooks => h e' name (.link hp hlooks),
      fun c hc e' hmeans => h e' _ (.condition hc hmeans),
      fun o ho e' hmeans => h e' _ (.order ho hmeans),
      fun name hname => h e name (.column he hname)⟩

theorem compile_guarded (he : db.schema.entity? q.entity = some e) (n : Nat) :
    GuardedBy (Declared (q.LooksUp db.schema)) (db.compile ctx.strictly q e n)
      (db.compile ctx.leniently q e n) := by
  refine ((plan_guarded he n).bind ?_).congr (declared_iff he)
  rintro ⟨joins, aliases⟩ hplan
  have hcriteria := GuardedBy.filterMapM (F := q.criteria) fun c _ =>
    (c.compileIn_guarded (.root e aliases) ctx).congr (declared_means_iff he hplan)
  have horders := GuardedBy.mapM (l := q.orders) fun o _ =>
    (o.compile_guarded (.root e aliases) ctx).congr (declared_means_iff he hplan)
  have hcolumns := Projector.new_guarded db e aliases q.columns
  exact hcriteria.bind fun _ _ => horders.bind fun _ _ => hcolumns.before _

theorem execute_guarded (db : Database) (ctx : Context) (q : Query) :
    GuardedBy (Declared (q.LooksUp db.schema)) (db.execute ctx.strictly q)
      (db.execute ctx.leniently q) := by
  have hvalid : q.validate ctx.strictly = q.validate ctx.leniently := rfl
  unfold execute
  rw [hvalid]
  -- behind the compiler nothing reads the mode, so what follows is the same computation
  refine .after _ fun _ _ => .after _ fun e he => ?_
  exact ((compile_guarded (Schema.find_eq_ok_iff.mp he) _).before _).before _

/-- **Strict mode is lenient mode behind a check of all names.**  Where every name that a query
looks up is declared both modes give the same result or the same failure; where one is not, strict
mode fails. -/
theorem execute_strictly (db : Database) (ctx : Context) (q : Query) :
    ((∀ e name, q.LooksUp db.schema e name → e.declares name = true) →
      db.execute { ctx with strict := true } q = db.execute { ctx with strict := false } q) ∧
    ((∃ e name, q.LooksUp db.schema e name ∧ e.declares name = false) →
      ∃ failure, db.execute { ctx with strict := true } q = .error failure) := by
  have hguarded := execute_guarded db ctx q
  refine ⟨hguarded.eq_of_pass, ?_⟩
  rintro ⟨e, name, hlooks, hundeclared⟩
  cases hresult : db.execute { ctx with strict := true } q with
  | error failure => exact ⟨failure, rfl⟩
  | ok result =>
      have hdeclared := hguarded.pass_of_ok result hresult e name hlooks
      rw [hundeclared] at hdeclared
      cases hdeclared

end Database

end Modes

namespace Sample

def nameLink : LinkSpec :=
  ⟨"account", "code", "contact", "code", .inner, some "c", .listed ["fullname"], .empty⟩

/-- The accounts with their contacts in the order of an attribute of the contacts. -/
def accountsBy (name : String) : Query :=
  { Query.new "account" with
    links := [.node nameLink []]
    orders := [(Order.new name .ascending).withAlias "c"] }

theorem means_c (name : String) : (accountsBy name).Means db.schema contact (some "c") :=
  ⟨⟨some account, "c", nameLink⟩, List.mem_singleton_self _, rfl, rfl⟩

theorem accountsBy_declared : Declared ((accountsBy "fullname").LooksUp db.schema) := by
  have hlinks : (accountsBy "fullname").placedLinks db.schema = [⟨some account, "c", nameLink⟩] :=
    rfl
  intro e name hname
  cases hname with
  | column hentity hcolumn => cases hcolumn
  | condition hc hmeans => cases hc
  | order ho hmeans =>
      cases List.mem_singleton.mp ho
      obtain ⟨p, hp, -, hentity⟩ := hmeans
      rw [hlinks] at hp
      cases List.mem_singleton.mp hp
      cases hentity
      rfl
  | link hp hlooks =>
      rw [hlinks] at hp
      cases List.mem_singleton.mp hp
      cases hlooks with
      | fromAttribute hparent =>
          cases hparent
          rfl
      | toAttribute htarget =>
          cases htarget
          rfl
      | column htarget hcolumn =>
          cases htarget
          cases List.mem_singleton.mp hcolumn
          rfl
      | condition htarget hc hscope => cases hc

/-- Contacts have a full name and no nickname, so only the order by the latter depends on the
mode. -/
theorem accountsBy_strictly :
    (∃ result, db.execute { ctx with strict := true } (accountsBy "fullname") = .ok result ∧
      db.execute { ctx with strict := false } (accountsBy "fullname") = .ok result ∧
        result.rows.length = 2) ∧
    (∃ result, db.execute { ctx with strict := false } (accountsBy "nickname") = .ok result) ∧
      ∃ failure,
        db.execute { ctx with strict := true } (accountsBy "nickname") = .error failure := by
  obtain ⟨hsame, -⟩ := Database.execute_strictly db ctx (accountsBy "fullname")
  obtain ⟨-, hfails⟩ := Database.execute_strictly db ctx (accountsBy "nickname")
  obtain ⟨result, hresult, hlength⟩ := exists_eq_ok_of_map
    (x := db.execute { ctx with strict := false } (accountsBy "fullname")) (f := (·.rows.length))
    (b := 2) (by decide +kernel)
  refine ⟨⟨result, (hsame accountsBy_declared).trans hresult, hresult, hlength⟩, ?_, ?_⟩
  · exact exists_eq_ok_of_isOk (by decide +kernel)
  · have horder :
        (Order.new "nickname" .ascending).withAlias "c" ∈ (accountsBy "nickname").orders :=
      .head _
    exact hfails ⟨contact, _, .order horder (means_c "nickname"), rfl⟩

end Sample

end RecordQuery
