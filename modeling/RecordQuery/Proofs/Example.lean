import RecordQuery.Proofs.Query.Filter
import RecordQuery.Proofs.Query.Literal
import RecordQuery.Proofs.Sample
import RecordQuery.Proofs.StrictMode
import RecordQuery.Proofs.Windowing

/-!
# Queries by example

A query by example asks for records with given attribute values.  A stored record is such an example
of itself: if it is asked for by values of its own that fit their declared types, it is found
(`Database.executeExample_finds`).

The record passes each condition (`CompiledCondition.evaluate_eq_own`), there are no links to drop
it, and without a window every row that a record becomes is returned (`CompiledQuery.mem_run_iff`).
-/

namespace RecordQuery

open Text

/-! ## Own values -/

/-- A record holds a value that is not null and fits the declared type of the attribute. -/
def Record.Owns (e : Entity) (r : Record) (name : String) (v : Value) : Prop :=
  NameMap.get? r.attributes name = some v ∧
    ∃ t k, e.typeOf? name = some t ∧ Key.ofStored name (some t) v = .ok (some k)

/-- What a record owns it still holds when its primary identifier is added. -/
theorem Record.Owns.get?_withPrimaryId {e : Entity} {r : Record} {name : String} {v : Value}
    (h : r.Owns e name v) : (Store.withPrimaryId e r).get? name = some v := by
  have hheld : NameMap.get? (Store.withPrimaryId e r).attributes name = some v := by
    rw [Store.withPrimaryId, NameMap.insertNew]
    split
    next hpresent => exact h.1
    next habsent =>
      rw [NameMap.get?_insert]
      split
      next hsame =>
        subst hsame
        rw [NameMap.contains, h.1] at habsent
        exact absurd rfl habsent
      next hother => exact h.1
  rw [Record.get?, NameMap.lookup?, hheld]
  rfl

/-! ## Conditions of an example -/

namespace ExampleQuery

variable {q : ExampleQuery} {query : Query}

theorem toQuery_eq_ok (h : q.toQuery = .ok query) :
    query.entity = q.entity ∧ query.links = [] ∧ query.page = q.page ∧ query.top = q.top ∧
      query.distinct = false ∧
      query.criteria = .node .and (List.zipWith Condition.eq q.attributes q.values) [] := by
  rw [toQuery, refuse_eq_ok_iff, refuse_eq_ok_iff] at h
  obtain ⟨-, -, heq⟩ := h
  cases heq
  exact ⟨rfl, rfl, rfl, rfl, rfl, rfl⟩

end ExampleQuery

theorem forall_mem_zipWith {R : α → β → Prop} {f : α → β → γ} {as : List α} {bs : List β}
    (h : List.Forall₂ R as bs) : ∀ c ∈ List.zipWith f as bs, ∃ a b, R a b ∧ c = f a b := by
  induction h with
  | nil => exact fun c hc => nomatch hc
  | @cons a b as bs hfirst hrest ih => exact List.forall_mem_cons.mpr ⟨⟨a, b, hfirst, rfl⟩, ih⟩

section Conditions

variable {e : Entity} {r : Record} {ctx : Context} {aliases : NameMap Entity}

/-- A record passes the condition that an attribute has the value that it owns. -/
theorem Record.Owns.passes {name : String} {v : Value} (h : r.Owns e name v)
    (hlower : lowercase name = name) {compiled : CompiledCondition}
    (hc : (Condition.eq name v).compileIn (.root e aliases) ctx = .ok compiled) (ctx' : Context) :
    compiled.evaluate ctx' (Store.withPrimaryId e r) = .ok true := by
  have hname : lowercase (Condition.eq name v).name = name := by
    change lowercase (lowercase name) = name
    rw [hlower, hlower]
  have hheld := h.get?_withPrimaryId
  obtain ⟨-, t, k, ht, hk⟩ := h
  rw [← hname] at hheld ht hk
  exact CompiledCondition.evaluate_eq_own rfl rfl hc ht hk hheld ctx'

/-- A record passes all conditions on values that it owns. -/
theorem Record.passes_example (hlower : ∀ a ∈ r.attributes, lowercase a.1 = a.1)
    {names : List String} {values : List Value} (h : List.Forall₂ (r.Owns e) names values)
    {criteria : Filter CompiledCondition}
    (hc : Filter.compile (.node .and (List.zipWith Condition.eq names values) []) (.root e aliases)
      ctx = .ok criteria) (ctx' : Context) :
    criteria.evaluate ctx' (Store.withPrimaryId e r) = .ok true := by
  rw [Filter.compile, Filter.mapM] at hc
  obtain ⟨conditions, hconditions, hc⟩ := bind_eq_ok_iff.mp hc
  cases hc
  refine Filter.holds_and_iff.mpr ⟨fun compiled hcompiled => ?_, fun f hf => nomatch hf⟩
  obtain ⟨c, hmem, hcompiled⟩ := mem_of_mapM hconditions hcompiled
  obtain ⟨name, v, howns, rfl⟩ := forall_mem_zipWith h c hmem
  exact howns.passes (hlower _ (NameMap.mem_of_get? howns.1)) hcompiled ctx'

end Conditions

/-- Without joins a record that passes the criteria becomes one row. -/
theorem CompiledQuery.rowsOf_of_no_joins {c : CompiledQuery} (hjoins : c.joins = []) {ctx : Context}
    {r : Record} (hpass : c.criteria.evaluate ctx r = .ok true) : c.rowsOf ctx r = .ok [r] := by
  cases hfilters : c.filtersJoined <;>
    simp [rowsOf, hfilters, hjoins, hpass, resolve, resolveFrom]

/-! ## Execution -/

namespace Database

variable {db : Database} {ctx : Context} {q : ExampleQuery}

/-- **A query by example finds the example.**  A stored record with attribute names in lower case
that is asked for by values that it owns is among the rows, in either letter case mode, if the
query has no window and succeeds. -/
theorem executeExample_finds {e : Entity} {r : Record} (he : db.schema.find q.entity = .ok e)
    (hr : r ∈ db.store.records e.name) (hlower : ∀ a ∈ r.attributes, lowercase a.1 = a.1)
    (howns : List.Forall₂ (r.Owns e) q.attributes q.values) (hpage : q.page = none)
    (htop : q.top = none) {result : ResultSet} (h : db.executeExample ctx q = .ok result) :
    ∃ row ∈ result.rows, row.id = r.id := by
  obtain ⟨query, hquery, h⟩ := bind_eq_ok_iff.mp h
  obtain ⟨hentity, hlinks, hquerypage, hquerytop, hdistinct, hcriteria⟩ :=
    ExampleQuery.toQuery_eq_ok (mapError_eq_ok_iff.mp hquery)
  obtain ⟨e', c, he', hc, hrun⟩ :=
    execute_whole_eq_ok hdistinct (hquerytop.trans htop) (hquerypage.trans hpage) h
  rw [hentity] at he'
  cases Except.ok.inj (he.symm.trans he')
  obtain ⟨joins, aliases, criteria, orders, projector, hplan, hcompiled, -, -, rfl⟩ :=
    compile_eq_ok hc
  rw [hlinks] at hplan
  cases hplan
  rw [hcriteria] at hcompiled
  have hpass := Record.passes_example hlower howns hcompiled ctx
  have hrows := CompiledQuery.rowsOf_of_no_joins
    (c := ⟨e, [], criteria, query.criteria.referencesAliases, orders, projector⟩) rfl hpass
  have hstored : Store.withPrimaryId e r ∈ db.store.snapshot e := List.mem_map_of_mem hr
  exact ⟨projector.project (Store.withPrimaryId e r),
    (CompiledQuery.mem_run_iff hrun).mpr ⟨_, hstored, _, hrows, _, .head _, rfl⟩, rfl⟩

end Database

namespace Sample

/-- The contacts that have the name and the code of a contact. -/
def likeGrace : ExampleQuery :=
  ((ExampleQuery.new "contact").withAttribute "fullname" (.text "Grace")).withAttribute "code"
    (.money ⟨15, 1⟩)

theorem grace_owns : List.Forall₂ (grace.Owns contact) likeGrace.attributes likeGrace.values :=
  .cons ⟨rfl, .string, .text "Grace", rfl, rfl⟩
    (.cons ⟨rfl, .decimal, .number ⟨15, 1⟩, rfl, rfl⟩ .nil)

/-- The contact is found with letter case ignored and with it observed. -/
theorem likeGrace_finds : ∃ result result',
    db.executeExample ctx likeGrace = .ok result ∧
      db.executeExample { ctx with caseSensitive := true } likeGrace = .ok result' ∧
      (∃ row ∈ result.rows, row.id = grace.id) ∧ ∃ row ∈ result'.rows, row.id = grace.id := by
  have he : db.schema.find likeGrace.entity = .ok contact := by decide +kernel
  have hr : grace ∈ db.store.records contact.name := .tail _ (.head _)
  have hlower : ∀ a ∈ grace.attributes, lowercase a.1 = a.1 := by decide +kernel
  obtain ⟨result, hresult⟩ := exists_eq_ok_of_isOk
    (x := db.executeExample ctx likeGrace) (by decide +kernel)
  obtain ⟨result', hresult'⟩ := exists_eq_ok_of_isOk
    (x := db.executeExample { ctx with caseSensitive := true } likeGrace) (by decide +kernel)
  exact ⟨result, result', hresult, hresult',
    Database.executeExample_finds he hr hlower grace_owns rfl rfl hresult,
    Database.executeExample_finds he hr hlower grace_owns rfl rfl hresult'⟩

end Sample

end RecordQuery
